import ActorAudit.Proofs.Reachability

/-!
# Dangling ids

A type holds ids in nine fields. `danglingMentions` goes through eight of them: the interfaces that methods are
tied to are left out. So it is complete exactly where every such interface is a type of the graph or stands in
another field as well.
-/

namespace ActorAudit

/-- The fields of a type, its members, its methods and their parameters that hold ids. -/
inductive IdField where
  | baseType
  | interfaces
  | flattened
  | typeArguments
  | elementType
  | declaredType
  | returnType
  | parameterType
  | definingInterface
deriving DecidableEq, Repr

namespace TypeSymbol

def Holds (d : TypeSymbol) (t : TypeId) : IdField → Prop
  | .baseType => d.baseType = some t
  | .interfaces => t ∈ d.interfaces
  | .flattened => ∃ all, d.flattened = some all ∧ t ∈ all
  | .typeArguments => t ∈ d.typeArguments
  | .elementType => d.elementType = some t
  | .declaredType => ∃ p ∈ d.members, p.declaredType = some t
  | .returnType => ∃ m ∈ d.methods, m.returnType = some t
  | .parameterType => ∃ m ∈ d.methods, ∃ p ∈ m.parameters, p.type = t
  | .definingInterface => ∃ m ∈ d.methods, m.definingInterface = some t

theorem mem_mentions_iff {d : TypeSymbol} {t : TypeId} :
    t ∈ d.mentions ↔ ∃ f, f ≠ .definingInterface ∧ d.Holds t f := by
  constructor
  · intro h
    simp only [mentions, List.mem_append, Option.mem_toList, List.mem_filterMap, List.mem_flatMap,
      List.mem_map] at h
    rcases h with (((((h | h) | h) | h) | h) | h) | ⟨m, hm, h | h⟩
    · exact ⟨.baseType, by decide, h⟩
    · exact ⟨.interfaces, by decide, h⟩
    · refine ⟨.flattened, by decide, ?_⟩
      cases hf : d.flattened with
      | none => simp [hf] at h
      | some all => exact ⟨all, hf, by simpa [hf] using h⟩
    · exact ⟨.typeArguments, by decide, h⟩
    · exact ⟨.elementType, by decide, h⟩
    · exact ⟨.declaredType, by decide, h⟩
    · exact ⟨.returnType, by decide, m, hm, h⟩
    · exact ⟨.parameterType, by decide, m, hm, h⟩
  · rintro ⟨f, hf, h⟩
    simp only [mentions, List.mem_append, Option.mem_toList, List.mem_filterMap, List.mem_flatMap, List.mem_map]
    cases f with
    | flattened =>
      obtain ⟨all, hall, ht⟩ := h
      simp [hall, ht]
    | returnType =>
      obtain ⟨m, hm, ht⟩ := h
      exact .inr ⟨m, hm, .inl ht⟩
    | parameterType =>
      obtain ⟨m, hm, ht⟩ := h
      exact .inr ⟨m, hm, .inr ht⟩
    | definingInterface => exact absurd rfl hf
    | _ => simp_all [Holds]

end TypeSymbol

theorem TypeId.toNat_ofNat {n : Nat} (h : n < UInt32.size) : (ofNat n).toNat = n := by
  simp only [ofNat, toNat, if_pos h]
  exact UInt32.toNat_ofNat_of_lt h

namespace Graph

variable {g : Graph} {owner t : TypeId}

theorem mem_danglingMentions : (owner, t) ∈ g.danglingMentions ↔
    g.get? t = none ∧ ((∃ i d, g.types.toList[i]? = some d ∧ TypeId.ofNat i = owner ∧
      ∃ f, f ≠ .definingInterface ∧ d.Holds t f) ∨ owner = t ∧ t ∈ g.declarations) := by
  have hnone : (!g.resolves t) = true ↔ g.get? t = none := by simp [resolves]
  unfold danglingMentions
  rw [List.mem_append]
  constructor
  · rintro (h | h)
    · obtain ⟨⟨d, i⟩, hd, h⟩ := List.mem_flatMap.mp h
      obtain ⟨u, hu, hp⟩ := List.mem_map.mp h
      obtain ⟨rfl, rfl⟩ := Prod.mk.inj hp
      obtain ⟨hu, hdangling⟩ := List.mem_filter.mp hu
      exact ⟨hnone.mp hdangling,
        .inl ⟨i, d, List.mem_zipIdx_iff_getElem?.mp hd, rfl, TypeSymbol.mem_mentions_iff.mp hu⟩⟩
    · obtain ⟨u, hu, hp⟩ := List.mem_map.mp h
      obtain ⟨rfl, rfl⟩ := Prod.mk.inj hp
      obtain ⟨hu, hdangling⟩ := List.mem_filter.mp hu
      exact ⟨hnone.mp hdangling, .inr ⟨rfl, hu⟩⟩
  · rintro ⟨hdangling, ⟨i, d, hi, rfl, hf⟩ | ⟨rfl, hdeclared⟩⟩
    · refine .inl (List.mem_flatMap.mpr ⟨(d, i), List.mem_zipIdx_iff_getElem?.mpr hi, ?_⟩)
      have hmem : t ∈ d.mentions.filter fun t => !g.resolves t :=
        List.mem_filter.mpr ⟨TypeSymbol.mem_mentions_iff.mpr hf, hnone.mpr hdangling⟩
      exact List.mem_map.mpr ⟨t, hmem, rfl⟩
    · exact .inr (List.mem_map.mpr ⟨owner, List.mem_filter.mpr ⟨hdeclared, hnone.mpr hdangling⟩, rfl⟩)

-- a position beyond the last id would share that id
theorem exists_position_iff (hsize : g.size ≤ UInt32.size) {d : TypeSymbol} :
    (∃ i, g.types.toList[i]? = some d ∧ TypeId.ofNat i = owner) ↔ g.get? owner = some d := by
  simp only [get?, Array.getElem?_toList]
  constructor
  · rintro ⟨i, hi, rfl⟩
    have hlt : i < g.size := (Array.getElem?_eq_some_iff.mp hi).1
    rwa [TypeId.toNat_ofNat (by omega)]
  · intro h
    exact ⟨owner.toNat, h, TypeId.ofNat_toNat owner⟩

theorem mem_danglingMentions_iff (hsize : g.size ≤ UInt32.size) : (owner, t) ∈ g.danglingMentions ↔
    g.get? t = none ∧ ((∃ d, g.get? owner = some d ∧ ∃ f, f ≠ .definingInterface ∧ d.Holds t f) ∨
      owner = t ∧ t ∈ g.declarations) := by
  rw [mem_danglingMentions]
  refine and_congr_right fun _ => or_congr_left ?_
  rw [exists_comm]
  refine exists_congr fun d => ?_
  rw [← exists_position_iff hsize]
  constructor
  · rintro ⟨i, hi, ho, hf⟩
    exact ⟨⟨i, hi, ho⟩, hf⟩
  · rintro ⟨⟨i, hi, ho⟩, hf⟩
    exact ⟨i, hi, ho, hf⟩

/-! ## Completeness -/

/-- The pairs are those of a type and an id that it holds in any field and that points nowhere, and those of a
declaration that points nowhere with itself. -/
def NamesDangling (g : Graph) (pairs : List (TypeId × TypeId)) : Prop :=
  ∀ owner t, (owner, t) ∈ pairs ↔
    g.get? t = none ∧ ((∃ d, g.get? owner = some d ∧ ∃ f, d.Holds t f) ∨ owner = t ∧ t ∈ g.declarations)

/-- The dangling mentions of a graph are the dangling ids in all fields but `definingInterface`, and the dangling
declarations. They are the dangling ids in all fields exactly if no dangling id stands in that field alone. -/
theorem danglingMentions_complete_iff (g : Graph) (hsize : g.size ≤ UInt32.size) :
    (∀ owner t, (owner, t) ∈ g.danglingMentions ↔
      g.get? t = none ∧ ((∃ d, g.get? owner = some d ∧ ∃ f, f ≠ .definingInterface ∧ d.Holds t f) ∨
        owner = t ∧ t ∈ g.declarations)) ∧
    (g.NamesDangling g.danglingMentions ↔ ∀ owner d t, g.get? owner = some d → g.get? t = none →
      d.Holds t .definingInterface → ∃ f, f ≠ .definingInterface ∧ d.Holds t f) := by
  refine ⟨fun owner t => mem_danglingMentions_iff hsize, fun h owner d t hd ht htie => ?_, fun h owner t => ?_⟩
  · have hmem := (h owner t).mpr ⟨ht, .inl ⟨d, hd, _, htie⟩⟩
    obtain ⟨_, ⟨e, he, hf⟩ | ⟨rfl, _⟩⟩ := (mem_danglingMentions_iff hsize).mp hmem
    · rw [hd, Option.some.injEq] at he
      subst he
      exact hf
    · -- the owner is a type and the target is none
      rw [hd] at ht
      cases ht
  · rw [mem_danglingMentions_iff hsize]
    refine and_congr_right fun ht => or_congr_left (exists_congr fun d => and_congr_right fun hd => ?_)
    constructor
    · rintro ⟨f, _, hf⟩
      exact ⟨f, hf⟩
    · rintro ⟨f, hf⟩
      by_cases htie : f = .definingInterface
      · subst htie
        exact h owner d t hd ht hf
      · exact ⟨f, htie, hf⟩

/-- A class with a method tied to an interface that is not there, but that the class lists. -/
def stray : Graph where
  types := #[
    { name := "Clerk", kind := .classType, interfaces := [⟨7⟩],
      methods := [{ name := "File", definingInterface := some ⟨7⟩ }] }]
  declarations := [⟨0⟩, ⟨9⟩]

theorem danglingMentions_complete_stray :
    stray.size ≤ UInt32.size ∧ stray.NamesDangling stray.danglingMentions := by
  have hsize : stray.size ≤ UInt32.size := by decide
  refine ⟨hsize, (danglingMentions_complete_iff stray hsize).2.mpr ?_⟩
  intro owner d t hd _ htie
  have h : ∀ e ∈ stray.types.toList, ∀ m ∈ e.methods, ∀ i ∈ m.definingInterface, i ∈ e.interfaces := by decide
  obtain ⟨m, hm, ht⟩ := htie
  exact ⟨.interfaces, by decide, h d (mem_types_of_get? hd) m hm t ht⟩

/-- The same class without its list of interfaces. -/
def strayTie : Graph where
  types := #[
    { name := "Clerk", kind := .classType, methods := [{ name := "File", definingInterface := some ⟨7⟩ }] }]

theorem strayTie_unnamed :
    strayTie.size ≤ UInt32.size ∧ ¬strayTie.NamesDangling strayTie.danglingMentions := by
  refine ⟨by decide, fun h => ?_⟩
  have hnone : strayTie.danglingMentions = [] := by decide
  have hmem := (h ⟨0⟩ ⟨7⟩).mpr ⟨by decide, .inl ⟨_, rfl, .definingInterface, _, List.mem_cons_self, rfl⟩⟩
  rw [hnone] at hmem
  cases hmem

end Graph

end ActorAudit
