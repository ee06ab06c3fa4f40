import ActorAudit.Proofs.History
import Mathlib

/-!
# Surfaces up to the contract

A method that implements several contracts is on the surface through the first of them, and which one is
first depends on the order of the flattened interfaces. Nothing but the `interface` of an exposure depends
on it: surfaces worked out from different memos of a well-formed graph have the same exposures up to this
field, and no rule reads it.
-/

namespace ActorAudit

/-- Every exposure of the first surface is on the second, perhaps through another contract. -/
def Surface.Within (s t : Surface) : Prop := ∀ u ∈ s, ∃ i, { u with interface := i } ∈ t

theorem Surface.Within.refl (s : Surface) : s.Within s := fun u hu => ⟨u.interface, hu⟩

/-! ## Methods on a surface -/

namespace Graph

variable {g : Graph}

theorem Implementation.sameSlot_iff {a b : Implementation} :
    a.sameSlot b = true ↔ a.owner = b.owner ∧ a.position = b.position := by
  simp [sameSlot]

theorem mem_of_mem_firstPerSlot {l : List (TypeId × Implementation)} :
    ∀ {e}, e ∈ firstPerSlot l → e ∈ l := by
  induction l with
  | nil => intro e h; cases h
  | cons a l ih =>
    intro e h
    rcases List.mem_cons.mp h with rfl | h
    · exact List.mem_cons_self
    · exact List.mem_cons_of_mem _ (ih (List.mem_filter.mp h).1)

theorem exists_mem_firstPerSlot {l : List (TypeId × Implementation)} :
    ∀ e ∈ l, ∃ e' ∈ firstPerSlot l, e'.2.sameSlot e.2 = true := by
  induction l with
  | nil => intro e h; cases h
  | cons a l ih =>
    intro e h
    rcases List.mem_cons.mp h with rfl | h
    · exact ⟨e, List.mem_cons_self, Implementation.sameSlot_iff.mpr ⟨rfl, rfl⟩⟩
    · obtain ⟨e', he', hs⟩ := ih e h
      -- either the representative in the tail survives, or the head stands for its slot
      by_cases ha : a.2.sameSlot e'.2 = true
      · refine ⟨a, List.mem_cons_self, ?_⟩
        rw [Implementation.sameSlot_iff] at ha hs ⊢
        exact ⟨ha.1.trans hs.1, ha.2.trans hs.2⟩
      · exact ⟨e', List.mem_cons_of_mem _ (List.mem_filter.mpr ⟨he', by simp [ha]⟩), hs⟩

theorem method_eq_of_sameSlot {cls : TypeId} {a b : Implementation} (ha : a ∈ g.inheritedMethods cls)
    (hb : b ∈ g.inheritedMethods cls) (h : a.sameSlot b = true) : a.method = b.method := by
  have hslot : ∀ c ∈ g.inheritedMethods cls,
      (g.get? c.owner).bind (fun d => d.methods[c.position]?) = some c.method := by
    intro c hc
    obtain ⟨⟨owner, d⟩, hp, hc⟩ := List.mem_flatMap.mp hc
    obtain ⟨⟨m, i⟩, hm, rfl⟩ := List.mem_map.mp hc
    rw [get?_of_mem_lineage hp]
    exact List.mem_zipIdx_iff_getElem?.mp hm
  obtain ⟨ho, hp⟩ := Implementation.sameSlot_iff.mp h
  have hab := hslot a ha
  rw [ho, hp, hslot b hb] at hab
  exact (Option.some.inj hab).symm

theorem mem_inheritedMethods_of_implementationOf {cls interface : TypeId} {m : Method} {c : Implementation}
    (h : g.implementationOf cls interface m = some c) : c ∈ g.inheritedMethods cls := by
  rcases Option.or_eq_some_iff.mp h with h | ⟨_, h⟩ <;>
    exact (List.mem_filter.mp (List.mem_of_find?_eq_some h)).1

theorem mem_inheritedMethods_of_mem_contractMethods {cls : TypeId} {cs : List TypeId}
    {e : TypeId × Implementation} (h : e ∈ g.contractMethods cls cs) : e.2 ∈ g.inheritedMethods cls := by
  obtain ⟨i, _, h⟩ := List.mem_flatMap.mp h
  split at h
  · cases h
  · obtain ⟨m, _, hm⟩ := List.mem_filterMap.mp h
    obtain ⟨c, hc, rfl⟩ := Option.map_eq_some_iff.mp hm
    exact mem_inheritedMethods_of_implementationOf hc

theorem contractMethods_subset {cs cs' : List TypeId} (h : cs ⊆ cs') (cls : TypeId) :
    g.contractMethods cls cs ⊆ g.contractMethods cls cs' := by
  intro e he
  obtain ⟨i, hi, he⟩ := List.mem_flatMap.mp he
  exact List.mem_flatMap.mpr ⟨i, h hi, he⟩

theorem mem_occurrences_interface {i : TypeId} {m : Method} {o : Occurrence} (h : o ∈ g.occurrences i m)
    (j : TypeId) : { o with interface := j } ∈ g.occurrences j m := by
  rcases List.mem_append.mp h with h | h
  · obtain ⟨t, ht, rfl⟩ := List.mem_map.mp h
    exact List.mem_append_left _ (List.mem_map.mpr ⟨t, ht, rfl⟩)
  · obtain ⟨p, hp, rfl⟩ := List.mem_map.mp h
    exact List.mem_append_right _ (List.mem_map.mpr ⟨p, hp, rfl⟩)

end Graph

namespace Model

variable {m : Model}

/-- With more contracts there are more occurrences, up to the contract through which they are found. -/
theorem mem_surfaceOccurrences_of_subset {cs cs' : List TypeId} (h : cs ⊆ cs') {cls : TypeId} {o : Occurrence}
    (ho : o ∈ m.surfaceOccurrences cls cs) :
    ∃ i, { o with interface := i } ∈ m.surfaceOccurrences cls cs' := by
  obtain ⟨e, he, ho⟩ := List.mem_flatMap.mp ho
  replace he := Graph.contractMethods_subset h cls (Graph.mem_of_mem_firstPerSlot he)
  obtain ⟨e', he', hs⟩ := Graph.exists_mem_firstPerSlot e he
  have hm : e'.2.method = e.2.method :=
    Graph.method_eq_of_sameSlot
      (Graph.mem_inheritedMethods_of_mem_contractMethods (Graph.mem_of_mem_firstPerSlot he'))
      (Graph.mem_inheritedMethods_of_mem_contractMethods he) hs
  refine ⟨e'.1, List.mem_flatMap.mpr ⟨e', he', ?_⟩⟩
  dsimp only
  rw [hm]
  exact Graph.mem_occurrences_interface ho e'.1

/-! ## Surfaces from any memo -/

def exposed (m : Model) (o : Occurrence) : Exposure :=
  let type := (m.awaited o.declared).fresh
  let c := (m.classify type).fresh
  ⟨o.interface, o.method, o.site, o.declared, type, c, c.element?.map fun e => (e, (m.classify e).fresh),
    o.location⟩

section
variable (hg : m.graph.WellFormed)
include hg

theorem steady_awaitedWithin (steps : Nat) (id : TypeId) : Query.Steady m.Right (m.awaitedWithin steps id) := by
  induction steps generalizing id with
  | zero => exact .pure _
  | succ steps ih =>
    refine .bind right_empty (steady_classify_of_wellFormed hg id) fun c => ?_
    cases c with
    | asyncWrapper inner => exact ih inner
    | _ => exact .pure _

theorem steady_isMarked (id : TypeId) : Query.Steady m.Right (m.isMarked id) :=
  (keeps_isMarked_of_wellFormed hg id).steady_bool right_empty

theorem keeps_exposureOf (o : Occurrence) : Query.Keeps m.Right (m.exposureOf o) (· = m.exposed o) := by
  refine Query.Keeps.bind (steady_awaitedWithin hg _ _) ?_
  rintro type rfl
  refine Query.Keeps.bind (steady_classify_of_wellFormed hg _) ?_
  rintro c rfl
  unfold exposed awaited
  dsimp only
  cases (m.classify (m.awaitedWithin (m.graph.size + 1) o.declared).fresh).fresh.element? with
  | none => exact .pure rfl
  | some e =>
    refine Query.Keeps.bind (steady_classify_of_wellFormed hg e) ?_
    rintro ec rfl
    exact .pure rfl

theorem keeps_contracts (cls : TypeId) : Query.Keeps m.Right (m.contracts cls) fun cs =>
    ∀ x, x ∈ cs ↔ (x ≠ cls ∧ m.graph.Inherits cls x) ∧ (m.isMarked x).fresh = true := by
  refine (keeps_interfacesOf_of_wellFormed hg cls).bind fun all hall => ?_
  refine (Query.Steady.filter fun x _ => steady_isMarked hg x).mono ?_
  rintro cs rfl x
  rw [List.mem_filter, hall x]

/-- Two surfaces of a class, from any two memos, have the same exposures up to the contract. -/
theorem keeps_surface (cls : TypeId) : Query.Keeps m.Right (m.surface cls) fun s =>
    s.Within (m.surface cls).fresh ∧ Surface.Within (m.surface cls).fresh s := by
  have h : Query.Keeps m.Right (m.surface cls) fun s => ∃ cs,
      (∀ x, x ∈ cs ↔ (x ≠ cls ∧ m.graph.Inherits cls x) ∧ (m.isMarked x).fresh = true) ∧
        s = (m.surfaceOccurrences cls cs).map m.exposed := by
    refine (keeps_contracts hg cls).bind fun cs hcs => ?_
    exact (Query.Keeps.each_map fun o _ => keeps_exposureOf hg o).mono fun s hs => ⟨cs, hcs, hs⟩
  have hwithin : ∀ {cs cs' : List TypeId}, (∀ x ∈ cs, x ∈ cs') → Surface.Within
      ((m.surfaceOccurrences cls cs).map m.exposed) ((m.surfaceOccurrences cls cs').map m.exposed) := by
    intro cs cs' hcs u hu
    obtain ⟨o, ho, rfl⟩ := List.mem_map.mp hu
    obtain ⟨i, hi⟩ := mem_surfaceOccurrences_of_subset hcs ho
    exact ⟨i, List.mem_map.mpr ⟨_, hi, rfl⟩⟩
  obtain ⟨cs₀, hcs₀, h₀⟩ := (h _ right_empty).1
  replace h₀ : (m.surface cls).fresh = (m.surfaceOccurrences cls cs₀).map m.exposed := h₀
  rw [h₀]
  refine h.mono ?_
  rintro s ⟨cs, hcs, rfl⟩
  exact ⟨hwithin fun x hx => (hcs₀ x).mpr ((hcs x).mp hx), hwithin fun x hx => (hcs x).mpr ((hcs₀ x).mp hx)⟩

end

/-! The contract itself does depend on what was asked before. -/

example : (surface ⟨Graph.ring, {}⟩ ⟨4⟩).fresh.map (·.interface) = [⟨6⟩] := by cbv

example : (surface ⟨Graph.ring, {}⟩ ⟨4⟩ (after ⟨Graph.ring, {}⟩ [.marked ⟨2⟩])).1.map (·.interface) = [⟨5⟩] := by
  cbv

end Model

/-! ## Rules on surfaces -/

/-- Every finding of the first list has one in the second with the same place and the same names. -/
def Finding.Echoed (fs gs : List Finding) : Prop :=
  ∀ f ∈ fs, ∃ f' ∈ gs, f.location = f'.location ∧ f.arguments = f'.arguments

theorem Finding.echoed_of_subset {fs gs : List Finding} (h : fs ⊆ gs) : Echoed fs gs :=
  fun f hf => ⟨f, h hf, rfl, rfl⟩

theorem Finding.echoed_place (location : Option Location) (arguments : List String) (a b : String)
    (l k : List Label) : Echoed (place location arguments a l) (place location arguments b k) := by
  intro f hf
  obtain ⟨p, hp, rfl⟩ := List.mem_map.mp hf
  exact ⟨_, List.mem_map.mpr ⟨p, hp, rfl⟩, rfl, rfl⟩

theorem Finding.Echoed.flatMap {α : Type} {l : List α} {k k' : α → List Finding}
    (h : ∀ a ∈ l, Echoed (k a) (k' a)) : Echoed (l.flatMap k) (l.flatMap k') := by
  intro f hf
  obtain ⟨a, ha, hf⟩ := List.mem_flatMap.mp hf
  obtain ⟨f', hf', he⟩ := h a ha f hf
  exact ⟨f', List.mem_flatMap.mpr ⟨a, ha, hf'⟩, he⟩

theorem Surface.Within.mem_reached {s t : Surface} (h : s.Within t) {id : TypeId} {c : Classification}
    {u : Exposure} (hu : (id, c, u) ∈ Surface.reached s) :
    ∃ i, (id, c, { u with interface := i }) ∈ Surface.reached t := by
  obtain ⟨v, hv, hu⟩ := List.mem_flatMap.mp hu
  obtain ⟨p, hp, hu⟩ := List.mem_map.mp hu
  cases hu
  obtain ⟨i, hi⟩ := h u hv
  exact ⟨i, List.mem_flatMap.mpr ⟨_, hi, List.mem_map.mpr ⟨p, hp, rfl⟩⟩⟩

namespace RuleId

theorem mem_of_mem_firstUses {c : Classification} {s : Surface} {seen : List TypeId} {u : Exposure}
    (h : u ∈ firstUses c seen s) : u ∈ s ∧ u.classification = c := by
  induction s generalizing seen with
  | nil => cases h
  | cons v s ih =>
    unfold firstUses at h
    split at h
    · rename_i hv
      rcases List.mem_cons.mp h with rfl | h
      · exact ⟨List.mem_cons_self, hv.1⟩
      · exact ⟨List.mem_cons_of_mem _ (ih h).1, (ih h).2⟩
    · exact ⟨List.mem_cons_of_mem _ (ih h).1, (ih h).2⟩

theorem exists_mem_firstUses {c : Classification} {s : Surface} {seen : List TypeId} {u : Exposure}
    (hu : u ∈ s) (hc : u.classification = c) (hs : u.type ∉ seen) :
    ∃ v ∈ firstUses c seen s, v.type = u.type := by
  induction s generalizing seen with
  | nil => cases hu
  | cons v s ih =>
    unfold firstUses
    rcases List.mem_cons.mp hu with rfl | hu
    · rw [if_pos ⟨hc, hs⟩]
      exact ⟨u, List.mem_cons_self, rfl⟩
    · split
      · by_cases huv : v.type = u.type
        · exact ⟨v, List.mem_cons_self, huv⟩
        · have hs' : u.type ∉ v.type :: seen := List.not_mem_cons_of_ne_of_not_mem (Ne.symm huv) hs
          obtain ⟨w, hw, hwu⟩ := ih hu hs'
          exact ⟨w, List.mem_cons_of_mem _ hw, hwu⟩
      · exact ih hu hs

theorem complexType_echoed (scope : Scope) {t : Surface} (h : scope.surface.Within t) :
    Finding.Echoed (complexTypeFindings scope) (complexTypeFindings { scope with surface := t }) := by
  intro f hf
  obtain ⟨⟨d, u⟩, hu, hf⟩ := List.mem_flatMap.mp hf
  obtain ⟨v, hv, hd⟩ := List.mem_filterMap.mp hu
  obtain ⟨e, he, hd⟩ := Option.map_eq_some_iff.mp hd
  cases hd
  obtain ⟨hus, hc⟩ := mem_of_mem_firstUses hv
  obtain ⟨i, hi⟩ := h u hus
  obtain ⟨w, hw, hwu⟩ := exists_mem_firstUses hi hc List.not_mem_nil
  have hmem : (d, w) ∈ uncontractedObjects { scope with surface := t } := by
    refine List.mem_filterMap.mpr ⟨w, hw, ?_⟩
    rw [hwu]
    exact Option.map_eq_some_iff.mpr ⟨d, he, rfl⟩
  obtain ⟨f', hf', hff'⟩ := Finding.echoed_place _ _ _ _ _ w.label f hf
  exact ⟨f', List.mem_flatMap.mpr ⟨_, hmem, hf'⟩, hff'⟩

theorem echoed_flatMap_surface {s t : Surface} (h : s.Within t) {k : Exposure → List Finding}
    (hk : ∀ u i, k { u with interface := i } = k u) : Finding.Echoed (s.flatMap k) (t.flatMap k) := by
  refine Finding.echoed_of_subset fun f hf => ?_
  obtain ⟨u, hu, hf⟩ := List.mem_flatMap.mp hf
  obtain ⟨i, hi⟩ := h u hu
  refine List.mem_flatMap.mpr ⟨_, hi, ?_⟩
  rw [hk]
  exact hf

theorem construction_echoed (scope : Scope) {t : Surface} (h : scope.surface.Within t) :
    Finding.Echoed (constructionFindings scope) (constructionFindings { scope with surface := t }) := by
  refine Finding.echoed_of_subset fun f hf => ?_
  obtain ⟨⟨id, c, u⟩, hu, hf⟩ := List.mem_flatMap.mp hf
  obtain ⟨i, hi⟩ := h.mem_reached hu
  exact List.mem_flatMap.mpr ⟨_, hi, hf⟩

/-! ### Records -/

section
variable {scope : Scope} {rest : List (TypeId × Classification × Exposure)} {seen : List TypeId} {f : Finding}

theorem of_mem_recordFindingsFrom (h : f ∈ recordFindingsFrom scope seen rest) :
    ∃ id d u, (id, .record, u) ∈ rest ∧ scope.model.graph.get? id = some d ∧
      (f ∈ recordUseFindings d u ∨ id ∉ seen ∧ f ∈ recordMemberFindings d u) := by
  induction rest generalizing seen with
  | nil => cases h
  | cons a rest ih =>
    obtain ⟨id, c, u⟩ := a
    unfold recordFindingsFrom at h
    split at h
    · rename_i d hd
      rcases List.mem_append.mp h with h | h
      · exact ⟨id, d, u, List.mem_cons_self, hd, .inl h⟩
      split at h
      · obtain ⟨id', d', u', hu', hf⟩ := ih h
        exact ⟨id', d', u', List.mem_cons_of_mem _ hu', hf⟩
      rename_i hs
      rcases List.mem_append.mp h with h | h
      · exact ⟨id, d, u, List.mem_cons_self, hd, .inr ⟨hs, h⟩⟩
      · obtain ⟨id', d', u', hu', hd', hf⟩ := ih h
        refine ⟨id', d', u', List.mem_cons_of_mem _ hu', hd', hf.imp_right fun hf => ⟨?_, hf.2⟩⟩
        exact fun hs' => hf.1 (List.mem_cons_of_mem _ hs')
    · obtain ⟨id', d', u', hu', hf⟩ := ih h
      exact ⟨id', d', u', List.mem_cons_of_mem _ hu', hf⟩

variable {id : TypeId} {d : TypeSymbol} {u : Exposure} (hu : (id, .record, u) ∈ rest)
  (hd : scope.model.graph.get? id = some d)
include hu hd

theorem recordUse_subset : recordUseFindings d u ⊆ recordFindingsFrom scope seen rest := by
  induction rest generalizing seen with
  | nil => cases hu
  | cons a rest ih =>
    intro f hf
    rcases List.mem_cons.mp hu with rfl | hu
    · simp only [recordFindingsFrom, hd]
      exact List.mem_append_left _ hf
    · unfold recordFindingsFrom
      split
      · refine List.mem_append_right _ ?_
        split
        · exact ih hu hf
        · exact List.mem_append_right _ (ih hu hf)
      · exact ih hu hf

theorem recordMember_subset (hs : id ∉ seen) :
    ∃ v, recordMemberFindings d v ⊆ recordFindingsFrom scope seen rest := by
  induction rest generalizing seen with
  | nil => cases hu
  | cons a rest ih =>
    obtain ⟨id', c, u'⟩ := a
    rcases List.mem_cons.mp hu with he | hrest
    · cases he
      refine ⟨u, fun f hf => ?_⟩
      simp only [recordFindingsFrom, hd, if_neg hs]
      exact List.mem_append_right _ (List.mem_append_left _ hf)
    · unfold recordFindingsFrom
      split
      · rename_i d' hd'
        split
        · obtain ⟨v, hv⟩ := ih hrest hs
          exact ⟨v, fun f hf => List.mem_append_right _ (hv hf)⟩
        · -- an earlier use of the same record brings its properties
          by_cases hid : id = id'
          · subst hid
            rw [hd] at hd'
            cases hd'
            exact ⟨u', fun f hf => List.mem_append_right _ (List.mem_append_left _ hf)⟩
          · obtain ⟨v, hv⟩ := ih hrest (List.not_mem_cons_of_ne_of_not_mem hid hs)
            exact ⟨v, fun f hf => List.mem_append_right _ (List.mem_append_right _ (hv hf))⟩
      · exact ih hrest hs

end

theorem recordContract_echoed (scope : Scope) {t : Surface} (h : scope.surface.Within t) :
    Finding.Echoed (recordContractFindings scope) (recordContractFindings { scope with surface := t }) := by
  intro f hf
  obtain ⟨id, d, u, hu, hd, hf⟩ := of_mem_recordFindingsFrom hf
  obtain ⟨i, hi⟩ := h.mem_reached hu
  rcases hf with hf | ⟨hs, hf⟩
  · have hsub : recordUseFindings d { u with interface := i } ⊆ recordContractFindings { scope with surface := t } :=
      recordUse_subset hi hd
    exact ⟨f, hsub hf, rfl, rfl⟩
  · obtain ⟨v, hv⟩ : ∃ v, recordMemberFindings d v ⊆ recordContractFindings { scope with surface := t } :=
      recordMember_subset hi hd hs
    obtain ⟨f', hf', hff'⟩ := Finding.Echoed.flatMap (fun p _ => Finding.echoed_place _ _ _ _ _ v.label) f hf
    exact ⟨f', hv hf', hff'⟩

/-- On a surface with more exposures a rule finds more, up to labels and suggestions. The rules that look into
the memo do not look at the surface. -/
theorem findings_echoed (scope : Scope) {t : Surface} (h : scope.surface.Within t) (r : RuleId) :
    Finding.Echoed (r.findings scope).fresh (r.findings { scope with surface := t }).fresh := by
  cases r with
  | interfaceMarker => exact Finding.echoed_of_subset fun f hf => hf
  | actorContract => exact Finding.echoed_of_subset fun f hf => hf
  | enumMember => exact Finding.echoed_of_subset fun f hf => hf
  | wireName => exact Finding.echoed_of_subset fun f hf => hf
  | complexType => exact complexType_echoed scope h
  | parameterType => exact echoed_flatMap_surface h fun _ _ => rfl
  | resultType => exact echoed_flatMap_surface h fun _ _ => rfl
  | elementType => exact echoed_flatMap_surface h fun _ _ => rfl
  | recordContract => exact recordContract_echoed scope h
  | construction => exact construction_echoed scope h

end RuleId

end ActorAudit
