import ActorAudit.Proofs.History
import ActorAudit.Proofs.Wrappers
import ActorAudit.Role

/-!
# Ends of chains

Two loops follow a chain of types for one step more than the graph has types: from a wrapper to what it wraps, and
from an array to its elements. A chain that ends is no longer than the graph, so the loops come to its end. A chain
that does not end is longer than the graph somewhere, so it comes back to a type it has been to.
-/

namespace ActorAudit

/-- From `x`, the steps of a partial function lead to a type from which they lead back to it. -/
def Cyclic (next : TypeId → Option TypeId) (x : TypeId) : Prop :=
  ∃ y, Relation.ReflTransGen (fun a b => next a = some b) x y ∧ Relation.TransGen (fun a b => next a = some b) y y

namespace EndsIn

variable {next : TypeId → Option TypeId} {k : Nat} {x y e : TypeId}

theorem stops (h : EndsIn next k x e) : next e = none := by
  induction h with
  | here hn => exact hn
  | step _ _ ih => exact ih

theorem of_reflTransGen (h : EndsIn next k x e) (hxy : Relation.ReflTransGen (fun a b => next a = some b) x y) :
    ∃ j ≤ k, EndsIn next j y e := by
  induction hxy with
  | refl => exact ⟨k, Nat.le_refl k, h⟩
  | tail _ hyz ih =>
    obtain ⟨j, hj, hy⟩ := ih
    cases hy with
    | here hn => rw [hn] at hyz; cases hyz
    | step hs hy =>
      rw [hs, Option.some.injEq] at hyz
      subst hyz
      exact ⟨_, by omega, hy⟩

theorem not_cyclic (h : EndsIn next k x e) : ¬Cyclic next x := by
  rintro ⟨y, hxy, hyy⟩
  obtain ⟨j, -, hy⟩ := h.of_reflTransGen hxy
  obtain ⟨z, hyz, hzy⟩ := Relation.TransGen.head'_iff.mp hyy
  cases hy with
  | here hn => rw [hn] at hyz; cases hyz
  | step hs hz =>
    rw [hs, Option.some.injEq] at hyz
    subst hyz
    -- once round, `y` would be nearer to the end than it is
    obtain ⟨i, hi, hy⟩ := hz.of_reflTransGen hzy
    have := (EndsIn.step hs hz).unique hy
    omega

/-- A chain without end can be followed as far as one likes. -/
theorem exists_trail (h : ∀ k e, ¬EndsIn next k x e) (n : Nat) : ∃ l : List TypeId, l.length = n ∧
    l.Pairwise (Relation.TransGen fun a b => next a = some b) ∧
    ∀ y ∈ l, (next y).isSome = true ∧ Relation.ReflTransGen (fun a b => next a = some b) x y := by
  induction n generalizing x with
  | zero => exact ⟨[], rfl, .nil, by simp⟩
  | succ n ih =>
    obtain ⟨y, hy, hend⟩ := exists_next h
    obtain ⟨l, hl, hp, hall⟩ := ih hend
    refine ⟨x :: l, by simp [hl], List.pairwise_cons.mpr ⟨fun z hz => ?_, hp⟩, ?_⟩
    · exact Relation.TransGen.head' hy (hall z hz).2
    · refine List.forall_mem_cons.mpr ⟨⟨by simp [hy], .refl⟩, fun z hz => ?_⟩
      exact ⟨(hall z hz).1, (hall z hz).2.head hy⟩

theorem cyclic_iff {g : Graph} (hg : ∀ {y}, (next y).isSome = true → g.resolves y = true) :
    Cyclic next x ↔ ∀ k e, ¬EndsIn next k x e := by
  refine ⟨fun hc k e he => he.not_cyclic hc, fun h => ?_⟩
  by_contra hno
  obtain ⟨l, hl, hp, hall⟩ := exists_trail h (g.size + 1)
  have hnodup : l.Nodup := by
    refine hp.imp_of_mem fun {a b} ha _ hab => ?_
    rintro rfl
    exact hno ⟨a, (hall a ha).2, hab⟩
  have := Graph.length_le_size hnodup fun y hy => hg (hall y hy).1
  omega

end EndsIn

/-! ## Wrappers -/

namespace Model

variable {m : Model} {memo : Memo} {id e : TypeId} {k : Nat}

/-- What a type wraps according to its classification. -/
def wrappedFrom? (m : Model) (memo : Memo) (id : TypeId) : Option TypeId :=
  match (m.classify id memo).1 with
  | .asyncWrapper inner => some inner
  | _ => none

theorem wrappedFrom?_eq (hm : m.Sound memo) : m.wrappedFrom? memo = m.wrapped? := by
  funext id
  obtain ⟨⟨all, hc⟩, -⟩ := keeps_classify_sound m id memo hm
  unfold wrappedFrom?
  rw [hc]
  cases hw : m.wrapped? id with
  | some inner => rw [(wrapped?_eq_some_iff all).mp hw]
  | none =>
    split
    · rename_i inner hinner
      rw [(wrapped?_eq_some_iff all).mpr hinner] at hw
      cases hw
    · rfl

theorem isSome_wrapped?_iff (hm : m.Sound memo) :
    (m.wrapped? id).isSome = true ↔ ∃ inner, (m.classify id memo).1 = .asyncWrapper inner := by
  rw [← wrappedFrom?_eq hm, wrappedFrom?]
  cases (m.classify id memo).1 <;> simp

theorem sound_after (m : Model) (qs : List Question) : m.Sound (m.after qs) :=
  after_induction sound_empty (keeps_interfacesOf_sound m)
    (fun id => (keeps_classify_sound m id).mono fun _ _ => trivial) qs

/-- With steps enough, unwrapping comes to the end of the wrappers. -/
theorem keeps_awaitedWithin_of_endsIn (h : EndsIn m.wrapped? k id e) {steps : Nat} (hk : k ≤ steps) :
    Query.Keeps m.Sound (m.awaitedWithin steps id) fun t => t = e := by
  induction h generalizing steps with
  | @here e hn =>
    cases steps with
    | zero => exact .pure rfl
    | succ steps =>
      refine (keeps_classify_sound m e).bind fun c hc => ?_
      obtain ⟨all, rfl⟩ := hc
      cases hw : m.classWith e all with
      | asyncWrapper inner =>
        rw [(wrapped?_eq_some_iff all).mpr hw] at hn
        cases hn
      | _ => exact .pure rfl
  | @step k x y e hs _ ih =>
    obtain ⟨steps, rfl⟩ := Nat.exists_eq_add_one_of_ne_zero (by omega : steps ≠ 0)
    intro memo hm
    rw [awaitedWithin_of_wrapped? hm hs]
    exact ih (by omega) _ (keeps_classify_sound m x memo hm).2

end Model

/-! ## Arrays -/

namespace Graph

variable {g : Graph} {id e : TypeId} {k : Nat}

/-- The element type of an array. -/
def elementOf? (g : Graph) (id : TypeId) : Option TypeId :=
  (g.get? id).bind fun d => if d.kind = .arrayType then d.elementType else none

theorem elementWithin_of_none (h : g.elementOf? id = none) (steps : Nat) : g.elementWithin steps id = (id, "") := by
  cases steps with
  | zero => rfl
  | succ steps =>
    unfold elementOf? at h
    rw [elementWithin]
    split
    · split
      · simp_all
      · rfl
    · rfl

theorem elementWithin_of_some (h : g.elementOf? id = some e) (steps : Nat) : g.elementWithin (steps + 1) id =
    ((g.elementWithin steps e).1, "[]" ++ (g.elementWithin steps e).2) := by
  obtain ⟨d, hd, helement⟩ := Option.bind_eq_some_iff.mp h
  obtain ⟨hk, helement⟩ : d.kind = .arrayType ∧ d.elementType = some e := by simpa using helement
  rw [elementWithin]
  simp only [hd, hk, helement]

theorem elementWithin_of_endsIn (h : EndsIn g.elementOf? k id e) {steps : Nat} (hk : k ≤ steps) :
    g.elementWithin steps id = (e, String.join (List.replicate k "[]")) := by
  induction h generalizing steps with
  | here hn => exact elementWithin_of_none hn steps
  | step hs _ ih =>
    obtain ⟨steps, rfl⟩ := Nat.exists_eq_add_one_of_ne_zero (by omega : steps ≠ 0)
    rw [elementWithin_of_some hs, ih (by omega), List.replicate_succ]
    simp

theorem resolves_of_elementOf? (h : (g.elementOf? id).isSome = true) : g.resolves id = true := by
  unfold elementOf? at h
  unfold resolves
  cases hd : g.get? id with
  | none => simp [hd] at h
  | some d => rfl

theorem shownName_of_endsIn (h : EndsIn g.elementOf? k id e) :
    g.shownName id = (g.get? e).elim "?" (·.name) ++ String.join (List.replicate k "[]") := by
  have hk := h.le_size (g := g) resolves_of_elementOf?
  simp only [shownName, elementWithin_of_endsIn h (by omega : k ≤ g.size + 1), nameAt]
  cases g.get? e <;> rfl

end Graph

namespace Model

/-- The loops never stop too early. Unwrapping gives the first type on the chain of wrappers that is not classified as
one, however long the chain is, and gives a wrapper exactly if the chain goes round. The shown name of a type is the
name of the type at which its chain of arrays ends, with brackets for every array on the way. -/
theorem awaited_shownName_endsIn (m : Model) (qs : List Question) (id : TypeId) :
    (∀ k e, EndsIn (m.wrappedFrom? (m.after qs)) k id e → (m.awaited id (m.after qs)).1 = e) ∧
    ((∃ inner, (m.classify (m.awaited id (m.after qs)).1 (m.after qs)).1 = .asyncWrapper inner) ↔
      Cyclic (m.wrappedFrom? (m.after qs)) id) ∧
    ∀ k e, EndsIn m.graph.elementOf? k id e →
      m.graph.shownName id = (m.graph.get? e).elim "?" (·.name) ++ String.join (List.replicate k "[]") := by
  have hm := sound_after m qs
  have hends : ∀ k e, EndsIn m.wrapped? k id e → (m.awaited id (m.after qs)).1 = e := by
    intro k e he
    have hk := he.le_size (g := m.graph) resolves_of_wrapped?
    exact (keeps_awaitedWithin_of_endsIn he (by omega) _ hm).1
  rw [wrappedFrom?_eq hm]
  refine ⟨hends, ?_, fun k e => Graph.shownName_of_endsIn⟩
  rw [← isSome_wrapped?_iff hm, EndsIn.cyclic_iff (g := m.graph) resolves_of_wrapped?]
  constructor
  · intro hsome k e he
    rw [hends k e he, he.stops] at hsome
    cases hsome
  · intro hend
    exact (keeps_awaitedWithin_of_endless (fun h => h)
      (fun _ => (keeps_classify_sound m _).mono fun _ _ => trivial) _ hend _ hm).1

/-- A wrapper in a wrapper in a wrapper around an array of arrays, the elements of which point nowhere, and a wrapper
that wraps itself. -/
def matryoshka : Graph where
  types := #[
    { name := "Task", inNamespace := some "System.Threading.Tasks", kind := .classType, typeArguments := [⟨2⟩] },
    .arrayOf ⟨3⟩,
    { name := "Task", inNamespace := some "System.Threading.Tasks", kind := .classType, typeArguments := [⟨4⟩] },
    .arrayOf ⟨9⟩,
    { name := "Task", inNamespace := some "System.Threading.Tasks", kind := .classType, typeArguments := [⟨1⟩] },
    { name := "Task", inNamespace := some "System.Threading.Tasks", kind := .classType, typeArguments := [⟨5⟩] }]

example : (awaited ⟨matryoshka, {}⟩ ⟨0⟩).fresh = ⟨1⟩ ∧ (awaited ⟨matryoshka, {}⟩ ⟨5⟩).fresh = ⟨5⟩ := by decide +kernel

example : matryoshka.shownName ⟨1⟩ = "?[][]" := by decide +kernel

end Model

end ActorAudit
