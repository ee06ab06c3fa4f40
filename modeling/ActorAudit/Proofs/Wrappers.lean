import ActorAudit.Proofs.Ancestry
import ActorAudit.Proofs.Queries

/-!
# Chains of wrappers

Whether a type wraps another one asynchronously does not depend on the memo, so unwrapping follows a fixed
partial function. A chain that ends has no type twice: how far a type is from the end tells the types of the
chain apart. So it is no longer than the graph, and unwrapping has steps enough to come to its end.
-/

namespace ActorAudit

/-- From `x`, exactly `k` steps of a partial function lead to `e`, where it stops. -/
inductive EndsIn (next : TypeId → Option TypeId) : Nat → TypeId → TypeId → Prop
  | here {e} : next e = none → EndsIn next 0 e e
  | step {k x y e} : next x = some y → EndsIn next k y e → EndsIn next (k + 1) x e

namespace EndsIn

variable {next : TypeId → Option TypeId} {k k' : Nat} {x e e' : TypeId}

theorem unique (h : EndsIn next k x e) (h' : EndsIn next k' x e') : k = k' := by
  induction h generalizing k' with
  | here hn =>
    cases h' with
    | here _ => rfl
    | step hs _ => rw [hn] at hs; cases hs
  | step hs _ ih =>
    cases h' with
    | here hn => rw [hs] at hn; cases hn
    | step hs' h' =>
      rw [hs, Option.some.injEq] at hs'
      subst hs'
      rw [ih h']

theorem trail (h : EndsIn next k x e) : ∃ l : List TypeId, l.length = k ∧ l.Nodup ∧
    ∀ y ∈ l, (next y).isSome = true ∧ ∃ j ≤ k, EndsIn next j y e := by
  induction h with
  | here _ => exact ⟨[], rfl, .nil, by simp⟩
  | @step k x y e hs h ih =>
    obtain ⟨l, hl, hn, hall⟩ := ih
    refine ⟨x :: l, by simp [hl], ?_, ?_⟩
    · -- `x` is one step further from the end than everything in the trail
      refine List.nodup_cons.mpr ⟨fun hx => ?_, hn⟩
      obtain ⟨_, j, hj, hxe⟩ := hall x hx
      have := (EndsIn.step hs h).unique hxe
      omega
    · intro z hz
      rcases List.mem_cons.mp hz with rfl | hz
      · exact ⟨by simp [hs], k + 1, Nat.le_refl _, .step hs h⟩
      · obtain ⟨hsome, j, hj, hze⟩ := hall z hz
        exact ⟨hsome, j, by omega, hze⟩

theorem le_size {g : Graph} (hg : ∀ {y}, (next y).isSome = true → g.resolves y = true)
    (h : EndsIn next k x e) : k ≤ g.size := by
  obtain ⟨l, rfl, hn, hall⟩ := h.trail
  exact Graph.length_le_size hn fun y hy => hg (hall y hy).1

/-- Where a chain has no end there is a next step, and behind it there is no end either. -/
theorem exists_next (h : ∀ k e, ¬EndsIn next k x e) : ∃ y, next x = some y ∧ ∀ k e, ¬EndsIn next k y e := by
  cases hy : next x with
  | none => exact absurd (.here hy) (h 0 x)
  | some y => exact ⟨y, rfl, fun k e he => h (k + 1) e (.step hy he)⟩

end EndsIn

namespace Model

variable {m : Model} {id inner : TypeId}

/-! ## What a type wraps -/

def wrapped? (m : Model) (id : TypeId) : Option TypeId :=
  match m.classWith id [] with
  | .asyncWrapper inner => some inner
  | _ => none

theorem ofElement_ne_asyncWrapper (e : Option TypeId) : ofElement e ≠ .asyncWrapper inner := by
  cases e <;> simp [ofElement]

theorem plainClassification_ne_asyncWrapper (d : TypeSymbol) :
    d.plainClassification ≠ .asyncWrapper inner := by
  unfold TypeSymbol.plainClassification
  split <;> simp

/-- Only the branch for wrappers makes a wrapper, and it does not look at interfaces. -/
theorem classWith_eq_asyncWrapper_iff (all all' : List TypeId) :
    m.classWith id all = .asyncWrapper inner ↔ m.classWith id all' = .asyncWrapper inner := by
  unfold classWith
  cases m.graph.get? id with
  | none => simp
  | some d =>
    dsimp only
    split_ifs <;> simp_all [ofElement_ne_asyncWrapper, plainClassification_ne_asyncWrapper]

theorem wrapped?_eq_some_iff (all : List TypeId) :
    m.wrapped? id = some inner ↔ m.classWith id all = .asyncWrapper inner := by
  rw [classWith_eq_asyncWrapper_iff all []]
  unfold wrapped?
  cases m.classWith id [] <;> simp

theorem resolves_of_wrapped? (h : (m.wrapped? id).isSome = true) : m.graph.resolves id = true := by
  obtain ⟨inner, h⟩ := Option.isSome_iff_exists.mp h
  rw [wrapped?_eq_some_iff []] at h
  unfold classWith at h
  unfold Graph.resolves
  cases hd : m.graph.get? id with
  | none => simp [hd] at h
  | some d => rfl

theorem computeClass_of_wrapped? (h : m.wrapped? id = some inner) (memo : Memo) :
    m.computeClass id memo = (.asyncWrapper inner, memo) := by
  rw [wrapped?_eq_some_iff []] at h
  unfold classWith at h
  unfold computeClass
  cases hd : m.graph.get? id with
  | none => simp [hd] at h
  | some d =>
    simp only [hd] at h ⊢
    split_ifs at h ⊢ with h₁ h₂ h₃ h₄ h₅
    · split at h
      · simp at h
      · rename_i hargs
        cases h
        rw [hargs]
        rfl
      · simp at h
    · exact absurd h (ofElement_ne_asyncWrapper _)
    · exact absurd h (ofElement_ne_asyncWrapper _)
    · exact absurd h (plainClassification_ne_asyncWrapper d)

/-! ## Classifications that a memo may hold -/

/-- Every classification in the memo is one that the type has with some list of interfaces. -/
def Sound (m : Model) : Memo → Prop :=
  Memo.Holds (fun _ _ => True) fun id c => ∃ all, c = m.classWith id all

theorem sound_empty : m.Sound .empty := Memo.holds_empty

theorem keeps_interfacesOf_sound (m : Model) (id : TypeId) :
    Query.Keeps m.Sound (m.graph.interfacesOf id) fun _ => True :=
  keeps_interfacesOf (fun _ _ _ _ => trivial) id

theorem keeps_classify_sound (m : Model) (id : TypeId) :
    Query.Keeps m.Sound (m.classify id) fun c => ∃ all, c = m.classWith id all :=
  keeps_classify (keeps_interfacesOf_sound m) (fun _ all _ => ⟨all, rfl⟩) id

theorem classify_of_wrapped? {memo : Memo} (hm : m.Sound memo) (h : m.wrapped? id = some inner) :
    (m.classify id memo).1 = .asyncWrapper inner := by
  obtain ⟨⟨all, hc⟩, _⟩ := keeps_classify_sound m id memo hm
  rw [hc]
  exact (wrapped?_eq_some_iff all).mp h

/-! ## Unwrapping -/

theorem awaitedWithin_of_wrapped? {memo : Memo} (hm : m.Sound memo) (hw : m.wrapped? id = some inner) (steps : Nat) :
    m.awaitedWithin (steps + 1) id memo = m.awaitedWithin steps inner (m.classify id memo).2 := by
  have hc := classify_of_wrapped? hm hw
  simp only [awaitedWithin, bind, StateT.bind]
  generalize m.classify id memo = q at hc ⊢
  obtain ⟨c, memo'⟩ := q
  subst hc
  rfl

/-- Unwrapping a type whose wrappers have no end asks about wrappers only and stops at one. -/
theorem keeps_awaitedWithin_of_endless {I : Memo → Prop} (hI : ∀ {memo}, I memo → m.Sound memo)
    (hc : ∀ {id inner}, m.wrapped? id = some inner → Query.Keeps I (m.classify id) fun _ => True)
    (steps : Nat) (hend : ∀ k e, ¬EndsIn m.wrapped? k id e) :
    Query.Keeps I (m.awaitedWithin steps id) fun t => (m.wrapped? t).isSome = true := by
  induction steps generalizing id with
  | zero =>
    obtain ⟨inner, hw, -⟩ := EndsIn.exists_next hend
    exact .pure (by simp [hw])
  | succ steps ih =>
    obtain ⟨inner, hw, hinner⟩ := EndsIn.exists_next hend
    intro memo hmemo
    rw [awaitedWithin_of_wrapped? (hI hmemo) hw]
    exact ih hinner _ (hc hw memo hmemo).2

end Model

end ActorAudit
