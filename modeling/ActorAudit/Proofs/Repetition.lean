import ActorAudit.Proofs.Queries

/-!
# Asking again

A memo only grows. Once a query has been answered, it gets the same answer from every larger memo and leaves
that memo as it is: `Known memo q a`. So a rule that repeats what was asked for the surface of its actor
class neither sees nor changes anything new.
-/

namespace ActorAudit

/-- What the first memo holds, the second holds too. -/
structure Memo.Sub (memo memo' : Memo) : Prop where
  interfaces : ∀ {id all}, memo.interfaces? id = some all → memo'.interfaces? id = some all
  classes : ∀ {id c}, memo.class? id = some c → memo'.class? id = some c

namespace Memo

theorem Sub.refl (memo : Memo) : memo.Sub memo := ⟨fun h => h, fun h => h⟩

theorem Sub.trans {a b c : Memo} (h : a.Sub b) (h' : b.Sub c) : a.Sub c :=
  ⟨fun hi => h'.interfaces (h.interfaces hi), fun hc => h'.classes (h.classes hc)⟩

theorem Sub.recordInterfaces {a b : Memo} (h : a.Sub b) {id : TypeId} (hn : a.interfaces? id = none)
    (all : List TypeId) : a.Sub (b.recordInterfaces id all) where
  interfaces := by
    intro x l hx
    rw [interfaces?_recordInterfaces]
    split
    · rename_i hid
      rw [hid, hn] at hx
      cases hx
    · exact h.interfaces hx
  classes := h.classes

theorem Sub.recordClass {a b : Memo} (h : a.Sub b) {id : TypeId} (hn : a.class? id = none)
    (c : Classification) : a.Sub (b.recordClass id c) where
  interfaces := h.interfaces
  classes := by
    intro x k hx
    rw [class?_recordClass]
    split
    · rename_i hid
      rw [hid, hn] at hx
      cases hx
    · exact h.classes hx

end Memo

namespace Query

variable {α β : Type}

/-- From every memo that holds what `memo` holds, the answer is `a` and the memo stays as it is. -/
def Known (memo : Memo) (q : Query α) (a : α) : Prop := ∀ memo', memo.Sub memo' → q memo' = (a, memo')

/-- The memo grows, and afterwards the answer is known. -/
def Repeats (q : Query α) : Prop := ∀ memo, memo.Sub (q memo).2 ∧ Known (q memo).2 q (q memo).1

theorem Known.mono {memo memo' : Memo} {q : Query α} {a : α} (h : Known memo q a) (hs : memo.Sub memo') :
    Known memo' q a := fun memo'' hs' => h memo'' (hs.trans hs')

theorem Known.pure {memo : Memo} (a : α) : Known memo (Pure.pure a) a := fun _ _ => rfl

theorem Known.bind {memo : Memo} {q : Query α} {f : α → Query β} {a : α} {b : β} (h : Known memo q a)
    (hf : Known memo (f a) b) : Known memo (q >>= f) b := by
  intro memo' hs
  show f (q memo').1 (q memo').2 = (b, memo')
  rw [h memo' hs]
  exact hf memo' hs

theorem Known.each {memo : Memo} {f : α → Query β} {v : α → β} :
    ∀ {l : List α}, (∀ a ∈ l, Known memo (f a) (v a)) → Known memo (each f l) (l.map v)
  | [], _ => .pure _
  | a :: _, h => (h a List.mem_cons_self).bind
      ((Known.each fun x hx => h x (List.mem_cons_of_mem _ hx)).bind (.pure _))

theorem Known.any {memo : Memo} {p : α → Query Bool} :
    ∀ {l : List α}, (∀ a ∈ l, ∃ b, Known memo (p a) b) → ∃ b, Known memo (any p l) b
  | [], _ => ⟨_, .pure _⟩
  | a :: l, h => by
    obtain ⟨b, hb⟩ := h a List.mem_cons_self
    obtain ⟨c, hc⟩ := Known.any fun x hx => h x (List.mem_cons_of_mem _ hx)
    cases b with
    | true => exact ⟨true, hb.bind (.pure _)⟩
    | false => exact ⟨c, hb.bind hc⟩

theorem Repeats.filter {p : α → Query Bool} (hp : ∀ a, Repeats (p a)) : ∀ (l : List α) (memo : Memo),
    memo.Sub (filter p l memo).2 ∧ ∀ a ∈ l, ∃ b, Known (filter p l memo).2 (p a) b
  | [], memo => ⟨.refl memo, fun a ha => by cases ha⟩
  | a :: l, memo => by
    obtain ⟨hs, hk⟩ := hp a memo
    obtain ⟨hs', hk'⟩ := Repeats.filter hp l (p a memo).2
    refine ⟨hs.trans hs', fun x hx => ?_⟩
    rcases List.mem_cons.mp hx with rfl | hx
    · exact ⟨_, hk.mono hs'⟩
    · exact hk' x hx

end Query

/-! ## Every query repeats -/

theorem Graph.repeats_interfacesOf (g : Graph) (id : TypeId) : Query.Repeats (g.interfacesOf id) := by
  intro memo
  cases h : memo.interfaces? id with
  | some all =>
    rw [interfacesOf_of_known h]
    exact ⟨.refl memo, fun memo' hs => interfacesOf_of_known (hs.interfaces h)⟩
  | none =>
    rw [interfacesOf_of_unknown h]
    refine ⟨(Memo.Sub.refl memo).recordInterfaces h _, fun memo' hs => interfacesOf_of_known (hs.interfaces ?_)⟩
    rw [Memo.interfaces?_recordInterfaces, if_pos rfl]

theorem Model.repeats_classify (m : Model) (id : TypeId) : Query.Repeats (m.classify id) := by
  intro memo
  cases h : memo.class? id with
  | some c =>
    rw [classify_of_known h]
    exact ⟨.refl memo, fun memo' hs => classify_of_known (hs.classes h)⟩
  | none =>
    have hsub : memo.Sub (m.computeClass id memo).2 := by
      have hi : Query.Keeps memo.Sub (m.graph.interfacesOf id) fun _ => True :=
        fun memo' hs => ⟨trivial, hs.trans (m.graph.repeats_interfacesOf id memo').1⟩
      exact (keeps_computeClass hi memo (.refl memo)).2
    rw [classify_of_unknown h]
    refine ⟨hsub.recordClass h _, fun memo' hs => classify_of_known (hs.classes ?_)⟩
    rw [Memo.class?_recordClass, if_pos rfl]

theorem Query.compositional_repeats (m : Model) : Compositional m fun q => Repeats q where
  pure a := fun memo => ⟨.refl memo, .pure a⟩
  bind {_ _ q f} hq hf := by
    intro memo
    obtain ⟨hs, hk⟩ := hq memo
    obtain ⟨hs', hk'⟩ := hf (q memo).1 (q memo).2
    exact ⟨hs.trans hs', (hk.mono hs').bind hk'⟩
  interfacesOf := m.graph.repeats_interfacesOf
  classify := m.repeats_classify

end ActorAudit
