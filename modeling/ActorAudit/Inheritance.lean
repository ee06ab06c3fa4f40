import ActorAudit.Framework
import ActorAudit.Memo

/-!
# Inherited interfaces

`interfacesOf` flattens the interfaces of a type and of its ancestors into one list without
repetition, each interface followed by those it extends. Where an answer is already known for an
interface on the way, by the host or by the memo, it is spliced in instead of walking on.

The walk ends on every graph: a step either finds a type it had not found before, of which there are
only as many as the graph has positions, or it shortens the list of interfaces still to visit.
-/

namespace ActorAudit.Graph

/-- Appends the ids that are neither `self` nor found before. -/
def splice (self : TypeId) (found : List TypeId) : List TypeId → List TypeId
  | [] => found
  | id :: ids =>
    if id = self ∨ id ∈ found then splice self found ids else splice self (found ++ [id]) ids

theorem subset_splice (self : TypeId) (found ids : List TypeId) :
    ∀ x ∈ found, x ∈ splice self found ids := by
  induction ids generalizing found with
  | nil => exact fun x h => h
  | cons id ids ih =>
    intro x hx
    unfold splice
    split
    · exact ih _ x hx
    · exact ih _ x (List.mem_append_left _ hx)

theorem lex_of_le {a b c d : Nat} (h : a ≤ b) (h' : c < d) :
    Prod.Lex (· < ·) (· < ·) (a, c) (b, d) := by
  rcases Nat.lt_or_eq_of_le h with h | rfl
  · exact Prod.Lex.left _ _ h
  · exact Prod.Lex.right _ h'

/-- Walks a list of interfaces still to visit, the next one first. -/
def walk (g : Graph) (memo : Memo) (self : TypeId) (found : List TypeId) : List TypeId → List TypeId
  | [] => found
  | next :: rest =>
    if _hn : next = self ∨ next ∈ found then walk g memo self found rest
    else
      match memo.interfaces? next with
      | some known => walk g memo self (splice self (found ++ [next]) known) rest
      | none =>
        match _hd : g.get? next with
        | none => walk g memo self (found ++ [next]) rest
        | some d =>
          match d.flattened with
          | some known => walk g memo self (splice self (found ++ [next]) known) rest
          | none => walk g memo self (found ++ [next]) (d.interfaces ++ rest)
termination_by stack => (g.unseen found, stack.length)
decreasing_by
  · exact Prod.Lex.right _ (by simp)
  · exact lex_of_le (unseen_mono fun x h => subset_splice _ _ _ x (List.mem_append_left _ h)) (by simp)
  · exact lex_of_le (unseen_mono fun x h => List.mem_append_left _ h) (by simp)
  · exact lex_of_le (unseen_mono fun x h => subset_splice _ _ _ x (List.mem_append_left _ h)) (by simp)
  · exact Prod.Lex.left _ _ (unseen_lt (fun _ h => List.mem_append_left _ h) _hd
      (fun h => _hn (.inr h)) (by simp))

/-- All interfaces of a type, worked out with the help of earlier answers. -/
def flatten (g : Graph) (memo : Memo) (id : TypeId) : List TypeId :=
  match g.get? id with
  | none => []
  | some d =>
    match d.flattened with
    | some all => all
    | none => g.walk memo id [] ((g.lineage id).flatMap fun (_, owner) => owner.interfaces)

/-- All interfaces of a type, in the order they are first met. -/
def interfacesOf (g : Graph) (id : TypeId) : Query (List TypeId) := do
  let memo ← get
  match memo.interfaces? id with
  | some all => return all
  | none =>
    let all := g.flatten memo id
    set (memo.recordInterfaces id all)
    return all

end ActorAudit.Graph

namespace ActorAudit.Model

def isMarked (m : Model) (id : TypeId) : Query Bool := do
  let all ← m.graph.interfacesOf id
  return all.any m.isMarker

end ActorAudit.Model
