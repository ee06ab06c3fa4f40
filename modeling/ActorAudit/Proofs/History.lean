import ActorAudit.Proofs.Queries
import ActorAudit.Proofs.Reachability

/-!
# Earlier questions

`Model.after m qs` is the memo that the questions `qs` leave behind, asked one after the other from
scratch. On a well-formed graph the interfaces of a type are those that can be reached, whatever was asked
before.
-/

namespace ActorAudit

inductive Question where
  | interfaces (id : TypeId)
  | marked (id : TypeId)
  | classification (id : TypeId)
  | awaited (id : TypeId)
  | surface (id : TypeId)
deriving DecidableEq, Repr

namespace Model

def ask (m : Model) : Question → Query Unit
  | .interfaces id => m.graph.interfacesOf id >>= fun _ => pure ()
  | .marked id => m.isMarked id >>= fun _ => pure ()
  | .classification id => m.classify id >>= fun _ => pure ()
  | .awaited id => m.awaited id >>= fun _ => pure ()
  | .surface id => m.surface id >>= fun _ => pure ()

/-- The memo after a list of questions. -/
def after (m : Model) (qs : List Question) : Memo := (Query.each m.ask qs .empty).2

end Model

theorem Query.Compositional.ask {m : Model} {T : ∀ {α : Type}, Query α → Prop} (h : Compositional m @T) :
    ∀ q, T (m.ask q)
  | .interfaces id => h.bind (h.interfacesOf id) fun _ => h.pure _
  | .marked id => h.bind (h.isMarked id) fun _ => h.pure _
  | .classification id => h.bind (h.classify id) fun _ => h.pure _
  | .awaited id => h.bind (h.awaitedWithin _ id) fun _ => h.pure _
  | .surface id => h.bind (h.surface id) fun _ => h.pure _

namespace Model

theorem after_induction {m : Model} {I : Memo → Prop} (h₀ : I .empty)
    (hi : ∀ id, Query.Keeps I (m.graph.interfacesOf id) fun _ => True)
    (hc : ∀ id, Query.Keeps I (m.classify id) fun _ => True) (qs : List Question) : I (m.after qs) := by
  have h := Query.compositional_keeps hi hc
  exact (h.each h.ask qs .empty h₀).2

/-! ## Well-formed graphs -/

variable {m : Model}

/-- A memo for a well-formed graph: lists hold what is inherited, classifications are those from
scratch. -/
def Right (m : Model) : Memo → Prop :=
  Memo.Holds m.graph.Flat fun id c => c = m.classWith id (m.graph.flatten .empty id)

theorem right_empty : m.Right .empty := Memo.holds_empty

section
variable (hg : m.graph.WellFormed)
include hg

theorem keeps_interfacesOf_of_wellFormed (id : TypeId) :
    Query.Keeps m.Right (m.graph.interfacesOf id) (m.graph.Flat id) :=
  keeps_interfacesOf (fun _ id hI _ => hg.flat_flatten hI.interfaces id) id

theorem keeps_classify_of_wellFormed (id : TypeId) : Query.Keeps m.Right (m.classify id) fun c =>
    c = m.classWith id (m.graph.flatten .empty id) := by
  refine keeps_classify (keeps_interfacesOf_of_wellFormed hg) (fun id all hall => ?_) id
  exact m.classWith_congr id fun x => (hall x).trans (hg.flat_fresh id x).symm

theorem steady_classify_of_wellFormed (id : TypeId) : Query.Steady m.Right (m.classify id) :=
  (keeps_classify_of_wellFormed hg id).eq_fresh right_empty

theorem right_after (qs : List Question) : m.Right (m.after qs) :=
  after_induction right_empty
    (fun id => (keeps_interfacesOf_of_wellFormed hg id).mono fun _ _ => trivial)
    (fun id => (steady_classify_of_wellFormed hg id).mono fun _ _ => trivial) qs

theorem keeps_isMarked_of_wellFormed (id : TypeId) : Query.Keeps m.Right (m.isMarked id) fun b =>
    b = true ↔ ∃ x, x ≠ id ∧ m.graph.Inherits id x ∧ m.isMarker x = true := by
  refine (keeps_interfacesOf_of_wellFormed hg id).bind fun all hall => .pure ?_
  rw [List.any_eq_true]
  simp only [hall _, and_assoc]

end

theorem isMarker_iff {x : TypeId} : m.isMarker x = true ↔
    ∃ d, m.graph.get? x = some d ∧ d.name = m.framework.marker.name ∧
      d.inNamespace = some m.framework.marker.inNamespace := by
  unfold isMarker TypeSymbol.is
  cases m.graph.get? x <;> simp

/-- On a well-formed graph, flattening is reachability: after any questions, the interfaces of a type are
the other ids that can be reached from its own interfaces and those of its ancestors, and it is marked when
the marker is one of them. -/
theorem mem_interfacesOf_after_iff (hg : m.graph.WellFormed) (qs : List Question) (id : TypeId) :
    (∀ x, x ∈ (m.graph.interfacesOf id (m.after qs)).1 ↔ x ≠ id ∧ m.graph.Inherits id x) ∧
    ((m.isMarked id (m.after qs)).1 = true ↔
      ∃ x, x ≠ id ∧ m.graph.Inherits id x ∧
        ∃ d, m.graph.get? x = some d ∧ d.name = m.framework.marker.name ∧
          d.inNamespace = some m.framework.marker.inNamespace) := by
  have hr := right_after hg qs
  refine ⟨(keeps_interfacesOf_of_wellFormed hg id _ hr).1, ?_⟩
  refine (keeps_isMarked_of_wellFormed hg id _ hr).1.trans ?_
  simp only [isMarker_iff]

/-- The actor of the ring inherits the marker through the cycle, also when an interface of the cycle is
remembered. -/
theorem mem_interfacesOf_after_ring :
    Graph.ring.WellFormed ∧
    (∀ x, x ∈ (Graph.ring.interfacesOf ⟨4⟩ (after ⟨Graph.ring, {}⟩ [.interfaces ⟨2⟩, .marked ⟨1⟩])).1 ↔
      x ≠ ⟨4⟩ ∧ Graph.ring.Inherits ⟨4⟩ x) ∧
    ((isMarked ⟨Graph.ring, {}⟩ ⟨4⟩ (after ⟨Graph.ring, {}⟩ [.interfaces ⟨2⟩, .marked ⟨1⟩])).1 = true ↔
      ∃ x, x ≠ ⟨4⟩ ∧ Graph.ring.Inherits ⟨4⟩ x ∧
        ∃ d, Graph.ring.get? x = some d ∧ d.name = "IActor" ∧ d.inNamespace = some "Dapr.Actors") :=
  ⟨Graph.ring_wellFormed, mem_interfacesOf_after_iff (m := ⟨Graph.ring, {}⟩) Graph.ring_wellFormed _ _⟩

end Model

end ActorAudit
