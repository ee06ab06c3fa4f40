import ActorAudit.Symbol.Graph

/-!
# The actor framework

The identities of the framework types that mark a class as an actor, an interface as a contract and a
result as asynchronous; and a graph together with them.
-/

namespace ActorAudit

structure Framework where
  actorBase : QualifiedName := ⟨"Actor", "Dapr.Actors.Runtime"⟩
  marker : QualifiedName := ⟨"IActor", "Dapr.Actors"⟩
  asyncWrapper : QualifiedName := ⟨"Task", "System.Threading.Tasks"⟩
  contractSuffix : String := "Actor"
deriving DecidableEq, Repr

/-- A symbol graph read against a framework. -/
structure Model where
  graph : Graph
  framework : Framework

namespace Model

/-- Whether an id is the marker interface of contracts. -/
def isMarker (m : Model) (id : TypeId) : Bool :=
  (m.graph.get? id).any fun d => d.is m.framework.marker

def isActor (m : Model) (id : TypeId) : Bool :=
  (m.graph.ancestors id).any fun (_, d) => d.is m.framework.actorBase

end Model

end ActorAudit
