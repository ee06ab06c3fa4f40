import ActorAudit.Violation

/-!
# Collected findings

`settle` sorts the violations of a run and keeps one of each identity. The sort is stable, and it
brings equal identities together with the least labels first, so the one that is kept has the least
labels and was the first of those to be reported.
-/

namespace ActorAudit.Violation

/-- Drops every violation that says the same as the last one kept. -/
def squash : List Violation → List Violation
  | [] => []
  | v :: vs =>
    match squash vs with
    | [] => [v]
    | w :: ws => if v.sameIdentity w then v :: ws else v :: w :: ws

def sorted (vs : List Violation) : List Violation :=
  vs.mergeSort fun a b => (order a b).isLE

def settle (vs : List Violation) : List Violation := squash (sorted vs)

end ActorAudit.Violation
