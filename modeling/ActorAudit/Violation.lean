import ActorAudit.Location
import ActorAudit.Severity

/-!
# Violations

A finding of a rule at a place, with labels for further places and a suggestion.
-/

namespace ActorAudit

structure Label where
  location : Location
  message : String
deriving DecidableEq, Repr

instance : Ord Label := ⟨compareLex (compareOn Label.location) (compareOn Label.message)⟩

structure Violation where
  code : String
  rule : String
  severity : Severity
  location : Location
  message : String
  suggestion : Option String
  labels : List Label
deriving DecidableEq, Repr

namespace Violation

/-- Whether two violations say the same: the code, the place and the message agree. -/
def sameIdentity (a b : Violation) : Bool :=
  a.code == b.code && a.location.same b.location && a.message == b.message

/-- The order of a report: place, code, message, labels. -/
def order : Violation → Violation → Ordering :=
  compareLex (compareOn location)
    (compareLex (compareOn code) (compareLex (compareOn message) (compareOn labels)))

def line (v : Violation) : String :=
  s!"{v.location.text}: {v.severity.name} [{v.code}] {v.message}"

def paragraph (v : Violation) : String :=
  s!"{v.code} {v.rule} at {v.location.text}\n  {v.severity.name}: {v.message}\n" ++
    String.join (v.labels.map fun l => s!"  --> {l.location.text}: {l.message}\n") ++
    (match v.suggestion with
      | some s => s!"  = help: {s}\n"
      | none => "")

def headline (v : Violation) : String := s!"{v.message} ({v.location.text})"

end Violation

/-- What is left of a violation where it is drawn. -/
structure Diagnostic where
  code : String
  message : String
  severity : Severity
  help : Option String
deriving DecidableEq, Repr

def Violation.diagnostic (v : Violation) : Diagnostic := ⟨v.code, v.headline, v.severity, v.suggestion⟩

end ActorAudit
