/-!
# Severities

How serious a finding is: `info < warning < error`.
-/

namespace ActorAudit

inductive Severity where
  | info
  | warning
  | error
deriving DecidableEq, Repr

namespace Severity

def rank : Severity → Nat
  | info => 0
  | warning => 1
  | error => 2

instance : LE Severity := ⟨fun a b => a.rank ≤ b.rank⟩

instance (a b : Severity) : Decidable (a ≤ b) := inferInstanceAs (Decidable (a.rank ≤ b.rank))

def name : Severity → String
  | info => "info"
  | warning => "warning"
  | error => "error"

/-- The severity with a name, whatever the case of its ASCII letters; `warn` is short for `warning`.
A name that is none is given back in lower case. -/
def ofName (s : String) : Except String Severity :=
  match s.map Char.toLower with
  | "info" => .ok info
  | "warning" => .ok warning
  | "warn" => .ok warning
  | "error" => .ok error
  | other => .error other

def unknownMessage (name : String) : String := s!"unknown severity `{name}`"

end Severity

end ActorAudit
