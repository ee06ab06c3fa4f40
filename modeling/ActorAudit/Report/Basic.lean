import ActorAudit.Report.Settle

/-!
# Reports

The result of an audit: the violations, and how many declarations were checked.
-/

namespace ActorAudit

structure Report where
  violations : List Violation
  checked : UInt64
deriving DecidableEq, Repr

namespace Report

def empty : Report := ⟨[], 0⟩

/-- Puts the findings of `b` after those of `a`. -/
def append (a b : Report) : Report := ⟨a.violations ++ b.violations, a.checked + b.checked⟩

instance : Append Report := ⟨append⟩

def bySeverity (r : Report) (s : Severity) : List Violation :=
  r.violations.filter fun v => v.severity = s

def byCode (r : Report) (code : String) : List Violation :=
  r.violations.filter fun v => v.code = code

def count (r : Report) (s : Severity) : Nat := (r.bySeverity s).length

def atLeast (r : Report) (s : Severity) : List Violation :=
  r.violations.filter fun v => s ≤ v.severity

def failsAt (r : Report) (s : Severity) : Bool := r.violations.any fun v => s ≤ v.severity

def hasErrors (r : Report) : Bool := r.violations.any fun v => v.severity = .error

def hasWarnings (r : Report) : Bool := r.failsAt .warning

def tally (r : Report) : String :=
  s!"{r.count .error} error(s), {r.count .warning} warning(s), {r.count .info} info(s) " ++
    s!"in {r.checked} declaration(s)"

/-- The violations at or above a severity in full, and the counts of all. -/
def summary (r : Report) (threshold : Severity) : String :=
  let failing := r.atLeast threshold
  s!"\n=== actor-lint: {failing.length} violation(s) ===\n\n" ++
    String.join (failing.map fun v => v.paragraph ++ "\n") ++
    s!"Total: {r.tally}\n"

end Report

end ActorAudit
