import ActorAudit.Framework
import ActorAudit.Rule.Basic

/-!
# Settings

What a configuration file can set.
-/

namespace ActorAudit

structure RuleSettings where
  enabled : Option Bool := none
  severity : Option Severity := none
deriving DecidableEq, Repr

structure AuditSettings where
  /-- Patterns on the files of declarations that are left out. -/
  exclude : List String := []
  excludeGenerated : Bool := true
  concurrent : Bool := true
  parallelism : Option UInt64 := none
deriving DecidableEq, Repr

structure Settings where
  preset : Option String := none
  /-- The least severity that fails a run. -/
  failOn : Option String := none
  audit : AuditSettings := {}
  framework : Framework := {}
  /-- The settings of rules under their names or codes. -/
  rules : List (String × RuleSettings) := []
deriving DecidableEq, Repr

namespace Settings

/-- The settings of a rule, under its name before its code. -/
def lookup? (s : Settings) (name code : String) : Option RuleSettings :=
  (s.rules.lookup name).or (s.rules.lookup code)

def rule? (s : Settings) (r : RuleId) : Option RuleSettings := s.lookup? r.name r.code

def isEnabled (s : Settings) (r : RuleId) : Bool :=
  match s.rule? r with
  | some block => block.enabled.getD true
  | none => true

def severity? (s : Settings) (r : RuleId) : Option Severity := (s.rule? r).bind (·.severity)

/-- The threshold of a failing run: `error` unless set. -/
def threshold (s : Settings) : Except String Severity :=
  match s.failOn with
  | none => .ok .error
  | some name => Severity.ofName name

end Settings

end ActorAudit
