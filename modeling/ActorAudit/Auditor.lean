import ActorAudit.Glob
import ActorAudit.Report.Basic
import ActorAudit.Rule.Finding
import ActorAudit.Settings.Basic

/-!
# Audits

Selects the declarations of a graph, runs the rules over them, and reports what they find. The
declarations of one run share their answers about the graph; each run starts without any.
-/

namespace ActorAudit

structure Auditor where
  rules : List Rule
  excludes : List (List Glob.Token)
  settings : Settings
  threshold : Severity

/-- Why no auditor can be made from settings. -/
inductive BuildError where
  | unknownSeverity (name : String)
  | badPattern (error : Glob.Error)
deriving DecidableEq, Repr

namespace BuildError

def invalidSetting (name : String) : String :=
  s!"Invalid config value: {Severity.unknownMessage name}"

def message : BuildError → String
  | unknownSeverity name => s!"Configuration error: {invalidSetting name}"
  | badPattern e => s!"Invalid glob pattern: {e.message}"

end BuildError

structure Subject where
  id : TypeId
  definition : TypeSymbol
  role : Role

structure Examination where
  scope : Scope
  violations : List Violation

namespace Auditor

/-- An auditor with rules and settings; further exclusion patterns come before those of the
settings. -/
def build (rules : List Rule) (exclude : List String) (settings : Settings) :
    Except BuildError Auditor :=
  match settings.threshold with
  | .error name => .error (.unknownSeverity name)
  | .ok threshold =>
    match Glob.compileAll (exclude ++ settings.audit.exclude) with
    | .error e => .error (.badPattern e)
    | .ok excludes => .ok ⟨rules, excludes, settings, threshold⟩

/-- The rules that are enabled, each with the severity of its findings. -/
def activeRules (a : Auditor) : List Rule :=
  (a.rules.filter fun r => a.settings.isEnabled r.id).map fun r =>
    ⟨r.id, (a.settings.severity? r.id).getD r.severity⟩

/-! ## Selection -/

inductive Omission where
  | dangling
  | generated
  | excluded
deriving DecidableEq, Repr

def isExcluded (a : Auditor) (d : TypeSymbol) : Bool :=
  d.location.any fun l => a.excludes.any fun p => Glob.isMatch p l.file

/-- The definition of a declaration that is checked, or why it is not. -/
def choose (a : Auditor) (g : Graph) (id : TypeId) : Except Omission TypeSymbol :=
  match g.get? id with
  | none => .error .dangling
  | some d =>
    if d.isGenerated && a.settings.audit.excludeGenerated then .error .generated
    else if a.isExcluded d then .error .excluded
    else .ok d

def model (a : Auditor) (g : Graph) : Model := ⟨g, a.settings.framework⟩

/-- The declarations that are checked, in the order of the graph. -/
def select (a : Auditor) (g : Graph) : List Subject :=
  g.declarations.filterMap fun id =>
    match a.choose g id with
    | .ok d => some ⟨id, d, (a.model g).role id d⟩
    | .error _ => none

/-! ## Checking -/

def applyRule (scope : Scope) (r : Rule) : Query (List Violation) := do
  if r.id.appliesTo scope.role then
    let found ← r.id.findings scope
    return found.map (Finding.toViolation r.id r.severity)
  return []

/-- The scope of a declaration; the surface of an actor class is worked out first. -/
def scopeOf (m : Model) (checked : List TypeId) (d : Subject) : Query Scope := do
  let surface ← if d.role = .actorClass then m.surface d.id else pure []
  return ⟨m, d.id, d.definition, d.role, surface, checked⟩

def examine (m : Model) (rules : List Rule) (checked : List TypeId) (d : Subject) :
    Query Examination := do
  let scope ← scopeOf m checked d
  let found ← Query.each (applyRule scope) rules
  return ⟨scope, found.flatten⟩

/-- Runs rules over declarations in a given order, from the answers a memo holds. -/
def examineAll (m : Model) (rules : List Rule) (checked : List TypeId) (ds : List Subject)
    (memo : Memo) : List Examination :=
  (Query.each (examine m rules checked) ds memo).1

def examinationsIn (a : Auditor) (g : Graph) (order : List Subject) : List Examination :=
  examineAll (a.model g) a.activeRules ((a.select g).map (·.id)) order .empty

/-- The report on a graph when its selected declarations are taken in a given order. -/
def auditIn (a : Auditor) (g : Graph) (order : List Subject) : Report :=
  ⟨Violation.settle ((a.examinationsIn g order).flatMap (·.violations)),
    UInt64.ofNat (a.select g).length⟩

def audit (a : Auditor) (g : Graph) : Report := a.auditIn g (a.select g)

end Auditor

end ActorAudit
