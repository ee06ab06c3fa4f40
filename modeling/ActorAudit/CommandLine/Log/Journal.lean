import ActorAudit.Auditor
import ActorAudit.CommandLine.Log.Basic

/-!
# The log of an audit

What an audit tells: how much it looks at, what it passes over, and what it checks.
-/

namespace ActorAudit.Auditor

open Log (Line)

def told (level : Log.Level) (text : String) : Line := ⟨level, .audit, text⟩

def omissionLine (g : Graph) (id : TypeId) : Omission → Line
  | .dangling => told .warn s!"Declaration {id.text} does not resolve to a type; skipping"
  | .generated => told .debug s!"Skipping generated declaration: {nameIn id}"
  | .excluded => told .debug s!"Excluding: {nameIn id}"
where
  nameIn (id : TypeId) : String :=
    match g.get? id with
    | some d => d.fullName
    | none => ""

def examinationLines (a : Auditor) (e : Examination) : List Line :=
  told .debug s!"Checking {e.scope.definition.fullName} as {e.scope.role.name}" ::
    (a.activeRules.filter fun r => r.id.appliesTo e.scope.role).flatMap fun r =>
      (r.id.remarks e.scope).map fun remark => ⟨.debug, .contracts, remark⟩

def journal (a : Auditor) (g : Graph) : List Line :=
  let report := a.audit g
  [told .info (s!"Starting analysis of {g.declarations.length} declaration(s) " ++
      s!"over {g.size} type(s)")] ++
    g.danglingMentions.map (fun (owner, target) =>
      told .warn s!"Type {owner.text} references unknown type {target.text}") ++
    (a.rules.filter fun r => !a.settings.isEnabled r.id).map (fun r =>
      told .debug s!"Skipping disabled rule: {r.id.name}") ++
    g.declarations.filterMap (fun id =>
      match a.choose g id with
      | .ok _ => none
      | .error o => some (omissionLine g id o)) ++
    (a.examinationsIn g (a.select g)).flatMap a.examinationLines ++
    [told .info (s!"Analysis complete: {report.violations.length} violations " ++
      s!"in {report.checked} declarations")]

end ActorAudit.Auditor
