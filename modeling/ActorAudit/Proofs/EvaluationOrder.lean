import ActorAudit.Proofs.Settling
import ActorAudit.Proofs.Surfaces

/-!
# The order of declarations

The declarations of a run share one memo, so what is worked out for one of them may depend on those before
it. On a well-formed graph the identities of its findings do not: a rule gives the same answer from every
memo, and the scope it looks at changes in the `interface` of exposures only. A report settles a set of
identities, so the order in which declarations are taken does not show in it.
-/

namespace ActorAudit

/-! ## Identities of findings -/

theorem Finding.Echoed.covered {fs gs : List Finding} (h : Echoed fs gs) (r : RuleId) (severity : Severity) :
    Violation.Covered (fs.map (toViolation r severity)) (gs.map (toViolation r severity)) := by
  intro v hv
  obtain ⟨f, hf, rfl⟩ := List.mem_map.mp hv
  obtain ⟨f', hf', hl, ha⟩ := h f hf
  refine ⟨_, List.mem_map.mpr ⟨f', hf', rfl⟩, ?_⟩
  simp [Violation.sameIdentity, toViolation, Location.same, hl, ha]

namespace Violation

theorem Covered.trans {us vs ws : List Violation} (h : Covered us vs) (h' : Covered vs ws) :
    Covered us ws := by
  intro u hu
  obtain ⟨v, hv, huv⟩ := h u hu
  obtain ⟨w, hw, hvw⟩ := h' v hv
  exact ⟨w, hw, sameIdentity_trans huv hvw⟩

theorem Covered.flatMap {α β : Type} {R : α → β → Prop} {k : α → List Violation} {k' : β → List Violation}
    (hk : ∀ a b, R a b → Covered (k a) (k' b)) {l : List α} {l' : List β} (h : List.Forall₂ R l l') :
    Covered (l.flatMap k) (l'.flatMap k') := by
  induction h with
  | nil => intro v hv; cases hv
  | cons hab _ ih =>
    intro v hv
    rcases List.mem_append.mp hv with hv | hv
    · obtain ⟨w, hw, hvw⟩ := hk _ _ hab v hv
      exact ⟨w, List.mem_append_left _ hw, hvw⟩
    · obtain ⟨w, hw, hvw⟩ := ih v hv
      exact ⟨w, List.mem_append_right _ hw, hvw⟩

end Violation

/-! ## Rules from any memo -/

namespace RuleId

section
variable {scope : Scope} (hg : scope.model.graph.WellFormed)
include hg

theorem steady_isUnmarkedContract (id : TypeId) :
    Query.Steady scope.model.Right (scope.model.isUnmarkedContract id) := by
  unfold Model.isUnmarkedContract
  cases scope.model.graph.get? id with
  | none => exact .pure _
  | some d =>
    dsimp only
    split
    · exact .bind Model.right_empty (Model.steady_isMarked hg id) fun _ => .pure _
    · exact .pure _

theorem steady_interfaceMarkerFindings :
    Query.Steady scope.model.Right (interfaceMarkerFindings scope) := by
  unfold interfaceMarkerFindings
  dsimp only
  split
  · refine .bind Model.right_empty (steady_isUnmarkedContract hg _) fun b => ?_
    split <;> exact .pure _
  · have h := Query.Steady.filter (l := scope.definition.interfaces.filter fun i => !scope.checked.contains i)
      fun i _ => steady_isUnmarkedContract hg i
    exact .bind Model.right_empty (h.eq_fresh Model.right_empty) fun _ => .pure _

theorem steady_actorContractFindings :
    Query.Steady scope.model.Right (actorContractFindings scope) := by
  -- the interfaces may come in any order, which does not show in whether one of them is marked
  have h : Query.Keeps scope.model.Right
      (scope.model.graph.interfacesOf scope.id >>= Query.any scope.model.isMarked) fun b =>
      b = true ↔ ∃ x, (x ≠ scope.id ∧ scope.model.graph.Inherits scope.id x) ∧
        (scope.model.isMarked x).fresh = true := by
    refine (Model.keeps_interfacesOf_of_wellFormed hg scope.id).bind fun all hall => ?_
    refine (Query.Steady.any fun x _ => Model.steady_isMarked hg x).mono ?_
    rintro b rfl
    rw [List.any_eq_true]
    simp only [hall _]
  unfold actorContractFindings
  rw [← bind_assoc]
  refine .bind Model.right_empty (h.steady_bool Model.right_empty) fun b => ?_
  cases b <;> exact .pure _

theorem steady_findings (r : RuleId) : Query.Steady scope.model.Right (r.findings scope) := by
  cases r with
  | interfaceMarker => exact steady_interfaceMarkerFindings hg
  | actorContract => exact steady_actorContractFindings hg
  | _ => exact .pure _

end

end RuleId

namespace Auditor

theorem steady_applyRule (scope : Scope) (hg : scope.model.graph.WellFormed) (r : Rule) :
    Query.Steady scope.model.Right (applyRule scope r) := by
  unfold applyRule
  split
  · exact .bind Model.right_empty (RuleId.steady_findings hg r.id) fun _ => .pure _
  · exact .pure _

theorem applyRule_covered (scope : Scope) {t : Surface} (h : scope.surface.Within t) (r : Rule) :
    Violation.Covered (applyRule scope r).fresh (applyRule { scope with surface := t } r).fresh := by
  unfold applyRule
  dsimp only
  split
  · exact (RuleId.findings_echoed scope h r.id).covered r.id r.severity
  · exact Violation.covered_of_subset fun v hv => hv

/-! ## Declarations from any memo -/

def violationsIn (rules : List Rule) (scope : Scope) : List Violation :=
  rules.flatMap fun r => (applyRule scope r).fresh

theorem violationsIn_covered (rules : List Rule) (scope : Scope) {t : Surface} (h : scope.surface.Within t) :
    Violation.Covered (violationsIn rules scope) (violationsIn rules { scope with surface := t }) :=
  Violation.Covered.flatMap (R := Eq) (by rintro r _ rfl; exact applyRule_covered scope h r)
    (List.forall₂_same.mpr fun _ _ => rfl)

theorem scopeOf_frame (m : Model) (checked : List TypeId) (d : Subject) (memo : Memo) :
    (scopeOf m checked d memo).1.model = m ∧ (scopeOf m checked d memo).1.id = d.id ∧
      (scopeOf m checked d memo).1.role = d.role := by
  unfold scopeOf
  split <;> exact ⟨rfl, rfl, rfl⟩

section
variable {m : Model} (hg : m.graph.WellFormed) (rules : List Rule) (checked : List TypeId)
include hg

theorem keeps_scopeOf (d : Subject) : Query.Keeps m.Right (scopeOf m checked d) fun scope =>
    ∃ s : Surface, scope = { (scopeOf m checked d).fresh with surface := s } ∧
      s.Within (scopeOf m checked d).fresh.surface ∧
      Surface.Within (scopeOf m checked d).fresh.surface s := by
  unfold scopeOf
  split
  · exact (Model.keeps_surface hg d.id).bind fun s hs => .pure ⟨s, rfl, hs⟩
  · exact .pure ⟨[], rfl, .refl [], .refl []⟩

/-- What is found about a declaration from any memo is what its rules find on a surface like the one it has
from scratch. -/
theorem keeps_violations (d : Subject) : Query.Keeps m.Right (examine m rules checked d) fun e =>
    ∃ s : Surface, e.violations = violationsIn rules { (scopeOf m checked d).fresh with surface := s } ∧
      s.Within (scopeOf m checked d).fresh.surface ∧
      Surface.Within (scopeOf m checked d).fresh.surface s := by
  refine (keeps_scopeOf hg checked d).bind ?_
  rintro scope ⟨s, rfl, hs⟩
  have hmodel : (scopeOf m checked d).fresh.model = m := (scopeOf_frame m checked d .empty).1
  -- from here on the scope is fixed but for its surface, and every rule is steady on it
  generalize (scopeOf m checked d).fresh = scope at *
  subst hmodel
  have hsteady : ∀ r, Query.Steady scope.model.Right (applyRule { scope with surface := s } r) :=
    steady_applyRule { scope with surface := s } hg
  refine (Query.Keeps.each_map fun r _ => hsteady r).bind ?_
  rintro found rfl
  exact .pure ⟨s, (List.flatMap_def ..).symm, hs⟩

theorem keeps_examine (d : Subject) : Query.Keeps m.Right (examine m rules checked d) fun e =>
    Violation.Covered e.violations (violationsIn rules (scopeOf m checked d).fresh) ∧
    Violation.Covered (violationsIn rules (scopeOf m checked d).fresh) e.violations := by
  refine (keeps_violations hg rules checked d).mono ?_
  rintro e ⟨s, he, hs, hs'⟩
  rw [he]
  exact ⟨violationsIn_covered rules { (scopeOf m checked d).fresh with surface := s } hs,
    violationsIn_covered rules _ hs'⟩

theorem examineAll_covered (ds : List Subject) :
    Violation.Covered ((examineAll m rules checked ds .empty).flatMap (·.violations))
      (ds.flatMap fun d => violationsIn rules (scopeOf m checked d).fresh) ∧
    Violation.Covered (ds.flatMap fun d => violationsIn rules (scopeOf m checked d).fresh)
      ((examineAll m rules checked ds .empty).flatMap (·.violations)) := by
  have h := (Query.Keeps.each (fun d (_ : d ∈ ds) => keeps_examine hg rules checked d) _ Model.right_empty).1
  exact ⟨Violation.Covered.flatMap (fun _ _ h => h.1) h.flip, Violation.Covered.flatMap (fun _ _ h => h.2) h⟩

end

/-! ## Runs -/

/-- On a well-formed graph, the order in which the selected declarations are checked changes neither how many
there are nor the sequence of the identities that are reported. -/
theorem auditIn_of_perm (a : Auditor) {g : Graph} (hg : g.WellFormed) {order : List Subject}
    (h : order.Perm (a.select g)) :
    (a.auditIn g order).checked = (a.audit g).checked ∧
    List.Forall₂ (fun v w => v.sameIdentity w = true) (a.auditIn g order).violations
      (a.audit g).violations := by
  refine ⟨rfl, ?_⟩
  have hrun := examineAll_covered (m := a.model g) hg a.activeRules ((a.select g).map (·.id))
  have hperm := h.flatMap_right fun d =>
    violationsIn a.activeRules (scopeOf (a.model g) ((a.select g).map (·.id)) d).fresh
  refine Violation.settle_of_covered ?_ ?_
  · exact ((hrun order).1.trans (Violation.covered_of_subset hperm.subset)).trans (hrun (a.select g)).2
  · exact ((hrun (a.select g)).1.trans (Violation.covered_of_subset hperm.symm.subset)).trans (hrun order).2

/-- In the other order the actor of the ring has its method through the other contract. -/
theorem auditIn_reverse_ring :
    let a : Auditor := ⟨Rule.all, [], {}, .error⟩
    Graph.ring.WellFormed ∧ (a.select Graph.ring).reverse.Perm (a.select Graph.ring) ∧
    (a.auditIn Graph.ring (a.select Graph.ring).reverse).checked = (a.audit Graph.ring).checked ∧
    List.Forall₂ (fun v w => v.sameIdentity w = true)
      (a.auditIn Graph.ring (a.select Graph.ring).reverse).violations (a.audit Graph.ring).violations :=
  ⟨Graph.ring_wellFormed, List.reverse_perm _, auditIn_of_perm _ Graph.ring_wellFormed (List.reverse_perm _)⟩

end Auditor

end ActorAudit
