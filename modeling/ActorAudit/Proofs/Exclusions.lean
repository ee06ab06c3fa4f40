import ActorAudit.Proofs.EvaluationOrder
import ActorAudit.Proofs.MirroredRuns

/-!
# Leaving declarations out

What is found about a declaration does not depend on which others are checked, with one exception: an actor
class answers for the contracts it lists that are not checked themselves. So checking fewer declarations takes
findings away, and moves the one about a contract that is left out to the classes that list it.
-/

namespace ActorAudit

/-! ## One declaration among others -/

namespace RuleId

theorem recordFindingsFrom_checked (scope : Scope) (checked : List TypeId) (seen : List TypeId)
    (rest : List (TypeId × Classification × Exposure)) :
    recordFindingsFrom { scope with checked := checked } seen rest = recordFindingsFrom scope seen rest := by
  induction rest generalizing seen with
  | nil => rfl
  | cons p rest ih =>
    unfold recordFindingsFrom
    simp only [ih]

/-- Only `interfaceMarker` asks which declarations are checked. -/
theorem findings_checked {r : RuleId} (hr : r ≠ .interfaceMarker) (scope : Scope) (checked : List TypeId) :
    r.findings { scope with checked := checked } = r.findings scope := by
  cases r with
  | interfaceMarker => exact absurd rfl hr
  | recordContract => exact congrArg pure (recordFindingsFrom_checked scope checked [] _)
  | _ => rfl

theorem kind_of_isUnmarkedContract {m : Model} {id : TypeId} (h : (m.isUnmarkedContract id).fresh = true) :
    ∃ d, m.graph.get? id = some d ∧ d.kind = .interfaceType := by
  unfold Model.isUnmarkedContract at h
  cases hd : m.graph.get? id with
  | none =>
    rw [hd] at h
    cases h
  | some d =>
    refine ⟨d, rfl, ?_⟩
    rw [hd] at h
    dsimp only at h
    split at h
    · rename_i hcond
      simp only [Bool.and_eq_true, decide_eq_true_eq] at hcond
      exact hcond.1.1
    · cases h

section
variable {scope : Scope} (hg : scope.model.graph.WellFormed)
include hg

theorem fresh_interfaceMarkerFindings (hrole : scope.role ≠ .interface) :
    (interfaceMarkerFindings scope).fresh =
      ((scope.definition.interfaces.filter fun i => !scope.checked.contains i).filter fun i =>
        (scope.model.isUnmarkedContract i).fresh).flatMap fun i =>
        match scope.model.graph.get? i with
        | none => []
        | some e =>
          Finding.place scope.definition.location [e.name] (markerAdvice scope e.name)
            (e.location.toList.map fun l => ⟨l, "declared here"⟩) := by
  have hfilter := (Query.Steady.filter
    (l := scope.definition.interfaces.filter fun i => !scope.checked.contains i)
    fun i _ => steady_isUnmarkedContract hg i) _ Model.right_empty
  unfold interfaceMarkerFindings
  simp only [if_neg hrole]
  rw [← hfilter.1]
  rfl

/-- With other declarations checked, a class has findings about the same contracts and about those that are no
longer checked. -/
theorem mem_interfaceMarkerFindings (hrole : scope.role ≠ .interface) {checked : List TypeId} {f : Finding}
    (hf : f ∈ (interfaceMarkerFindings { scope with checked := checked }).fresh) :
    f ∈ (interfaceMarkerFindings scope).fresh ∨
    ∃ i ∈ scope.definition.interfaces, i ∈ scope.checked ∧ i ∉ checked ∧
      ∃ e, scope.model.graph.get? i = some e ∧ e.kind = .interfaceType ∧
        scope.definition.location = some f.location ∧ f.arguments = [e.name] := by
  have hg' : ({ scope with checked := checked } : Scope).model.graph.WellFormed := hg
  rw [fresh_interfaceMarkerFindings hg' hrole] at hf
  obtain ⟨i, hi, hf⟩ := List.mem_flatMap.mp hf
  obtain ⟨hi, hunmarked⟩ := List.mem_filter.mp hi
  replace hunmarked : (scope.model.isUnmarkedContract i).fresh = true := hunmarked
  obtain ⟨hi, hchecked⟩ := List.mem_filter.mp hi
  by_cases hmem : i ∈ scope.checked
  · right
    obtain ⟨e, he, hkind⟩ := kind_of_isUnmarkedContract hunmarked
    refine ⟨i, hi, hmem, by simpa using hchecked, e, he, hkind, ?_⟩
    dsimp only at hf
    rw [he] at hf
    obtain ⟨l, hl, hf⟩ := List.mem_map.mp hf
    rw [← hf]
    exact ⟨Option.mem_toList.mp hl, rfl⟩
  · left
    rw [fresh_interfaceMarkerFindings hg hrole]
    refine List.mem_flatMap.mpr ⟨i, List.mem_filter.mpr ⟨List.mem_filter.mpr ⟨hi, ?_⟩, hunmarked⟩, hf⟩
    simpa using hmem

end

end RuleId

namespace Auditor

/-- Checked among fewer declarations, an actor class may answer for a contract that is checked among more. -/
structure Moved (m : Model) (d : Subject) (checked checked' : List TypeId) (v : Violation) : Prop where
  code : v.code = "DAPR1405"
  role : d.role = .actorClass
  location : d.definition.location = some v.location
  contract : ∃ i ∈ d.definition.interfaces, i ∈ checked ∧ i ∉ checked' ∧ ∃ e, m.graph.get? i = some e ∧
    e.kind = .interfaceType ∧ v.message = Template.fill RuleId.interfaceMarker.template [e.name]

theorem exists_surface (m : Model) (d : Subject) : ∃ s : Surface, ∀ checked,
    (scopeOf m checked d).fresh = ⟨m, d.id, d.definition, d.role, s, checked⟩ := by
  unfold scopeOf
  split
  · exact ⟨(m.surface d.id).fresh, fun _ => rfl⟩
  · exact ⟨[], fun _ => rfl⟩

theorem applyRule_checked {r : Rule} (hr : r.id ≠ .interfaceMarker) (scope : Scope) (checked : List TypeId) :
    applyRule { scope with checked := checked } r = applyRule scope r := by
  unfold applyRule
  rw [RuleId.findings_checked hr]

section
variable {m : Model} (hg : m.graph.WellFormed) (rules : List Rule) (checked checked' : List TypeId)
include hg

theorem mem_applyRule_checked {d : Subject} {s : Surface} {r : Rule} {v : Violation}
    (hr : r.id = .interfaceMarker)
    (hv : v ∈ (applyRule ⟨m, d.id, d.definition, d.role, s, checked'⟩ r).fresh) :
    v ∈ (applyRule ⟨m, d.id, d.definition, d.role, s, checked⟩ r).fresh ∨ Moved m d checked checked' v := by
  unfold applyRule at hv ⊢
  dsimp only at hv ⊢
  rw [hr] at hv ⊢
  split at hv
  · rename_i happlies
    obtain ⟨f, hf, hv⟩ := List.mem_map.mp hv
    rw [← hv, if_pos happlies]
    by_cases hrole : d.role = .interface
    · -- an interface answers for itself alone
      left
      refine List.mem_map.mpr ⟨f, ?_, rfl⟩
      replace hf : f ∈ (RuleId.interfaceMarkerFindings ⟨m, d.id, d.definition, d.role, s, checked'⟩).fresh := hf
      show f ∈ (RuleId.interfaceMarkerFindings ⟨m, d.id, d.definition, d.role, s, checked⟩).fresh
      unfold RuleId.interfaceMarkerFindings at hf ⊢
      simp only [if_pos hrole] at hf ⊢
      exact hf
    · have hg' : (⟨m, d.id, d.definition, d.role, s, checked⟩ : Scope).model.graph.WellFormed := hg
      rcases RuleId.mem_interfaceMarkerFindings hg' hrole hf with hf | ⟨i, hi, hc, hc', e, he, hk, hl, harguments⟩
      · left
        exact List.mem_map.mpr ⟨f, hf, rfl⟩
      · right
        refine ⟨rfl, by simpa [RuleId.appliesTo, hrole] using happlies, hl, i, hi, hc, hc', e, he, hk, ?_⟩
        rw [← harguments]
        rfl
  · cases hv

theorem covered_or_moved {d : Subject} {s : Surface} (hs : s.Within (scopeOf m checked' d).fresh.surface)
    {v : Violation} (hv : v ∈ violationsIn rules { (scopeOf m checked' d).fresh with surface := s }) :
    (∃ w ∈ violationsIn rules (scopeOf m checked d).fresh, v.sameIdentity w = true) ∨
      Moved m d checked checked' v := by
  obtain ⟨t, ht⟩ := exists_surface m d
  rw [ht] at hs hv ⊢
  obtain ⟨r, hr, hv⟩ := List.mem_flatMap.mp hv
  have hchecked : v ∈ (applyRule ⟨m, d.id, d.definition, d.role, s, checked⟩ r).fresh ∨
      Moved m d checked checked' v := by
    by_cases hid : r.id = .interfaceMarker
    · exact mem_applyRule_checked hg checked checked' hid hv
    · left
      rw [← applyRule_checked hid _ checked']
      exact hv
  rcases hchecked with hv | hmoved
  · left
    obtain ⟨w, hw, hvw⟩ := applyRule_covered ⟨m, d.id, d.definition, d.role, s, checked⟩ hs r v hv
    exact ⟨w, List.mem_flatMap.mpr ⟨r, hr, hw⟩, hvw⟩
  · right
    exact hmoved

/-- The step, from any memo. -/
theorem keeps_covered_or_moved (d : Subject) : Query.Keeps m.Right (examine m rules checked' d) fun e =>
    ∀ v ∈ e.violations, (∃ w ∈ violationsIn rules (scopeOf m checked d).fresh, v.sameIdentity w = true) ∨
      Moved m d checked checked' v := by
  refine (keeps_violations hg rules checked' d).mono fun e he v hv => ?_
  obtain ⟨s, he, hs, -⟩ := he
  rw [he] at hv
  exact covered_or_moved hg rules checked checked' hs hv

/-- Of two runs over the same declarations or fewer, the second finds nothing new but what has moved. -/
theorem examineAll_covered_or_moved {ds ds' : List Subject} (hsub : ds' ⊆ ds) {v : Violation}
    (hv : v ∈ (examineAll m rules checked' ds' .empty).flatMap (·.violations)) :
    (∃ w ∈ (examineAll m rules checked ds .empty).flatMap (·.violations), v.sameIdentity w = true) ∨
      ∃ d ∈ ds', Moved m d checked checked' v := by
  obtain ⟨e, he, hv⟩ := List.mem_flatMap.mp hv
  have hrun : Query.Keeps m.Right (Query.each (examine m rules checked') ds') fun es => ∀ e ∈ es,
      ∃ d ∈ ds', ∀ v ∈ e.violations,
        (∃ w ∈ violationsIn rules (scopeOf m checked d).fresh, v.sameIdentity w = true) ∨
          Moved m d checked checked' v := by
    apply Query.Keeps.each_forall
    intro d hd
    exact (keeps_covered_or_moved hg rules checked checked' d).mono fun e he => ⟨d, hd, he⟩
  obtain ⟨d, hd, hall⟩ := (hrun _ Model.right_empty).1 e he
  rcases hall v hv with ⟨w, hw, hvw⟩ | hmoved
  · left
    have hmem : w ∈ ds.flatMap fun d => violationsIn rules (scopeOf m checked d).fresh :=
      List.mem_flatMap.mpr ⟨d, hsub hd, hw⟩
    obtain ⟨x, hx, hwx⟩ := (examineAll_covered hg rules checked ds).2 w hmem
    exact ⟨x, hx, Violation.sameIdentity_trans hvw hwx⟩
  · exact .inr ⟨d, hd, hmoved⟩

end

/-! ## Reports -/

/-- The auditors may differ in which declarations they leave out. -/
structure SameButExclusions (a a' : Auditor) : Prop where
  rules : a'.rules = a.rules
  framework : a'.settings.framework = a.settings.framework
  blocks : a'.settings.rules = a.settings.rules

theorem SameButExclusions.activeRules_eq {a a' : Auditor} (h : a.SameButExclusions a') :
    a'.activeRules = a.activeRules := by
  unfold activeRules Settings.isEnabled Settings.severity? Settings.rule? Settings.lookup?
  rw [h.rules, h.blocks]

theorem SameButExclusions.model_eq {a a' : Auditor} (h : a.SameButExclusions a') (g : Graph) :
    a'.model g = a.model g := by
  unfold model
  rw [h.framework]

theorem role_of_mem_select {a : Auditor} {g : Graph} {d : Subject} (h : d ∈ a.select g) :
    d.role = (a.model g).role d.id d.definition := by
  obtain ⟨id, -, hd⟩ := List.mem_filterMap.mp h
  split at hd
  · cases hd
    rfl
  · cases hd

/-- The contract that a class answers for is itself a declaration. -/
theorem Moved.exists_subject {a : Auditor} {g : Graph} {d : Subject} {checked' : List TypeId} {v : Violation}
    (h : Moved (a.model g) d ((a.select g).map (·.id)) checked' v) : ∃ e ∈ a.select g, e.role = .interface ∧
      e.id ∈ d.definition.interfaces ∧ e.id ∉ checked' ∧
      v.message = Template.fill RuleId.interfaceMarker.template [e.definition.name] := by
  obtain ⟨i, hi, hc, hc', t, ht, hkind, hmessage⟩ := h.contract
  obtain ⟨e, he, hid⟩ := List.mem_map.mp hc
  subst hid
  have hdefinition : e.definition = t := Option.some.inj ((mem_select he).2.symm.trans ht)
  rw [← hdefinition] at hkind hmessage
  refine ⟨e, he, ?_, hi, hc', hmessage⟩
  rw [role_of_mem_select he]
  unfold Model.role
  rw [hkind]

/-- On a well-formed graph, to leave declarations out takes identities away from a report, in whatever order the
declarations are taken. The only ones that are new belong to `interfaceMarker`: they stand at an actor class that
is checked, and name an interface which the class lists and which is no longer checked. -/
theorem audit_of_exclusions {a a' : Auditor} (h : a.SameButExclusions a') {g : Graph} (hg : g.WellFormed)
    (hsub : a'.select g ⊆ a.select g) {order order' : List Subject} (horder : order.Perm (a.select g))
    (horder' : order'.Perm (a'.select g)) : ∀ v ∈ (a'.auditIn g order').violations,
    (∃ w ∈ (a.auditIn g order).violations, v.sameIdentity w = true) ∨
    v.code = "DAPR1405" ∧ ∃ d ∈ a'.select g, d.role = .actorClass ∧ d.definition.location = some v.location ∧
      ∃ e ∈ a.select g, e.role = .interface ∧ e.id ∈ d.definition.interfaces ∧
        e.id ∉ (a'.select g).map (·.id) ∧
        v.message = Template.fill RuleId.interfaceMarker.template [e.definition.name] := by
  intro v hv
  have hmem := Violation.mem_of_mem_settle hv
  unfold examinationsIn at hmem
  rw [h.model_eq, h.activeRules_eq] at hmem
  have horders : order' ⊆ order := by
    intro d hd
    exact horder.symm.subset (hsub (horder'.subset hd))
  rcases examineAll_covered_or_moved (m := a.model g) hg a.activeRules ((a.select g).map (·.id)) _ horders hmem
    with ⟨w, hw, hvw⟩ | ⟨d, hd, hmoved⟩
  · left
    obtain ⟨x, hx, hwx⟩ := Violation.exists_mem_settle hw
    exact ⟨x, hx, Violation.sameIdentity_trans hvw hwx⟩
  · right
    exact ⟨hmoved.code, d, horder'.subset hd, hmoved.role, hmoved.location, hmoved.exists_subject⟩

/-! ### A generated contract

A contract that lacks the marker, in a generated file, and a class that implements it. -/

def depot : Graph where
  types := #[
    { name := "Actor", inNamespace := some "Dapr.Actors.Runtime", kind := .classType },
    { name := "IDepotActor", kind := .interfaceType, interfaces := [⟨1⟩, ⟨9⟩], isGenerated := true,
      location := some ⟨"Depot.g.cs", 1, 1⟩ },
    { name := "DepotActor", kind := .classType, baseType := some ⟨0⟩, interfaces := [⟨1⟩],
      location := some ⟨"Depot.cs", 1, 1⟩ }]
  declarations := [⟨1⟩, ⟨2⟩]

theorem depot_wellFormed : depot.WellFormed where
  rootless := by
    intro a i d hi hd
    obtain ⟨e, he, hi⟩ := hi
    have h : ∀ e ∈ depot.types.toList, ∀ i ∈ e.interfaces, (depot.get? i).all (·.baseType.isNone) = true := by
      decide
    have hnone := h e (Graph.mem_types_of_get? he) i hi
    rw [hd] at hnone
    simpa using hnone
  faithful := by
    intro id d all hd hall
    have h : ∀ e ∈ depot.types.toList, e.flattened = none := by decide
    rw [h d (Graph.mem_types_of_get? hd)] at hall
    cases hall

/-- Without the generated contract, its class is reported in its place. -/
theorem audit_of_exclusions_depot :
    let a : Auditor := ⟨Rule.all, [], { audit := { excludeGenerated := false } }, .error⟩
    let a' : Auditor := ⟨Rule.all, [], {}, .error⟩
    a.SameButExclusions a' ∧ depot.WellFormed ∧ a'.select depot ⊆ a.select depot ∧
    ∀ v ∈ (a'.audit depot).violations,
      (∃ w ∈ (a.audit depot).violations, v.sameIdentity w = true) ∨
      v.code = "DAPR1405" ∧ ∃ d ∈ a'.select depot, d.role = .actorClass ∧
        d.definition.location = some v.location ∧ ∃ e ∈ a.select depot, e.role = .interface ∧
        e.id ∈ d.definition.interfaces ∧ e.id ∉ (a'.select depot).map (·.id) ∧
        v.message = Template.fill RuleId.interfaceMarker.template [e.definition.name] := by
  intro a a'
  have h : a.SameButExclusions a' := ⟨rfl, rfl, rfl⟩
  have hsub : a'.select depot ⊆ a.select depot := by
    have hselect : a.select depot = ⟨⟨1⟩, depot.types[1], .interface⟩ :: a'.select depot := by cbv
    rw [hselect]
    exact List.subset_cons_self _ _
  exact ⟨h, depot_wellFormed, hsub, audit_of_exclusions h depot_wellFormed hsub (.refl _) (.refl _)⟩

/-! Nothing is found about the class as long as the contract is checked too. -/

example : (RuleId.interfaceMarkerFindings ⟨⟨depot, {}⟩, ⟨2⟩, depot.types[2], .actorClass, [], [⟨2⟩]⟩).fresh.map
    (·.arguments) = [["IDepotActor"]] := by cbv

example : (RuleId.interfaceMarkerFindings ⟨⟨depot, {}⟩, ⟨2⟩, depot.types[2], .actorClass, [], [⟨1⟩, ⟨2⟩]⟩).fresh =
    [] := by cbv

end Auditor

end ActorAudit
