import ActorAudit.Proofs.MirroredGraphs
import ActorAudit.Proofs.Retention
import ActorAudit.Proofs.RuleSelection

/-!
# Severities

A severity is set by a rule, by a preset or by the settings, and nothing that decides what is reported looks at
it: rules are enabled by their blocks, findings are made without it, and settling neither sorts nor squashes by
it. So it can be changed before a run or in its report. Of a rule that is listed twice the first is reported:
both find the same, and what settling keeps is the first of what it ties with.
-/

namespace ActorAudit

open List (Forall₂)

/-! ## Settling -/

namespace Violation

/-- Nothing but the severity is changed. -/
def Regrades (f : Violation → Violation) : Prop := ∀ v, ∃ s, f v = { v with severity := s }

namespace Regrades

variable {f : Violation → Violation} (h : Regrades f)
include h

theorem order_eq (v w : Violation) : order (f v) (f w) = order v w := by
  obtain ⟨s, hs⟩ := h v
  obtain ⟨t, ht⟩ := h w
  rw [hs, ht]
  rfl

theorem sameIdentity_eq (v w : Violation) : (f v).sameIdentity (f w) = v.sameIdentity w := by
  obtain ⟨s, hs⟩ := h v
  obtain ⟨t, ht⟩ := h w
  rw [hs, ht]
  rfl

theorem sorted (vs : List Violation) : Violation.sorted (vs.map f) = (Violation.sorted vs).map f := by
  unfold Violation.sorted
  rw [List.map_mergeSort]
  intro v _ w _
  rw [h.order_eq]

theorem squash (vs : List Violation) : Violation.squash (vs.map f) = (Violation.squash vs).map f := by
  induction vs with
  | nil => rfl
  | cons v vs ih =>
    rw [List.map_cons, Violation.squash, Violation.squash, ih]
    cases Violation.squash vs with
    | nil => rfl
    | cons w ws =>
      simp only [List.map_cons, h.sameIdentity_eq]
      split <;> rfl

theorem settle (vs : List Violation) : Violation.settle (vs.map f) = (Violation.settle vs).map f := by
  unfold Violation.settle
  rw [h.sorted, h.squash]

end Regrades

/-- What is kept is the first of all that ties with it. -/
theorem find?_of_mem_settle {vs : List Violation} {w : Violation} (h : w ∈ settle vs) :
    vs.find? (fun v => order v w = .eq) = some w := by
  obtain ⟨before, after, hvs, hbefore, -⟩ := firstLeast_of_mem_settle h
  rw [List.find?_eq_some_iff_append]
  refine ⟨by simp [Std.ReflCmp.compare_self], before, after, hvs, fun v hv => ?_⟩
  by_cases htie : order v w = .eq
  · have hwv : order w v = .eq := Std.OrientedCmp.eq_symm htie
    rw [order_eq_then, Ordering.then_eq_eq] at hwv
    have hlt := hbefore v hv (identityOrder_eq_iff.mp hwv.1)
    rw [hwv.2] at hlt
    cases hlt
  · simp [htie]

end Violation

/-! ## Rules of different severities -/

theorem RuleId.code_injective : Function.Injective RuleId.code := by
  have h : ∀ r, ofCode? r.code = some r := by
    intro r
    cases r <;> decide
  intro r r' hcode
  have hr := h r
  rw [hcode, h r'] at hr
  exact (Option.some.inj hr).symm

namespace Auditor

/-- What is found does not depend on the severity of the rule. -/
def Graded (verdict : Rule → List Violation) : Prop :=
  ∃ found : RuleId → List Finding, ∀ r, verdict r = (found r.id).map (Finding.toViolation r.id r.severity)

theorem graded_applyRule (scope : Scope) (memo : Memo) : Graded fun r => (applyRule scope r memo).1 := by
  refine ⟨fun id => if id.appliesTo scope.role then (id.findings scope memo).1 else [], fun r => ?_⟩
  dsimp only
  unfold applyRule
  split <;> rfl

theorem graded_verdicts (m : Model) (checked : List TypeId) (marker : Bool) (ds : List Subject) (memo : Memo) :
    ∀ verdict ∈ (Query.each (verdicts m checked marker) ds memo).1, Graded verdict := by
  have h : ∀ d ∈ ds, Query.Keeps (fun _ => True) (verdicts m checked marker d) Graded :=
    fun d _ memo _ => ⟨graded_applyRule _ _, trivial⟩
  exact (Query.Keeps.each_forall h memo trivial).1

section
variable {A B : List Rule} {f f' : Violation → Violation}
  (h : Forall₂ (fun r r' => r.id = r'.id ∧ ∀ x : Finding,
    f (x.toViolation r.id r.severity) = f' (x.toViolation r'.id r'.severity)) A B)
include h

theorem Graded.map_flatMap {verdict : Rule → List Violation} (hv : Graded verdict) :
    (A.flatMap verdict).map f = (B.flatMap verdict).map f' := by
  obtain ⟨found, hfound⟩ := hv
  induction h with
  | nil => rfl
  | @cons r r' A B hr _ ih =>
    rw [List.flatMap_cons, List.flatMap_cons, List.map_append, List.map_append, ih, hfound, hfound, ← hr.1,
      List.map_map, List.map_map]
    congr 1
    refine List.map_congr_left fun x _ => ?_
    rw [Function.comp_apply, Function.comp_apply, hr.2, hr.1]

variable (m : Model) (checked : List TypeId)

/-- Rules with the same ids leave the same memos behind, so two runs differ in what they make of each finding
and in nothing else. -/
theorem violations_map (ds : List Subject) :
    ((examineAll m A checked ds .empty).flatMap (·.violations)).map f =
      ((examineAll m B checked ds .empty).flatMap (·.violations)).map f' := by
  have hids : A.map (·.id) = B.map (·.id) := by
    rw [← List.forall₂_eq_eq_eq]
    exact List.rel_map (fun _ _ hr => hr.1) h
  rw [List.flatMap_def, List.flatMap_def, examineAll_eq_verdicts, examineAll_eq_verdicts, hids,
    ← List.flatMap_def, ← List.flatMap_def, List.map_flatMap, List.map_flatMap]
  exact List.flatMap_congr fun verdict hv => (graded_verdicts m checked _ ds _ verdict hv).map_flatMap h

theorem settle_violations_map (hf : Violation.Regrades f) (hf' : Violation.Regrades f') (ds : List Subject) :
    (Violation.settle ((examineAll m A checked ds .empty).flatMap (·.violations))).map f =
      (Violation.settle ((examineAll m B checked ds .empty).flatMap (·.violations))).map f' := by
  rw [← hf.settle, ← hf'.settle, violations_map h m checked]

end

/-- Where a rule is listed twice, the first has found what the second finds, so the second is not kept. -/
theorem Graded.find?_code {verdict : Rule → List Violation} (hv : Graded verdict) {A : List Rule} {w : Violation}
    (h : (A.flatMap verdict).find? (fun v => Violation.order v w = .eq) = some w) :
    ∃ r, A.find? (fun r => r.id.code = w.code) = some r ∧ w.severity = r.severity := by
  obtain ⟨found, hfound⟩ := hv
  rw [List.find?_flatMap, List.findSome?_eq_some_iff] at h
  obtain ⟨before, r, after, hA, hr, hbefore⟩ := h
  have hmem := List.mem_of_find?_eq_some hr
  rw [hfound] at hmem
  obtain ⟨x, hx, hxw⟩ := List.mem_map.mp hmem
  subst hxw
  refine ⟨r, ?_, rfl⟩
  rw [List.find?_eq_some_iff_append]
  refine ⟨decide_eq_true rfl, before, after, hA, fun r' hr' => ?_⟩
  by_cases hcode : r'.id.code = r.id.code
  · have hnone := hbefore r' hr'
    rw [hfound, RuleId.code_injective hcode, List.find?_eq_none] at hnone
    have htie : Violation.order (x.toViolation r.id r'.severity) (x.toViolation r.id r.severity) = .eq := by
      show Violation.order (x.toViolation r.id r.severity) (x.toViolation r.id r.severity) = .eq
      exact Std.ReflCmp.compare_self
    exact absurd (decide_eq_true htie) (hnone _ (List.mem_map_of_mem hx))
  · have hne : r'.id.code ≠ (x.toViolation r.id r.severity).code := hcode
    simp [hne]

theorem severity_of_mem_settle {m : Model} {A : List Rule} {checked : List TypeId} {ds : List Subject}
    {w : Violation} (h : w ∈ Violation.settle ((examineAll m A checked ds .empty).flatMap (·.violations))) :
    ∃ r, A.find? (fun r => r.id.code = w.code) = some r ∧ w.severity = r.severity := by
  have hfirst := Violation.find?_of_mem_settle h
  rw [List.flatMap_def, examineAll_eq_verdicts, ← List.flatMap_def, List.find?_flatMap] at hfirst
  obtain ⟨verdict, hverdict, hfirst⟩ := List.exists_of_findSome?_eq_some hfirst
  exact (graded_verdicts m checked _ ds _ verdict hverdict).find?_code hfirst

end Auditor

/-! ## Reports -/

/-- The settings have blocks under the same keys, which enable the same rules, and agree in what else a run
reads, severities apart. -/
structure Settings.SameButSeverities (s s' : Settings) : Prop where
  audit : s'.audit = s.audit
  framework : s'.framework = s.framework
  blocks : ∀ key, Option.Rel (fun b b' => b.enabled = b'.enabled) (s.rules.lookup key) (s'.rules.lookup key)

theorem Settings.SameButSeverities.isEnabled_eq {s s' : Settings} (h : s.SameButSeverities s') (r : RuleId) :
    s.isEnabled r = s'.isEnabled r := by
  unfold isEnabled rule? lookup?
  obtain ⟨hb, hb'⟩ | ⟨b, b', hb, hb', hbb⟩ := rel_cases (rel_or (h.blocks r.name) (h.blocks r.code))
  · rw [hb, hb']
  · rw [hb, hb']
    dsimp only
    rw [hbb]

/-- A report with all its severities made equal. -/
def Report.levelled (r : Report) : Report :=
  { r with violations := r.violations.map fun v => { v with severity := .info } }

/-- Makes an error of a warning whose rule has no severity in the settings. -/
def Settings.tighten (s : Settings) (v : Violation) : Violation :=
  if v.severity = .warning ∧ ((s.rules.lookup v.rule).or (s.rules.lookup v.code)).bind (·.severity) = none then
    { v with severity := .error }
  else v

namespace Auditor

/-- The severity that is reported under a code: that of the settings under the name of the rule or else under
its code, if they have one, and otherwise that of the first rule with the code. -/
def severityOf? (a : Auditor) (code : String) : Option Severity :=
  (a.rules.find? fun r => r.id.code = code).map fun r =>
    (((a.settings.rules.lookup r.id.name).or (a.settings.rules.lookup r.id.code)).bind (·.severity)).getD r.severity

/-- A relation holds between the reports of two auditors on every graph, also when both take the declarations in
another order. -/
def Runs (a a' : Auditor) (R : Report → Report → Prop) : Prop :=
  ∀ g, R (a.audit g) (a'.audit g) ∧ ∀ order, R (a.auditIn g order) (a'.auditIn g order)

theorem build_eq_ok {rules : List Rule} {exclude : List String} {s : Settings} {t : Severity}
    {excludes : List (List Glob.Token)} (ht : s.threshold = .ok t)
    (hexcludes : Glob.compileAll (exclude ++ s.audit.exclude) = .ok excludes) :
    build rules exclude s = .ok ⟨rules, excludes, s, t⟩ := by
  unfold build
  rw [ht]
  dsimp only
  rw [hexcludes]

theorem of_build_eq_ok {rules : List Rule} {exclude : List String} {s : Settings} {a : Auditor}
    (h : build rules exclude s = .ok a) : ∃ excludes t, a = ⟨rules, excludes, s, t⟩ ∧ s.threshold = .ok t ∧
      Glob.compileAll (exclude ++ s.audit.exclude) = .ok excludes := by
  unfold build at h
  split at h
  · cases h
  · rename_i t ht
    split at h
    · cases h
    · rename_i excludes hexcludes
      cases h
      exact ⟨excludes, t, rfl, ht, hexcludes⟩

theorem severityOf?_of_mem {a : Auditor} {g : Graph} {order : List Subject} {v : Violation}
    (h : v ∈ (a.auditIn g order).violations) : a.severityOf? v.code = some v.severity := by
  obtain ⟨r, hr, hseverity⟩ := severity_of_mem_settle h
  unfold activeRules at hr
  rw [List.find?_map, Option.map_eq_some_iff] at hr
  obtain ⟨first, hfirst, hr⟩ := hr
  rw [List.find?_filter, List.find?_eq_some_iff_append] at hfirst
  obtain ⟨hactive, before, after, hrules, hbefore⟩ := hfirst
  simp only [Function.comp_apply, decide_eq_true_eq] at hactive
  have hfind : a.rules.find? (fun r => r.id.code = v.code) = some first := by
    rw [List.find?_eq_some_iff_append]
    refine ⟨decide_eq_true hactive.2, before, after, hrules, fun r' hr' => ?_⟩
    by_cases hcode : r'.id.code = v.code
    · -- the rule is enabled too, since it has the same id
      have hid := RuleId.code_injective (hcode.trans hactive.2.symm)
      have hinactive := hbefore r' hr'
      simp [hid, hactive] at hinactive
    · simp [hcode]
  unfold severityOf?
  rw [hfind, hseverity, ← hr]
  rfl

section
variable {a a' : Auditor} (hexcludes : a'.excludes = a.excludes) (haudit : a'.settings.audit = a.settings.audit)
  (hframework : a'.settings.framework = a.settings.framework)
include hexcludes haudit hframework

theorem select_eq (g : Graph) : a'.select g = a.select g := by
  unfold select choose isExcluded model
  rw [hexcludes, haudit, hframework]

theorem runs_of_activeRules {f f' : Violation → Violation} (hf : Violation.Regrades f)
    (hf' : Violation.Regrades f')
    (hrules : Forall₂ (fun r r' => r.id = r'.id ∧ ∀ x : Finding,
      f (x.toViolation r.id r.severity) = f' (x.toViolation r'.id r'.severity)) a.activeRules a'.activeRules) :
    a.Runs a' fun r r' => r.violations.map f = r'.violations.map f' ∧ r.checked = r'.checked := by
  have hmodel : ∀ g, a'.model g = a.model g := fun g => by unfold model; rw [hframework]
  have hselect := select_eq hexcludes haudit hframework
  have horder : ∀ g order, (a.auditIn g order).violations.map f = (a'.auditIn g order).violations.map f' ∧
      (a.auditIn g order).checked = (a'.auditIn g order).checked := by
    intro g order
    unfold auditIn examinationsIn
    rw [hmodel, hselect]
    exact ⟨settle_violations_map hrules _ _ hf hf' order, rfl⟩
  intro g
  refine ⟨?_, horder g⟩
  unfold audit
  rw [hselect]
  exact horder g _

end

theorem activeRules_rel {a a' : Auditor} {P Q : Rule → Rule → Prop} (hrules : Forall₂ P a.rules a'.rules)
    (henabled : ∀ {r r'}, P r r' → a.settings.isEnabled r.id = a'.settings.isEnabled r'.id)
    (hQ : ∀ {r r' : Rule}, P r r' → Q ⟨r.id, (a.settings.severity? r.id).getD r.severity⟩
      ⟨r'.id, (a'.settings.severity? r'.id).getD r'.severity⟩) : Forall₂ Q a.activeRules a'.activeRules := by
  have hfilter := rel_filter (p := fun r => a.settings.isEnabled r.id) (q := fun r => a'.settings.isEnabled r.id)
    henabled hrules
  exact List.rel_map (fun _ _ hr => hQ hr) hfilter

theorem regrades_level : Violation.Regrades fun v => { v with severity := .info } := fun _ => ⟨.info, rfl⟩

theorem regrades_tighten (s : Settings) : Violation.Regrades s.tighten := by
  intro v
  unfold Settings.tighten
  split
  · exact ⟨.error, rfl⟩
  · exact ⟨v.severity, rfl⟩

/-- A rule at its default severity, a warning made an error. -/
def escalated (id : RuleId) : Rule :=
  ⟨id, if id.defaultSeverity = .warning then .error else id.defaultSeverity⟩

/-- The strict preset escalates the warnings of the recommended one and no other rule. -/
theorem strict_rules_eq : Preset.strict.rules = RuleId.all.map escalated := by decide

theorem tighten_toViolation (s : Settings) (id : RuleId) (x : Finding) :
    s.tighten (x.toViolation id ((s.severity? id).getD (Rule.standard id).severity)) =
      x.toViolation id ((s.severity? id).getD (escalated id).severity) := by
  have hset : ((s.rules.lookup id.name).or (s.rules.lookup id.code)).bind (·.severity) = s.severity? id := rfl
  unfold Settings.tighten
  simp only [Finding.toViolation, hset]
  cases hseverity : s.severity? id with
  | some sev => simp
  | none =>
    by_cases hwarning : id.defaultSeverity = .warning
    · simp [Rule.standard, escalated, hwarning]
    · simp [Rule.standard, escalated, hwarning]

theorem Runs.mono {a a' : Auditor} {R S : Report → Report → Prop} (h : a.Runs a' R)
    (hRS : ∀ r r', R r r' → S r r') : a.Runs a' S := by
  intro g
  exact ⟨hRS _ _ (h g).1, fun order => hRS _ _ ((h g).2 order)⟩

theorem runs_levelled {a a' : Auditor} (hrules : a.rules.map (·.id) = a'.rules.map (·.id))
    (hs : a.settings.SameButSeverities a'.settings) (hexcludes : a'.excludes = a.excludes) :
    a.Runs a' fun r r' => r'.levelled = r.levelled := by
  have hids : Forall₂ (fun r r' : Rule => r.id = r'.id) a.rules a'.rules := by
    rw [← List.forall₂_eq_eq_eq, List.forall₂_map_left_iff, List.forall₂_map_right_iff] at hrules
    exact hrules
  have hactive : Forall₂ (fun r r' => r.id = r'.id ∧ ∀ x : Finding,
      ({ x.toViolation r.id r.severity with severity := .info } : Violation) =
        { x.toViolation r'.id r'.severity with severity := .info }) a.activeRules a'.activeRules := by
    refine activeRules_rel hids (fun hr => ?_) (fun hr => ⟨hr, fun x => ?_⟩)
    · rw [hr, hs.isEnabled_eq]
    · simp only [Finding.toViolation, hr]
  refine (runs_of_activeRules hexcludes hs.audit hs.framework regrades_level regrades_level hactive).mono ?_
  intro r r' hr
  unfold Report.levelled
  rw [hr.1, hr.2]

theorem runs_strict (a : Auditor) : Runs { a with rules := Preset.recommended.rules }
    { a with rules := Preset.strict.rules } fun r r' =>
      r' = { r with violations := r.violations.map a.settings.tighten } := by
  have hids : Forall₂ (fun r r' => ∃ id, r = Rule.standard id ∧ r' = escalated id) Preset.recommended.rules
      Preset.strict.rules := by
    rw [strict_rules_eq]
    refine List.forall₂_map_left_iff.mpr (List.forall₂_map_right_iff.mpr (List.forall₂_same.mpr fun id _ => ?_))
    exact ⟨id, rfl, rfl⟩
  have hactive : Forall₂ (fun r r' => r.id = r'.id ∧ ∀ x : Finding,
      a.settings.tighten (x.toViolation r.id r.severity) = id (x.toViolation r'.id r'.severity))
      (activeRules { a with rules := Preset.recommended.rules })
      (activeRules { a with rules := Preset.strict.rules }) := by
    refine activeRules_rel hids (fun hr => ?_) (fun hr => ?_)
    · obtain ⟨id, hr, hr'⟩ := hr
      rw [hr, hr']
      rfl
    · obtain ⟨id, hr, hr'⟩ := hr
      rw [hr, hr']
      exact ⟨rfl, tighten_toViolation _ id⟩
  have hid : Violation.Regrades id := fun v => ⟨v.severity, rfl⟩
  refine (runs_of_activeRules (by rfl) (by rfl) (by rfl) (regrades_tighten a.settings) hid hactive).mono ?_
  intro r r' hr
  rw [List.map_id] at hr
  rw [hr.1, hr.2]

/-- Severities do not decide what is reported. Two lists of the same rules and two settings that differ in
severities, and in a threshold that is valid, give the same reports up to severities. Each violation has the
severity of the settings for its rule, or else that of the first rule with its code. The strict preset makes errors
of the warnings of the recommended one whose severity is not set, and changes nothing else. -/
theorem audit_severities {rules rules' : List Rule} (hrules : rules.map (·.id) = rules'.map (·.id))
    {s s' : Settings} (hs : s.SameButSeverities s') {exclude : List String} {a : Auditor}
    (hbuild : build rules exclude s = .ok a) {t : Severity} (ht : s'.threshold = .ok t) :
    (∃ a', build rules' exclude s' = .ok a' ∧ a.Runs a' fun r r' => r'.levelled = r.levelled ∧
      (∀ v ∈ r.violations, a.severityOf? v.code = some v.severity) ∧
      ∀ v ∈ r'.violations, a'.severityOf? v.code = some v.severity) ∧
    ∃ recommended strict, build Preset.recommended.rules exclude s = .ok recommended ∧
      build Preset.strict.rules exclude s = .ok strict ∧
      recommended.Runs strict fun r r' => r' = { r with violations := r.violations.map s.tighten } := by
  obtain ⟨excludes, t₀, ha, ht₀, hexcludes⟩ := of_build_eq_ok hbuild
  have hexcludes' : Glob.compileAll (exclude ++ s'.audit.exclude) = .ok excludes := by
    rw [hs.audit]
    exact hexcludes
  refine ⟨⟨_, build_eq_ok ht hexcludes', ?_⟩, _, _, build_eq_ok ht₀ hexcludes, build_eq_ok ht₀ hexcludes, ?_⟩
  · have hruns : a.Runs ⟨rules', excludes, s', t⟩ fun r r' => r'.levelled = r.levelled := by
      rw [ha]
      exact runs_levelled hrules hs rfl
    intro g
    refine ⟨⟨(hruns g).1, fun v hv => severityOf?_of_mem hv, fun v hv => severityOf?_of_mem hv⟩, fun order => ?_⟩
    exact ⟨(hruns g).2 order, fun v hv => severityOf?_of_mem hv, fun v hv => severityOf?_of_mem hv⟩
  · exact runs_strict ⟨rules, excludes, s, t₀⟩

/-- The first of two rules with one id is reported, whatever the severity of the second. -/
theorem audit_severities_twice :
    let rules : List Rule := [⟨.actorContract, .info⟩, ⟨.enumMember, .error⟩, ⟨.actorContract, .error⟩]
    let rules' : List Rule := [⟨.actorContract, .warning⟩, ⟨.enumMember, .info⟩, ⟨.actorContract, .info⟩]
    let s : Settings := { rules := [("DAPR1406", { enabled := some true, severity := some .info })] }
    let s' : Settings := { failOn := some "WARN", rules := [("DAPR1406", { enabled := some true })] }
    rules.map (·.id) = rules'.map (·.id) ∧ s.SameButSeverities s' ∧
    build rules [] s = .ok ⟨rules, [], s, .error⟩ ∧ s'.threshold = .ok .warning ∧
    ∃ a', build rules' [] s' = .ok a' ∧
      ∀ g, (a'.audit g).levelled = (audit ⟨rules, [], s, .error⟩ g).levelled ∧
        ∀ v ∈ (a'.audit g).violations, a'.severityOf? v.code = some v.severity := by
  intro rules rules' s s'
  have hs : s.SameButSeverities s' := by
    refine ⟨rfl, rfl, fun key => ?_⟩
    simp only [s, s', List.lookup]
    split
    · exact .some rfl
    · exact .none
  have hbuild : build rules [] s = .ok ⟨rules, [], s, .error⟩ := rfl
  have ht : s'.threshold = .ok .warning := by cbv
  have hids : rules.map (·.id) = rules'.map (·.id) := rfl
  obtain ⟨⟨a', hbuild', hruns⟩, -⟩ := audit_severities hids hs hbuild ht
  exact ⟨hids, hs, hbuild, ht, a', hbuild', fun g => ⟨(hruns g).1.1, (hruns g).1.2.2⟩⟩

example : severityOf? ⟨[⟨.actorContract, .info⟩, ⟨.actorContract, .error⟩], [], {}, .error⟩ "DAPR1413" =
    some .info := by decide

end Auditor

end ActorAudit
