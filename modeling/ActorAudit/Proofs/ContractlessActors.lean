import ActorAudit.Proofs.Exclusions
import ActorAudit.Proofs.Hindsight
import ActorAudit.Proofs.Severities

/-!
# Actors without contracts

`actorContract` asks again what the surface was worked out from: the interfaces of the class, and which of them are
marked. The answers are known by then, so the rule has something to say exactly when no contract was found; and
where no contract was found there is no surface for the other rules to look at.
-/

namespace ActorAudit

namespace Model

variable {m : Model} {last : Memo}

theorem contracts_eq_nil_iff {cls : TypeId} {cs : List TypeId} (h : Query.Known last (m.contracts cls) cs) :
    cs = [] ↔ ∀ i ∈ (m.graph.interfacesOf cls last).1, (m.isMarked i last).1 = false := by
  have hrepeats := Query.compositional_repeats m
  obtain ⟨_, hfilter⟩ := Query.Known.of_bind (hrepeats.interfacesOf cls)
    (Query.repeats_filter hrepeats.isMarked _) h
  rw [Query.Known.of_filter hrepeats.isMarked hfilter]
  simp [List.filter_eq_nil_iff]

theorem surface_eq_nil {cls : TypeId} {memo : Memo} (h : (m.contracts cls memo).1 = []) :
    (m.surface cls memo).1 = [] := by
  have hsurface : (m.surface cls memo).1 =
      (Query.each m.exposureOf (m.surfaceOccurrences cls (m.contracts cls memo).1) (m.contracts cls memo).2).1 := rfl
  rw [hsurface, h]
  rfl

end Model

namespace RuleId

def surfaceCodes : List String := ["DAPR1408", "DAPR1409", "DAPR1410", "DAPR1411", "DAPR1412", "DAPR1414"]

theorem findings_of_surface_nil {scope : Scope} (h : scope.surface = []) {r : RuleId} (hr : r.code ∈ surfaceCodes) :
    r.findings scope = pure [] := by
  cases r with
  | complexType => simp [findings, complexTypeFindings, uncontractedObjects, h, firstUses]
  | parameterType => simp [findings, parameterTypeFindings, h]
  | resultType => simp [findings, resultTypeFindings, h]
  | elementType => simp [findings, elementTypeFindings, h]
  | recordContract => simp [findings, recordContractFindings, h, Surface.reached, recordFindingsFrom]
  | construction => simp [findings, constructionFindings, h, Surface.reached]
  | _ => simp [code, surfaceCodes] at hr

/-- In hindsight, the rule has something to say about a class with a place when none of its interfaces is
marked. -/
theorem actorContractFindings_of_known {scope : Scope} {last : Memo} {fs : List Finding}
    (h : Query.Known last (actorContractFindings scope) fs) : fs ≠ [] ↔
      (∀ i ∈ (scope.model.graph.interfacesOf scope.id last).1, (scope.model.isMarked i last).1 = false) ∧
        scope.definition.location ≠ none := by
  have hrepeats := Query.compositional_repeats scope.model
  have hrest : ∀ found : Bool, Query.Repeats (if found = true then pure [] else
      pure (Finding.place scope.definition.location [scope.definition.name]
        s!"Declare 'I{scope.definition.name}' extending {scope.model.framework.marker.text} and implement it" [])) := by
    intro found
    cases found <;> exact .pure _
  obtain ⟨_, h⟩ := Query.Known.of_bind (hrepeats.interfacesOf scope.id)
    ((Query.repeats_any hrepeats.isMarked _).bind fun _ => hrest _) h
  obtain ⟨hany, h⟩ := Query.Known.of_bind (Query.repeats_any hrepeats.isMarked _) (hrest _) h
  rw [Query.Known.of_any hrepeats.isMarked hany] at h
  cases hfound : (scope.model.graph.interfacesOf scope.id last).1.any fun i => (scope.model.isMarked i last).1 with
  | true =>
    rw [hfound] at h
    have hfs : [] = fs := congrArg Prod.fst h.eq
    obtain ⟨i, hi, hmarked⟩ := List.any_eq_true.mp hfound
    constructor
    · intro hne
      exact absurd hfs.symm hne
    · intro ⟨hall, _⟩
      rw [hall i hi] at hmarked
      cases hmarked
  | false =>
    rw [hfound] at h
    have hfs : Finding.place scope.definition.location _ _ _ = fs := congrArg Prod.fst h.eq
    rw [List.any_eq_false] at hfound
    rw [← hfs]
    simp only [Bool.not_eq_true] at hfound
    simp only [Finding.place, ne_eq, List.map_eq_nil_iff, Option.toList_eq_nil_iff]
    exact ⟨fun hl => ⟨hfound, hl⟩, fun hl => hl.2⟩

end RuleId

namespace Auditor

variable {m : Model} {checked : List TypeId} {d : Subject}

theorem scopeOf_surface (hd : d.role = .actorClass) (memo : Memo) :
    (scopeOf m checked d memo).1.surface = (m.surface d.id memo).1 ∧
      (scopeOf m checked d memo).2 = (m.surface d.id memo).2 := by
  unfold scopeOf
  rw [if_pos hd]
  exact ⟨rfl, rfl⟩

theorem known_contracts (m : Model) (checked : List TypeId) (hd : d.role = .actorClass) (memo : Memo) :
    Query.Known (scopeOf m checked d memo).2 (m.contracts d.id) (m.contracts d.id memo).1 := by
  have hrepeats := Query.compositional_repeats m
  have hsub : (m.contracts d.id memo).2.Sub (m.surface d.id memo).2 :=
    (hrepeats.each hrepeats.exposureOf _ (m.contracts d.id memo).2).1
  rw [(scopeOf_surface hd memo).2]
  exact (hrepeats.contracts d.id memo).2.mono hsub

/-- From the surface on, `actorContract` has something to say about a class with a place when the surface was worked
out from no contract, and then none of the interfaces of the class is marked. -/
theorem actorContract_speaks_iff (hd : d.role = .actorClass) {memo later : Memo}
    (hlater : (scopeOf m checked d memo).2.Sub later) :
    ((∀ i ∈ (m.graph.interfacesOf d.id later).1, (m.isMarked i later).1 = false) ↔
      (m.contracts d.id memo).1 = []) ∧
    ((RuleId.actorContractFindings (scopeOf m checked d memo).1 later).1 ≠ [] ↔
      (m.contracts d.id memo).1 = [] ∧ d.definition.location ≠ none) := by
  have hcontracts := Model.contracts_eq_nil_iff ((known_contracts m checked hd memo).mono hlater)
  obtain ⟨found, hfound⟩ := known_actorContractFindings m checked hd memo
  replace hfound := hfound.mono hlater
  refine ⟨hcontracts.symm, ?_⟩
  rw [hfound.eq, RuleId.actorContractFindings_of_known hfound, scopeOf_fst m checked d memo, hcontracts]

theorem applyRule_ne_nil_iff {scope : Scope} {r : Rule} {memo : Memo} : (applyRule scope r memo).1 ≠ [] ↔
    r.id.appliesTo scope.role = true ∧ (r.id.findings scope memo).1 ≠ [] := by
  rw [applyRule_fst]
  split
  · rename_i happlies
    simp [happlies]
  · rename_i happlies
    simp [happlies]

section
variable {rules : List Rule} {last : Memo} {e : Examination} (h : Query.Known last (examine m rules checked d) e)
include h

theorem scope_of_known : e.scope = (scopeOf m checked d last).1 ∧ (scopeOf m checked d last).2 = last := by
  have heq := (known_examine h).1.eq
  rw [heq]
  exact ⟨rfl, rfl⟩

/-- The step, on one side: `actorContract` speaks of a class without contracts. -/
theorem contracts_eq_nil_of_actorContract {v : Violation} (hv : v ∈ e.violations) (hcode : v.code = "DAPR1413") :
    (m.contracts d.id last).1 = [] := by
  obtain ⟨hscope, hlast⟩ := scope_of_known h
  rw [(known_examine h).2.2, hscope] at hv
  obtain ⟨r, _, hv⟩ := List.mem_flatMap.mp hv
  have hactor : r.id = .actorContract := RuleId.code_injective ((code_of_mem_applyRule hv).symm.trans hcode)
  obtain ⟨happlies, hne⟩ := applyRule_ne_nil_iff.mp (List.ne_nil_of_mem hv)
  rw [hactor] at happlies hne
  have hd : d.role = .actorClass := by
    rw [(scopeOf_frame m checked d last).2.2] at happlies
    simpa [RuleId.appliesTo] using happlies
  -- the last memo has the surface already, so the rule is asked where it was
  have hlater : (scopeOf m checked d last).2.Sub last := by
    rw [hlast]
    exact .refl last
  exact ((actorContract_speaks_iff hd hlater).2.mp hne).1

/-- On the other side, the rules that look at surfaces speak of a class with contracts. -/
theorem contracts_ne_nil_of_surfaceCode {v : Violation} (hv : v ∈ e.violations)
    (hcode : v.code ∈ RuleId.surfaceCodes) : (m.contracts d.id last).1 ≠ [] := by
  intro hnil
  obtain ⟨hscope, _⟩ := scope_of_known h
  rw [(known_examine h).2.2] at hv
  obtain ⟨r, _, hv⟩ := List.mem_flatMap.mp hv
  rw [code_of_mem_applyRule hv] at hcode
  obtain ⟨happlies, hne⟩ := applyRule_ne_nil_iff.mp (List.ne_nil_of_mem hv)
  have hd : d.role = .actorClass := by
    rw [hscope, (scopeOf_frame m checked d last).2.2] at happlies
    cases hid : r.id <;> simp_all [RuleId.appliesTo, RuleId.surfaceCodes, RuleId.code]
  have hsurface : e.scope.surface = [] := by
    rw [hscope, (scopeOf_surface hd last).1, Model.surface_eq_nil hnil]
  rw [RuleId.findings_of_surface_nil hsurface hcode] at hne
  exact hne rfl

end

/-- `actorContract` and the rules that look at surfaces never speak of the same class. Whatever rules were run since
the surface of an actor class was worked out, none of its interfaces is marked exactly when it had no contracts, and
only then `actorContract` has something to say. So in a run, from any memo, the other rules say nothing about a
class of which it speaks. -/
theorem actorContract_excludes_surface (m : Model) (checked : List TypeId) :
    (∀ (d : Subject) (memo : Memo) (between : List Rule), d.role = .actorClass →
      let p := scopeOf m checked d memo
      let later := (Query.each (applyRule p.1) between p.2).2
      ((∀ i ∈ (m.graph.interfacesOf d.id later).1, (m.isMarked i later).1 = false) ↔
        (m.contracts d.id memo).1 = []) ∧
      ((RuleId.actorContractFindings p.1 later).1 ≠ [] ↔
        (m.contracts d.id memo).1 = [] ∧ d.definition.location ≠ none)) ∧
    ∀ (rules : List Rule) (ds : List Subject) (memo : Memo), ∀ e ∈ examineAll m rules checked ds memo,
      ∀ e' ∈ examineAll m rules checked ds memo, e'.scope.id = e.scope.id →
        (∃ v ∈ e.violations, v.code = "DAPR1413") →
        ∀ w ∈ e'.violations,
          w.code ∉ ["DAPR1408", "DAPR1409", "DAPR1410", "DAPR1411", "DAPR1412", "DAPR1414"] := by
  constructor
  · intro d memo between hd p later
    have hsub : p.2.Sub later :=
      (Query.repeats_each (repeats_applyRule (scopeOf_frame m checked d memo).1) between p.2).1
    exact actorContract_speaks_iff hd hsub
  · intro rules ds memo e he e' he' hid ⟨v, hv, hcode⟩ w hw hsurface
    obtain ⟨hknown, hrun⟩ := known_examineAll m rules checked ds memo
    rw [hrun] at he he'
    obtain ⟨d, hd, rfl⟩ := List.mem_map.mp he
    obtain ⟨d', hd', rfl⟩ := List.mem_map.mp he'
    have hscope : ∀ d ∈ ds, (examine m rules checked d (lastMemo m rules checked ds memo)).1.scope.id = d.id := by
      intro d hd
      rw [(scope_of_known (hknown d hd)).1, (scopeOf_frame m checked d _).2.1]
    rw [hscope d hd, hscope d' hd'] at hid
    have hnil := contracts_eq_nil_of_actorContract (hknown d hd) hv hcode
    rw [← hid] at hnil
    exact contracts_ne_nil_of_surfaceCode (hknown d' hd') hw hsurface hnil

theorem exists_violation_of_contracts_eq_nil (hd : d.role = .actorClass) {memo : Memo}
    (hnil : (m.contracts d.id memo).1 = []) (hl : d.definition.location ≠ none) {rules : List Rule} {e : Examination}
    (he : e ∈ examineAll m (.standard .actorContract :: rules) checked [d] memo) :
    ∃ v ∈ e.violations, v.code = "DAPR1413" := by
  have happlies : RuleId.actorContract.appliesTo (scopeOf m checked d memo).1.role = true := by
    rw [(scopeOf_frame m checked d memo).2.2, hd]
    rfl
  have hfindings := (actorContract_speaks_iff hd (.refl (scopeOf m checked d memo).2)).2.mpr ⟨hnil, hl⟩
  obtain ⟨v, hv⟩ := List.exists_mem_of_ne_nil _
    (applyRule_ne_nil_iff (r := .standard .actorContract).mpr ⟨happlies, hfindings⟩)
  rw [List.mem_singleton.mp he]
  exact ⟨v, List.mem_append_left _ hv, code_of_mem_applyRule hv⟩

/-- The class of the depot has no contract: it is told so, and nothing about a surface. -/
theorem actorContract_excludes_surface_depot :
    let m : Model := ⟨depot, {}⟩
    let d : Subject := ⟨⟨2⟩, depot.types[2], .actorClass⟩
    let rules := .standard .actorContract :: Rule.all
    let p := scopeOf m [⟨2⟩] d .empty
    d.role = .actorClass ∧ (m.contracts d.id .empty).1 = [] ∧
    (RuleId.actorContractFindings p.1 (Query.each (applyRule p.1) rules p.2).2).1 ≠ [] ∧
    ∀ e ∈ examineAll m rules [⟨2⟩] [d] .empty, (∃ v ∈ e.violations, v.code = "DAPR1413") ∧
      ∀ w ∈ e.violations, w.code ∉ ["DAPR1408", "DAPR1409", "DAPR1410", "DAPR1411", "DAPR1412", "DAPR1414"] := by
  intro m d rules p
  obtain ⟨hclass, hrun⟩ := actorContract_excludes_surface m [⟨2⟩]
  have hcontracts : (m.contracts d.id .empty).1 = [] := by cbv
  have hl : d.definition.location ≠ none := by decide
  have hd : d.role = .actorClass := rfl
  refine ⟨hd, hcontracts, (hclass d .empty rules hd).2.mpr ⟨hcontracts, hl⟩, fun e he => ?_⟩
  have hsaid := exists_violation_of_contracts_eq_nil hd hcontracts hl he
  exact ⟨hsaid, hrun rules [d] .empty e he e he rfl hsaid⟩

end Auditor

end ActorAudit
