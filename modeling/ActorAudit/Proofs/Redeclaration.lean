import ActorAudit.Proofs.Exclusions
import ActorAudit.Proofs.HiddenTypes
import ActorAudit.Proofs.Hindsight

/-!
# Other declarations

Only the selection reads which types of a graph are declared. Climbs and walks look at types alone, so do the
queries made of them, and a rule asks no more than whether an interface is checked. So a declaration is reported
in the same way whatever the graph declares besides, as long as the same ids are checked.
-/

namespace ActorAudit

def Graph.redeclare (g : Graph) (ds : List TypeId) : Graph := { g with declarations := ds }

def Model.redeclare (m : Model) (ds : List TypeId) : Model := ⟨m.graph.redeclare ds, m.framework⟩

def Scope.redeclare (s : Scope) (ds checked : List TypeId) : Scope :=
  { s with model := s.model.redeclare ds, checked := checked }

/-! ## Queries -/

namespace Graph

variable (g : Graph) (ds : List TypeId)

@[simp] theorem get?_redeclare : (g.redeclare ds).get? = g.get? := rfl

@[simp] theorem size_redeclare : (g.redeclare ds).size = g.size := rfl

theorem climb_redeclare (seen : List TypeId) (next : Option TypeId) :
    (g.redeclare ds).climb seen next = g.climb seen next := by
  fun_induction climb g seen next with
  | case1 seen => rw [climb]
  | case2 seen id hs => rw [climb, dif_pos hs]
  | case3 seen id hs hd =>
    rw [climb, dif_neg hs]
    split
    · rfl
    · simp_all
  | case4 seen id hs d hd ih =>
    rw [climb, dif_neg hs]
    split <;> simp_all

@[simp] theorem lineage_redeclare : (g.redeclare ds).lineage = g.lineage := by
  funext id
  simp [lineage, climb_redeclare]

@[simp] theorem ancestors_redeclare : (g.redeclare ds).ancestors = g.ancestors := by
  funext id
  simp [ancestors, climb_redeclare]

variable {g} in
theorem Walks.redeclare {memo : Memo} {self : TypeId} {found stack all : List TypeId}
    (h : Walks g memo self found stack all) : Walks (g.redeclare ds) memo self found stack all := by
  induction h with
  | done => exact .done
  | skip hn _ ih => exact .skip hn ih
  | splice hn hk _ ih => exact .splice hn hk ih
  | expand hn hk _ ih => exact .expand hn hk ih

theorem walk_redeclare (memo : Memo) (self : TypeId) (found stack : List TypeId) :
    (g.redeclare ds).walk memo self found stack = g.walk memo self found stack :=
  (walks_walk _ memo self found stack).eq ((walks_walk g memo self found stack).redeclare ds)

@[simp] theorem interfacesOf_redeclare : (g.redeclare ds).interfacesOf = g.interfacesOf := by
  funext id
  simp [interfacesOf, flatten, walk_redeclare]

@[simp] theorem contractMethods_redeclare : (g.redeclare ds).contractMethods = g.contractMethods := by
  funext cls contracts
  simp [contractMethods, implementationOf, inheritedMethods]

@[simp] theorem occurrences_redeclare : (g.redeclare ds).occurrences = g.occurrences := rfl

theorem elementWithin_redeclare (steps : Nat) (id : TypeId) :
    (g.redeclare ds).elementWithin steps id = g.elementWithin steps id := by
  induction steps generalizing id with
  | zero => rfl
  | succ steps ih => simp [elementWithin, ih]

@[simp] theorem shownName_redeclare : (g.redeclare ds).shownName = g.shownName := by
  funext id
  simp [shownName, nameAt, elementWithin_redeclare]

end Graph

namespace Model

variable (m : Model) (ds : List TypeId)

@[simp] theorem graph_redeclare : (m.redeclare ds).graph = m.graph.redeclare ds := rfl

@[simp] theorem framework_redeclare : (m.redeclare ds).framework = m.framework := rfl

@[simp] theorem isMarker_redeclare : (m.redeclare ds).isMarker = m.isMarker := rfl

@[simp] theorem uncontracted?_redeclare : (m.redeclare ds).uncontracted? = m.uncontracted? := rfl

theorem role_redeclare : (m.redeclare ds).role = m.role := by
  have hactor : (m.redeclare ds).isActor = m.isActor := by
    funext id
    simp [isActor]
  funext id d
  simp only [role, hactor]

@[simp] theorem isMarked_redeclare : (m.redeclare ds).isMarked = m.isMarked := by
  funext id
  simp [isMarked]

@[simp] theorem classify_redeclare : (m.redeclare ds).classify = m.classify := by
  funext id
  simp [classify, computeClass, isCollection]

theorem awaitedWithin_redeclare (steps : Nat) (id : TypeId) :
    (m.redeclare ds).awaitedWithin steps id = m.awaitedWithin steps id := by
  induction steps generalizing id with
  | zero => rfl
  | succ steps ih => simp [awaitedWithin, ih]

@[simp] theorem exposureOf_redeclare : (m.redeclare ds).exposureOf = m.exposureOf := by
  funext o
  simp [exposureOf, awaited, awaitedWithin_redeclare]

@[simp] theorem surface_redeclare : (m.redeclare ds).surface = m.surface := by
  funext cls
  simp [surface, contracts, surfaceOccurrences]

@[simp] theorem isUnmarkedContract_redeclare :
    (m.redeclare ds).isUnmarkedContract = m.isUnmarkedContract := by
  funext id
  simp [isUnmarkedContract]

end Model

/-! ## Rules -/

namespace RuleId

variable (scope : Scope) (ds : List TypeId)

theorem recordFindingsFrom_redeclare (seen : List TypeId) (rest : List (TypeId × Classification × Exposure)) :
    recordFindingsFrom { scope with model := scope.model.redeclare ds } seen rest =
      recordFindingsFrom scope seen rest := by
  induction rest generalizing seen with
  | nil => rfl
  | cons p rest ih =>
    unfold recordFindingsFrom
    simp only [ih, Model.graph_redeclare, Graph.get?_redeclare]

theorem findings_redeclare (r : RuleId) :
    r.findings { scope with model := scope.model.redeclare ds } = r.findings scope := by
  cases r with
  | interfaceMarker => simp [findings, interfaceMarkerFindings, markerAdvice]
  | actorContract =>
    show actorContractFindings _ = actorContractFindings _
    unfold actorContractFindings
    dsimp only
    rw [Model.graph_redeclare, Graph.interfacesOf_redeclare, Model.isMarked_redeclare, Model.framework_redeclare]
  | parameterType => simp [findings, parameterTypeFindings, isUncontractedObject]
  | resultType => simp [findings, resultTypeFindings, isUncontractedObject]
  | elementType => simp [findings, elementTypeFindings, isUncontractedObject]
  | recordContract => exact congrArg pure (recordFindingsFrom_redeclare scope ds [] _)
  | _ => rfl

/-- Rules ask whether an id is checked, not where or how often. -/
theorem findings_of_mem_iff {checked : List TypeId} (h : ∀ i, i ∈ checked ↔ i ∈ scope.checked) (r : RuleId) :
    r.findings { scope with checked := checked } = r.findings scope := by
  by_cases hr : r = .interfaceMarker
  · subst hr
    simp [findings, interfaceMarkerFindings, markerAdvice, h]
  · exact findings_checked hr scope checked

end RuleId

/-! ## Runs -/

namespace Auditor

variable {m : Model} {checked checked' : List TypeId} (ds : List TypeId)

theorem applyRule_redeclare {scope : Scope} (h : ∀ i, i ∈ checked' ↔ i ∈ scope.checked) :
    applyRule (scope.redeclare ds checked') = applyRule scope := by
  funext r
  have hfindings : r.id.findings (scope.redeclare ds checked') = r.id.findings scope := by
    unfold Scope.redeclare
    rw [← RuleId.findings_of_mem_iff scope h]
    exact RuleId.findings_redeclare { scope with checked := checked' } ds r.id
  unfold applyRule
  rw [hfindings]
  rfl

variable (checked) in
theorem scopeOf_redeclare (d : Subject) (memo : Memo) : scopeOf (m.redeclare ds) checked' d memo =
    ((scopeOf m checked d memo).1.redeclare ds checked', (scopeOf m checked d memo).2) := by
  unfold scopeOf
  rw [Model.surface_redeclare]
  split <;> rfl

theorem examine_eq (rules : List Rule) (d : Subject) (memo : Memo) : examine m rules checked d memo =
    let scope := scopeOf m checked d memo
    let found := Query.each (applyRule scope.1) rules scope.2
    (⟨scope.1, found.1.flatten⟩, found.2) := rfl

section
variable (h : ∀ i, i ∈ checked' ↔ i ∈ checked)
include h

theorem examine_redeclare (rules : List Rule) (d : Subject) (memo : Memo) :
    (examine (m.redeclare ds) rules checked' d memo).1.violations =
        (examine m rules checked d memo).1.violations ∧
      (examine (m.redeclare ds) rules checked' d memo).2 = (examine m rules checked d memo).2 := by
  have hchecked : ∀ i, i ∈ checked' ↔ i ∈ (scopeOf m checked d memo).1.checked := by
    rw [scopeOf_fst]
    exact h
  rw [examine_eq, examine_eq, scopeOf_redeclare checked]
  dsimp only
  rw [applyRule_redeclare ds hchecked]
  exact ⟨rfl, rfl⟩

theorem violations_redeclare (rules : List Rule) (order : List Subject) (memo : Memo) :
    (examineAll (m.redeclare ds) rules checked' order memo).flatMap (·.violations) =
      (examineAll m rules checked order memo).flatMap (·.violations) := by
  refine flatMap_violations (Query.each_related (J := Eq) (P := Eq) (G := fun _ => True) ?_
    (List.forall₂_same.mpr fun _ _ => rfl) rfl fun _ _ => trivial)
  rintro d _ rfl memo _ rfl -
  exact examine_redeclare ds h rules d memo

end

end Auditor

end ActorAudit
