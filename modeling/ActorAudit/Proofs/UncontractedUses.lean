import ActorAudit.Proofs.Annotation
import ActorAudit.Proofs.Hindsight

/-!
# Uses of types without contracts

Three rules go through the uses of a surface one by one: `parameterType` and `resultType` look at the type of a use,
`elementType` at the elements of a collection. A use has elements only if its type is a collection, which is no
object; so for each use at most one of the rules has anything to say.
-/

namespace ActorAudit

namespace Model

/-- An object whose definition says nothing about serialization. -/
def Uncontracted (m : Model) (id : TypeId) (c : Classification) : Prop :=
  c = .complexObject ∧ ∃ d, m.graph.get? id = some d ∧ d.isSerializable = false

theorem isSome_uncontracted? {m : Model} {id : TypeId} :
    (m.uncontracted? id).isSome = true ↔ ∃ d, m.graph.get? id = some d ∧ d.isSerializable = false := by
  cases hd : m.graph.get? id <;> simp [uncontracted?, hd]

instance (m : Model) (id : TypeId) (c : Classification) : Decidable (m.Uncontracted id c) :=
  decidable_of_iff (c = .complexObject ∧ (m.uncontracted? id).isSome = true)
    (and_congr_right fun _ => isSome_uncontracted?)

end Model

theorem RuleId.isUncontractedObject_iff {scope : Scope} {id : TypeId} {c : Classification} :
    isUncontractedObject scope id c = true ↔ scope.model.Uncontracted id c := by
  simp [isUncontractedObject, Model.Uncontracted, Model.isSome_uncontracted?]

/-! ## What a use is made of -/

namespace Model

section
variable {m : Model} {I : Memo → Prop} {Q : TypeId → Classification → Prop}
  (hi : ∀ id, Query.Keeps I (m.graph.interfacesOf id) fun _ => True)
  (hc : ∀ id, Query.Keeps I (m.classify id) (Q id))
include hi hc

/-- A use has an element when its type is a collection, and each type in it comes with its classification. -/
theorem keeps_reached (o : Occurrence) : Query.Keeps I (m.exposureOf o) fun u =>
    u.element.map Prod.fst = u.classification.element? ∧ ∀ p ∈ u.reached, Q p.1 p.2 := by
  have h := Query.compositional_keeps hi fun id => (hc id).mono fun _ _ => trivial
  refine (h.awaitedWithin _ _).bind fun type _ => (hc type).bind fun c hQ => ?_
  cases helement : c.element? with
  | none => exact .pure ⟨helement.symm, by simpa [Exposure.reached] using hQ⟩
  | some e =>
    refine (hc e).bind fun ec hQe => .pure ⟨helement.symm, ?_⟩
    simpa [Exposure.reached] using ⟨hQ, hQe⟩

theorem keeps_scope (checked : List TypeId) (d : Subject) : Query.Keeps I (Auditor.scopeOf m checked d) fun scope =>
    ∀ u ∈ scope.surface, u.element.map Prod.fst = u.classification.element? ∧ ∀ p ∈ u.reached, Q p.1 p.2 := by
  have h := Query.compositional_keeps hi fun id => (hc id).mono fun _ _ => trivial
  unfold Auditor.scopeOf
  split
  · refine Query.Keeps.bind ((h.contracts d.id).bind fun cs _ => ?_) fun s hs => .pure hs
    exact Query.Keeps.each_forall fun o _ => keeps_reached hi hc o
  · exact .pure (by simp)

end

/-! ## Objects have definitions -/

/-- What the memo takes for objects are types of the graph. -/
def Grounded (m : Model) : Memo → Prop :=
  Memo.Holds (fun _ _ => True) fun id c => c = .complexObject → (m.graph.get? id).isSome = true

variable (m : Model)

theorem grounded_interfacesOf (id : TypeId) :
    Query.Keeps m.Grounded (m.graph.interfacesOf id) fun _ => True :=
  keeps_interfacesOf (fun _ _ _ _ => trivial) id

theorem grounded_classify (id : TypeId) :
    Query.Keeps m.Grounded (m.classify id) fun c => c = .complexObject → (m.graph.get? id).isSome = true := by
  refine keeps_classify m.grounded_interfacesOf (fun id all _ hc => ?_) id
  unfold classWith at hc
  cases hd : m.graph.get? id with
  | none =>
    rw [hd] at hc
    cases hc
  | some d => rfl

theorem grounded_lastMemo (rules : List Rule) (checked : List TypeId) (ds : List Subject) :
    m.Grounded (Auditor.lastMemo m rules checked ds .empty) := by
  have h := Query.compositional_keeps m.grounded_interfacesOf fun id =>
    (m.grounded_classify id).mono fun _ _ => trivial
  have hscope : ∀ d, Query.Keeps m.Grounded (Auditor.scopeOf m checked d) fun scope => scope.model = m :=
    fun d memo hm => ⟨(Auditor.scopeOf_frame m checked d memo).1, (h.scopeOf checked d memo hm).2⟩
  have hexamine : ∀ d, Query.Keeps m.Grounded (Auditor.examine m rules checked d) fun _ => True := fun d =>
    (hscope d).bind fun scope hs => (h.each (h.applyRule hs) rules).bind fun _ _ => .pure trivial
  exact (h.each hexamine ds .empty Memo.holds_empty).2

end Model

/-! ## One use -/

namespace RuleId

def perUse : List RuleId := [parameterType, resultType, elementType]

/-- The rule has something to say about a use. -/
def Concerns (m : Model) (u : Exposure) : RuleId → Prop
  | parameterType => u.site.isParameter = true ∧ m.Uncontracted u.type u.classification
  | resultType => u.site = .result ∧ m.Uncontracted u.type u.classification
  | elementType => ∃ e ∈ u.element, m.Uncontracted e.1 e.2
  | _ => False

instance (m : Model) (u : Exposure) : DecidablePred (Concerns m u)
  | parameterType => inferInstanceAs (Decidable (_ ∧ _))
  | resultType => inferInstanceAs (Decidable (_ ∧ _))
  | elementType => inferInstanceAs (Decidable (∃ e ∈ u.element, m.Uncontracted e.1 e.2))
  | interfaceMarker | enumMember | wireName | complexType | recordContract | actorContract | construction =>
    inferInstanceAs (Decidable False)

variable (scope : Scope) {r : RuleId} (hr : r ∈ perUse)
include hr

theorem findings_flatMap (memo : Memo) : (r.findings scope memo).1 =
    scope.surface.flatMap fun u => (r.findings { scope with surface := [u] } memo).1 := by
  simp only [perUse, List.mem_cons, List.not_mem_nil, or_false] at hr
  obtain rfl | rfl | rfl := hr
  · show parameterTypeFindings scope =
      scope.surface.flatMap fun u => parameterTypeFindings { scope with surface := [u] }
    simp [parameterTypeFindings, isUncontractedObject]
  · show resultTypeFindings scope = scope.surface.flatMap fun u => resultTypeFindings { scope with surface := [u] }
    simp [resultTypeFindings, isUncontractedObject]
  · show elementTypeFindings scope = scope.surface.flatMap fun u => elementTypeFindings { scope with surface := [u] }
    simp [elementTypeFindings, isUncontractedObject]

/-- The step: a use gives a finding at its place, if it has one and the rule concerns it. -/
theorem location_findings (u : Exposure) (memo : Memo) :
    (r.findings { scope with surface := [u] } memo).1.map (·.location) =
      if Concerns scope.model u r then u.location.toList else [] := by
  have hplace : ∀ (p : Prop) [Decidable p] (arguments : List String) (advice : String),
      (if p then Finding.place u.location arguments advice [] else []).map (·.location) =
        if p then u.location.toList else [] := by
    intro p _ arguments advice
    split
    · cases u.location <;> rfl
    · rfl
  have hobject : ∀ id c, isUncontractedObject { scope with surface := [u] } id c = true ↔
      scope.model.Uncontracted id c := fun _ _ => isUncontractedObject_iff
  simp only [perUse, List.mem_cons, List.not_mem_nil, or_false] at hr
  obtain rfl | rfl | rfl := hr
  · show (parameterTypeFindings { scope with surface := [u] }).map (·.location) = _
    unfold parameterTypeFindings
    cases hsite : u.site with
    | result => simp [hsite, Concerns, Site.isParameter]
    | parameter name => simp [hsite, Concerns, Site.isParameter, hplace, hobject]
  · show (resultTypeFindings { scope with surface := [u] }).map (·.location) = _
    unfold resultTypeFindings
    cases hsite : u.site with
    | result => simp [hsite, Concerns, hplace, hobject]
    | parameter name => simp [hsite, Concerns]
  · show (elementTypeFindings { scope with surface := [u] }).map (·.location) = _
    unfold elementTypeFindings
    cases helement : u.element with
    | none => simp [helement, Concerns]
    | some e => simp [helement, Concerns, hplace, hobject]

omit hr

/-- Of the rules one at most concerns a use, and one does when a type in the use needs a contract. -/
theorem flatMap_concerns (m : Model) {u : Exposure} (hu : u.element.map Prod.fst = u.classification.element?)
    {α : Type} (l : List α) : (perUse.flatMap fun r => if Concerns m u r then l else []) =
      if ∃ p ∈ u.reached, m.Uncontracted p.1 p.2 then l else [] := by
  by_cases hown : m.Uncontracted u.type u.classification
  · -- an object is not a collection, so there is no element to look at
    have helement : u.element = none := by simpa [hown.1, Classification.element?] using hu
    cases hsite : u.site <;> simp [perUse, Concerns, Exposure.reached, hown, helement, hsite, Site.isParameter]
  · cases helement : u.element <;> simp [perUse, Concerns, Exposure.reached, hown, helement]

end RuleId

/-! ## Surfaces -/

namespace Auditor

theorem applyRule_flatMap (scope : Scope) {r : Rule} (hr : r.id ∈ RuleId.perUse) (memo : Memo) :
    (applyRule scope r memo).1 =
      scope.surface.flatMap fun u => (applyRule { scope with surface := [u] } r memo).1 := by
  simp only [applyRule_fst]
  by_cases happlies : r.id.appliesTo scope.role = true
  · simp only [happlies, if_true]
    rw [RuleId.findings_flatMap _ hr, List.map_flatMap]
  · simp [happlies]

theorem location_applyRule {scope : Scope} (hrole : scope.role = .actorClass) {r : Rule}
    (hr : r.id ∈ RuleId.perUse) (u : Exposure) (memo : Memo) :
    (applyRule { scope with surface := [u] } r memo).1.map (·.location) =
      if RuleId.Concerns scope.model u r.id then u.location.toList else [] := by
  have happlies : r.id.appliesTo scope.role = true := by
    rw [hrole]
    revert hr
    cases r.id <;> decide
  rw [applyRule_fst, if_pos happlies, List.map_map]
  exact RuleId.location_findings scope hr u memo

theorem role_of_mem_surface {m : Model} {checked : List TypeId} {d : Subject} {memo : Memo} {u : Exposure}
    (hu : u ∈ (scopeOf m checked d memo).1.surface) : d.role = .actorClass := by
  by_contra hd
  unfold scopeOf at hu
  rw [if_neg hd] at hu
  cases hu

theorem length_flatMap_perUse {share : RuleId → Exposure → List Violation} {needy : Exposure → Prop}
    [DecidablePred needy] {s : Surface} (h : ∀ u ∈ s, (RuleId.perUse.flatMap fun r => (share r u).map (·.location)) =
      if needy u then u.location.toList else []) :
    (s.flatMap (share .parameterType)).length + (s.flatMap (share .resultType)).length +
      (s.flatMap (share .elementType)).length = s.countP fun u => u.location.isSome ∧ needy u := by
  induction s with
  | nil => rfl
  | cons u s ih =>
    obtain ⟨hu, hs⟩ := List.forall_mem_cons.mp h
    have hlength : (share .parameterType u).length + (share .resultType u).length + (share .elementType u).length =
        if u.location.isSome ∧ needy u then 1 else 0 := by
      have hplace : (if needy u then u.location.toList else []).length =
          if u.location.isSome ∧ needy u then 1 else 0 := by
        by_cases hneedy : needy u <;> cases u.location <;> simp [hneedy]
      rw [← hplace, ← hu]
      simp [RuleId.perUse, Nat.add_assoc]
    simp only [List.flatMap_cons, List.length_append, List.countP_cons, decide_eq_true_eq, ← ih hs, ← hlength]
    omega

/-- The rules that go through the uses one by one share the uses of a surface among them. What a rule says about a
surface is what it says about each use; a use with a place gives one violation, there, if its type or its element is
an object without a contract, to the rule that it concerns, and any other use gives none. So there are as many
violations as there are such uses. In a run, everything that is taken for an object has a definition. -/
theorem perUse_partition (m : Model) (checked : List TypeId) (d : Subject) (memo later : Memo)
    (severity : RuleId → Severity) :
    let scope := (scopeOf m checked d memo).1
    let output := fun r => (applyRule scope ⟨r, severity r⟩ later).1
    let share := fun r u => (applyRule { scope with surface := [u] } ⟨r, severity r⟩ later).1
    let needy := fun u : Exposure => ∃ p ∈ u.reached, m.Uncontracted p.1 p.2
    (∀ r ∈ RuleId.perUse, output r = scope.surface.flatMap (share r)) ∧
    (∀ u ∈ scope.surface,
      (∀ r ∈ RuleId.perUse,
        (share r u).map (·.location) = if RuleId.Concerns m u r then u.location.toList else []) ∧
      (RuleId.perUse.flatMap fun r => (share r u).map (·.location)) =
        if needy u then u.location.toList else []) ∧
    (output .parameterType).length + (output .resultType).length + (output .elementType).length =
      scope.surface.countP (fun u => u.location.isSome ∧ needy u) ∧
    ∀ (rules : List Rule) (earlier : List Subject),
      ∀ u ∈ (scopeOf m checked d (lastMemo m rules checked earlier .empty)).1.surface,
        ∀ p ∈ u.reached, p.2 = .complexObject → (m.graph.get? p.1).isSome = true := by
  intro scope output share needy
  obtain ⟨hmodel, _, hrole⟩ := scopeOf_frame m checked d memo
  have hflat : ∀ r ∈ RuleId.perUse, output r = scope.surface.flatMap (share r) :=
    fun r hr => applyRule_flatMap scope (r := ⟨r, severity r⟩) hr later
  have hplain : ∀ u ∈ scope.surface, u.element.map Prod.fst = u.classification.element? := by
    have hany : ∀ {α : Type} (q : Query α), Query.Keeps (fun _ => True) q fun _ => True :=
      fun _ _ _ => ⟨trivial, trivial⟩
    intro u hu
    exact ((Model.keeps_scope (fun _ => hany _) (fun _ => hany _) checked d memo trivial).1 u hu).1
  have hshare : ∀ u ∈ scope.surface, ∀ r ∈ RuleId.perUse,
      (share r u).map (·.location) = if RuleId.Concerns m u r then u.location.toList else [] := by
    intro u hu r hr
    have hlocation := location_applyRule (hrole.trans (role_of_mem_surface hu)) (r := ⟨r, severity r⟩) hr u later
    exact hlocation.trans (by rw [hmodel])
  have hcombined : ∀ u ∈ scope.surface, (RuleId.perUse.flatMap fun r => (share r u).map (·.location)) =
      if needy u then u.location.toList else [] := by
    intro u hu
    rw [List.flatMap_congr (hshare u hu)]
    exact RuleId.flatMap_concerns m (hplain u hu) _
  refine ⟨hflat, fun u hu => ⟨hshare u hu, hcombined u hu⟩, ?_, fun rules earlier => ?_⟩
  · rw [hflat .parameterType (by decide), hflat .resultType (by decide), hflat .elementType (by decide)]
    exact length_flatMap_perUse hcombined
  · have hgrounded := m.grounded_lastMemo rules checked earlier
    intro u hu
    exact ((Model.keeps_scope m.grounded_interfacesOf m.grounded_classify checked d _ hgrounded).1 u hu).2

/-! In the ledger an entry is a result, a parameter and an element; the receipt is a record. -/

example : ((scopeOf ⟨Graph.ledger, {}⟩ [] ⟨⟨3⟩, Graph.ledger.types[3], .actorClass⟩).fresh.surface.map fun u =>
    RuleId.perUse.filter (RuleId.Concerns ⟨Graph.ledger, {}⟩ u ·)) =
      [[.resultType], [], [.parameterType], [.elementType]] := by cbv

end Auditor

end ActorAudit
