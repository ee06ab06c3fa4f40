import ActorAudit.Proofs.Exclusions
import ActorAudit.Proofs.Hindsight
import ActorAudit.Proofs.Severities

/-!
# Contracts without the marker

Which violations of `interfaceMarker` a report has, and where. A checked interface answers for itself, an actor
class for the interfaces it lists that are not checked. On a well-formed graph the interfaces in question are those
from which the marker cannot be reached; on any other graph, those that the run takes for unmarked.
-/

namespace ActorAudit

/-! ## The message -/

namespace Template

theorem pieces_append (arity : Nat) {text : List Char} (h : '\x7b' ∉ text) (rest : List Char) :
    pieces arity (text ++ rest) = text.map .literal ++ pieces arity rest := by
  induction text with
  | nil => rfl
  | cons c text ih =>
    simp only [List.mem_cons, not_or] at h
    rw [List.cons_append, pieces, if_neg (Ne.symm h.1), ih h.2]
    rfl

theorem flatMap_text_literal (args : List String) (text : List Char) :
    (text.map Piece.literal).flatMap (Piece.text args) = text := by
  induction text with
  | nil => rfl
  | cons c text ih => simp [Piece.text, ih]

theorem fill_single (before after : String) (hb : '\x7b' ∉ before.toList) (ha : '\x7b' ∉ after.toList)
    (name : String) : fill (before ++ "\x7b0\x7d" ++ after) [name] = before ++ name ++ after := by
  have hslot : slot? 1 ('0' :: '\x7d' :: after.toList) = some (0, after.toList) := by
    simp [slot?, upToBrace, index?, digits?]
  have hlast : pieces 1 after.toList = after.toList.map .literal := by
    simpa [pieces] using pieces_append 1 ha []
  have hpieces : pieces 1 (before ++ "\x7b0\x7d" ++ after).toList =
      before.toList.map .literal ++ .slot 0 :: after.toList.map .literal := by
    rw [String.toList_append, String.toList_append, List.append_assoc, pieces_append 1 hb]
    show _ ++ pieces 1 ('\x7b' :: '0' :: '\x7d' :: after.toList) = _
    rw [pieces, if_pos rfl]
    split
    · rename_i n rest h
      rw [hslot] at h
      cases h
      rw [hlast]
    · rename_i h
      rw [hslot] at h
      cases h
  unfold fill
  rw [List.length_singleton, hpieces, List.flatMap_append, List.flatMap_cons, flatMap_text_literal,
    flatMap_text_literal]
  show String.ofList (before.toList ++ (name.toList ++ after.toList)) = _
  simp [String.append_assoc]

end Template

namespace RuleId

def markerMessage (name : String) : String :=
  s!"Interface '{name}' used by Actor class should inherit from IActor"

theorem fill_interfaceMarker (name : String) :
    Template.fill interfaceMarker.template [name] = markerMessage name :=
  Template.fill_single "Interface '" "' used by Actor class should inherit from IActor" (by decide) (by decide) name

end RuleId

/-! ## Unmarked contracts -/

namespace Model

/-- An interface with the name of a contract that is not the marker and does not derive from it, in a given
sense of deriving. -/
def LacksMarker (m : Model) (Derives : TypeId → Prop) (id : TypeId) : Prop :=
  ∃ d, m.graph.get? id = some d ∧ d.kind = .interfaceType ∧
    m.framework.contractSuffix.toList <:+ d.name.toList ∧ d.is m.framework.marker = false ∧ ¬Derives id

/-- The marker can be reached through the interfaces of a type and of its ancestors. -/
def ReachesMarker (m : Model) (id : TypeId) : Prop := ∃ x, m.graph.Inherits id x ∧ m.isMarker x = true

variable {m : Model}

theorem isUnmarkedContract_iff (id : TypeId) (memo : Memo) : (m.isUnmarkedContract id memo).1 = true ↔
    m.LacksMarker (fun i => (m.isMarked i memo).1 = true) id := by
  unfold isUnmarkedContract LacksMarker isMarker
  cases hd : m.graph.get? id with
  | none =>
    simp only [reduceCtorEq, false_and, exists_false, iff_false]
    exact Bool.false_ne_true
  | some d =>
    simp only [Option.any_some, Option.some.injEq, exists_eq_left']
    split
    · rename_i hname
      simp only [Bool.and_eq_true, decide_eq_true_eq, List.isSuffixOf_iff_suffix, Bool.not_eq_true'] at hname
      have hanswer : ((do let derived ← m.isMarked id; return !derived) memo).1 = !(m.isMarked id memo).1 := rfl
      rw [hanswer]
      simp [hname]
    · rename_i hname
      constructor
      · intro h
        cases h
      · intro ⟨hkind, hsuffix, his, _⟩
        simp [hkind, hsuffix, his] at hname

theorem lacksMarker_congr {P Q : TypeId → Prop} {id : TypeId} (h : m.isMarker id = false → (P id ↔ Q id)) :
    m.LacksMarker P id ↔ m.LacksMarker Q id := by
  have hboth : ∀ d, m.graph.get? id = some d → d.is m.framework.marker = false → (¬P id ↔ ¬Q id) := by
    intro d hd his
    rw [h (by simpa [isMarker, hd] using his)]
  unfold LacksMarker
  constructor
  · intro ⟨d, hd, hkind, hsuffix, his, hp⟩
    exact ⟨d, hd, hkind, hsuffix, his, (hboth d hd his).mp hp⟩
  · intro ⟨d, hd, hkind, hsuffix, his, hq⟩
    exact ⟨d, hd, hkind, hsuffix, his, (hboth d hd his).mpr hq⟩

theorem isMarked_iff_reachesMarker (hg : m.graph.WellFormed) {memo : Memo} (hr : m.Right memo) {id : TypeId}
    (hid : m.isMarker id = false) : (m.isMarked id memo).1 = true ↔ m.ReachesMarker id := by
  refine (keeps_isMarked_of_wellFormed hg id memo hr).1.trans ?_
  constructor
  · intro ⟨x, _, hx⟩
    exact ⟨x, hx⟩
  · intro ⟨x, hx, hm⟩
    refine ⟨x, ?_, hx, hm⟩
    intro he
    rw [he, hid] at hm
    cases hm

end Model

/-! ## What the rule says about a declaration -/

namespace RuleId

/-- A finding of `interfaceMarker` at a place, with a message. -/
def Says (fs : List Finding) (l : Location) (text : String) : Prop :=
  ∃ f ∈ fs, f.location = l ∧ Template.fill interfaceMarker.template f.arguments = text

theorem says_place (location : Option Location) (name advice : String) (ls : List Label) (l : Location)
    (text : String) : Says (Finding.place location [name] advice ls) l text ↔
      location = some l ∧ text = markerMessage name := by
  cases location <;> simp [Says, Finding.place, fill_interfaceMarker, eq_comm]

section
variable {scope : Scope} {last : Memo} {fs : List Finding} (h : Query.Known last (interfaceMarkerFindings scope) fs)
  (l : Location) (text : String)
include h

/-- In hindsight, an interface has a finding about itself or none. -/
theorem says_of_interface (hrole : scope.role = .interface) : Says fs l text ↔
    scope.definition.location = some l ∧ (scope.model.isUnmarkedContract scope.id last).1 = true ∧
      text = markerMessage scope.definition.name := by
  have hrepeats := (Query.compositional_repeats scope.model).isUnmarkedContract
  unfold interfaceMarkerFindings at h
  simp only [hrole, if_true] at h
  have hrest : ∀ b : Bool, Query.Repeats (if b = true then
      pure (Finding.place scope.definition.location [scope.definition.name]
        (markerAdvice scope scope.definition.name) []) else pure []) := by
    intro b
    cases b <;> exact .pure _
  obtain ⟨_, h⟩ := Query.Known.of_bind (hrepeats _) (hrest _) h
  cases hb : (scope.model.isUnmarkedContract scope.id last).1 with
  | true =>
    rw [hb] at h
    have hfs : Finding.place scope.definition.location [scope.definition.name] _ [] = fs := congrArg Prod.fst h.eq
    rw [← hfs, says_place]
    simp
  | false =>
    rw [hb] at h
    have hfs : [] = fs := congrArg Prod.fst h.eq
    simp [← hfs, Says]

/-- In hindsight, a class has a finding about each unmarked contract that it lists and that is not checked. -/
theorem says_of_class (hrole : scope.role ≠ .interface) : Says fs l text ↔
    scope.definition.location = some l ∧ ∃ i ∈ scope.definition.interfaces, i ∉ scope.checked ∧
      (scope.model.isUnmarkedContract i last).1 = true ∧ text = markerMessage (scope.model.graph.nameAt i) := by
  have hrepeats := (Query.compositional_repeats scope.model).isUnmarkedContract
  unfold interfaceMarkerFindings at h
  simp only [hrole, if_false] at h
  obtain ⟨hfilter, hfs⟩ := Query.Known.of_map (Query.repeats_filter hrepeats _) h
  rw [Query.Known.of_filter hrepeats hfilter] at hfs
  have hmem : ∀ i, i ∈ (scope.definition.interfaces.filter fun i => !scope.checked.contains i).filter
      (fun i => (scope.model.isUnmarkedContract i last).1) ↔
      i ∈ scope.definition.interfaces ∧ i ∉ scope.checked ∧ (scope.model.isUnmarkedContract i last).1 = true := by
    intro i
    rw [List.mem_filter, List.mem_filter]
    simp [and_assoc]
  rw [hfs]
  constructor
  · intro hsays
    obtain ⟨f, hf, hsaid⟩ := hsays
    obtain ⟨i, hi, hf⟩ := List.mem_flatMap.mp hf
    obtain ⟨hi, hc, hu⟩ := (hmem i).mp hi
    obtain ⟨e, he, _⟩ := (Model.isUnmarkedContract_iff i last).mp hu
    simp only [he] at hf
    obtain ⟨hl, htext⟩ := (says_place _ _ _ _ l text).mp ⟨f, hf, hsaid⟩
    exact ⟨hl, i, hi, hc, hu, by rw [htext, Graph.nameAt, he]⟩
  · intro hdue
    obtain ⟨hl, i, hi, hc, hu, htext⟩ := hdue
    obtain ⟨e, he, _⟩ := (Model.isUnmarkedContract_iff i last).mp hu
    rw [Graph.nameAt, he] at htext
    obtain ⟨f, hf, hsaid⟩ := (says_place scope.definition.location e.name (markerAdvice scope e.name)
      (e.location.toList.map fun l => ⟨l, "declared here"⟩) l text).mpr ⟨hl, htext⟩
    refine ⟨f, List.mem_flatMap.mpr ⟨i, (hmem i).mpr ⟨hi, hc, hu⟩, ?_⟩, hsaid⟩
    simpa only [he] using hf

end

end RuleId

/-! ## What a run says -/

namespace Auditor

theorem exists_violation_of_rule {scope : Scope} {r : Rule} (hr : r.id = .interfaceMarker) {last : Memo}
    {vs : List Violation} (h : Query.Known last (applyRule scope r) vs) (l : Location) (text : String) :
    (∃ v ∈ vs, v.location = l ∧ v.message = text) ↔ scope.definition.location = some l ∧
      (scope.role = .interface ∧ (scope.model.isUnmarkedContract scope.id last).1 = true ∧
        text = RuleId.markerMessage scope.definition.name ∨
      scope.role = .actorClass ∧ ∃ i ∈ scope.definition.interfaces, i ∉ scope.checked ∧
        (scope.model.isUnmarkedContract i last).1 = true ∧
        text = RuleId.markerMessage (scope.model.graph.nameAt i)) := by
  have hmap : ∀ fs : List Finding, (∃ v ∈ fs.map (Finding.toViolation .interfaceMarker r.severity),
      v.location = l ∧ v.message = text) ↔ RuleId.Says fs l text := by
    simp [Finding.toViolation, RuleId.Says]
  by_cases hi : scope.role = .interface
  · obtain ⟨hfs, hvs⟩ := findings_of_known (by simp [hr, RuleId.appliesTo, hi]) h
    rw [hr] at hfs hvs
    rw [hvs, hmap, RuleId.says_of_interface hfs l text hi]
    simp [hi]
  by_cases ha : scope.role = .actorClass
  · obtain ⟨hfs, hvs⟩ := findings_of_known (by simp [hr, RuleId.appliesTo, ha]) h
    rw [hr] at hfs hvs
    rw [hvs, hmap, RuleId.says_of_class hfs l text hi]
    simp [ha]
  · have hvs : [] = vs := by
      unfold applyRule at h
      rw [if_neg (by simp [hr, RuleId.appliesTo, hi, ha])] at h
      exact congrArg Prod.fst h.eq
    simp [← hvs, hi, ha]

/-- The step: what is said about a declaration under the code of `interfaceMarker`, in hindsight. -/
theorem exists_violation_of_subject {m : Model} {rules : List Rule} {checked : List TypeId} {last : Memo}
    {d : Subject} {e : Examination} (h : Query.Known last (examine m rules checked d) e)
    (hrule : RuleId.interfaceMarker ∈ rules.map (·.id)) (l : Location) (text : String) :
    (∃ v ∈ e.violations, v.code = "DAPR1405" ∧ v.location = l ∧ v.message = text) ↔
      d.definition.location = some l ∧
      (d.role = .interface ∧ (m.isUnmarkedContract d.id last).1 = true ∧
        text = RuleId.markerMessage d.definition.name ∨
      d.role = .actorClass ∧ ∃ i ∈ d.definition.interfaces, i ∉ checked ∧
        (m.isUnmarkedContract i last).1 = true ∧ text = RuleId.markerMessage (m.graph.nameAt i)) := by
  obtain ⟨hscope, hrules, hviolations⟩ := known_examine h
  have hframe := scopeOf_fst m checked d last
  rw [hscope.eq] at hframe
  replace hframe : e.scope = ⟨m, d.id, d.definition, d.role, e.scope.surface, checked⟩ := hframe
  have hstep : ∀ r ∈ rules, r.id = .interfaceMarker → _ := fun r hr hid =>
    exists_violation_of_rule hid (hrules r hr) l text
  rw [hframe] at hstep
  rw [hviolations]
  constructor
  · intro ⟨v, hv, hcode, hsaid⟩
    obtain ⟨r, hr, hv⟩ := List.mem_flatMap.mp hv
    have hid : r.id = .interfaceMarker := RuleId.code_injective ((code_of_mem_applyRule hv).symm.trans hcode)
    rw [hframe] at hv
    exact (hstep r hr hid).mp ⟨v, hv, hsaid⟩
  · intro hdue
    obtain ⟨r, hr, hid⟩ := List.mem_map.mp hrule
    obtain ⟨v, hv, hsaid⟩ := (hstep r hr hid).mpr hdue
    rw [← hframe] at hv
    refine ⟨v, List.mem_flatMap.mpr ⟨r, hr, hv⟩, ?_, hsaid⟩
    rw [code_of_mem_applyRule hv, hid]
    rfl

/-- What is to be said about unmarked contracts, and where: about a checked one at its own place, about any other
at the place of each checked actor class that lists it. -/
def MarkerDue (a : Auditor) (g : Graph) (Unmarked : TypeId → Prop) (l : Location) (text : String) : Prop :=
  (∃ d ∈ a.select g, Unmarked d.id ∧ d.definition.location = some l ∧
    text = RuleId.markerMessage d.definition.name) ∨
  ∃ d ∈ a.select g, d.role = .actorClass ∧ d.definition.location = some l ∧
    ∃ i ∈ d.definition.interfaces, i ∉ (a.select g).map (·.id) ∧ Unmarked i ∧
      text = RuleId.markerMessage (g.nameAt i)

/-- An interface is unmarked by the answers that a run ends with. -/
def UnmarkedAfter (a : Auditor) (g : Graph) (order : List Subject) : TypeId → Prop :=
  (a.model g).LacksMarker fun i => ((a.model g).isMarked i
    (lastMemo (a.model g) a.activeRules ((a.select g).map (·.id)) order .empty)).1 = true

theorem role_of_lacksMarker {a : Auditor} {g : Graph} {d : Subject} (hd : d ∈ a.select g) {P : TypeId → Prop}
    (h : (a.model g).LacksMarker P d.id) : d.role = .interface := by
  obtain ⟨e, he, hkind, _⟩ := h
  have heq : d.definition = e := Option.some.inj ((mem_select hd).2.symm.trans he)
  rw [role_of_mem_select hd, heq]
  simp [Model.role, hkind]

section
variable {a : Auditor} {g : Graph} {order : List Subject} (horder : order.Perm (a.select g))
  (hrule : RuleId.interfaceMarker ∈ a.activeRules.map (·.id))
include horder hrule

theorem exists_violation_iff (l : Location) (text : String) :
    (∃ v ∈ (a.examinationsIn g order).flatMap (·.violations), v.code = "DAPR1405" ∧ v.location = l ∧
      v.message = text) ↔ a.MarkerDue g (a.UnmarkedAfter g order) l text := by
  obtain ⟨hknown, hrun⟩ := known_examineAll (a.model g) a.activeRules ((a.select g).map (·.id)) order .empty
  have hstep : ∀ d ∈ order, _ := fun d hd => exists_violation_of_subject (hknown d hd) hrule l text
  have hunmarked := fun i => Model.isUnmarkedContract_iff (m := a.model g) i
    (lastMemo (a.model g) a.activeRules ((a.select g).map (·.id)) order .empty)
  unfold examinationsIn
  rw [hrun]
  constructor
  · intro ⟨v, hv, hsaid⟩
    obtain ⟨e, he, hv⟩ := List.mem_flatMap.mp hv
    obtain ⟨d, hd, rfl⟩ := List.mem_map.mp he
    have hsel := horder.subset hd
    obtain ⟨hl, ⟨_, hu, htext⟩ | ⟨hrole, i, hi, hc, hu, htext⟩⟩ := (hstep d hd).mp ⟨v, hv, hsaid⟩
    · exact .inl ⟨d, hsel, (hunmarked d.id).mp hu, hl, htext⟩
    · exact .inr ⟨d, hsel, hrole, hl, i, hi, hc, (hunmarked i).mp hu, htext⟩
  · intro hdue
    have hsome : ∃ d ∈ order, ∃ v ∈ (examine (a.model g) a.activeRules ((a.select g).map (·.id)) d
        (lastMemo (a.model g) a.activeRules ((a.select g).map (·.id)) order .empty)).1.violations,
          v.code = "DAPR1405" ∧ v.location = l ∧ v.message = text := by
      rcases hdue with ⟨d, hd, hu, hl, htext⟩ | ⟨d, hd, hrole, hl, i, hi, hc, hu, htext⟩
      · have hmem := horder.symm.subset hd
        exact ⟨d, hmem, (hstep d hmem).mpr ⟨hl, .inl ⟨role_of_lacksMarker hd hu, (hunmarked _).mpr hu, htext⟩⟩⟩
      · have hmem := horder.symm.subset hd
        exact ⟨d, hmem, (hstep d hmem).mpr ⟨hl, .inr ⟨hrole, i, hi, hc, (hunmarked i).mpr hu, htext⟩⟩⟩
    obtain ⟨d, hd, v, hv, hsaid⟩ := hsome
    exact ⟨v, List.mem_flatMap.mpr ⟨_, List.mem_map.mpr ⟨d, hd, rfl⟩, hv⟩, hsaid⟩

/-- A report says about unmarked contracts what the run that led to it does, once. -/
theorem report_says_iff :
    (∀ v ∈ (a.auditIn g order).violations, v.code = "DAPR1405" →
      a.MarkerDue g (a.UnmarkedAfter g order) v.location v.message) ∧
    ∀ l text, a.MarkerDue g (a.UnmarkedAfter g order) l text → ∃ v ∈ (a.auditIn g order).violations,
      v.code = "DAPR1405" ∧ v.location.same l = true ∧ v.message = text := by
  constructor
  · intro v hv hcode
    exact (exists_violation_iff horder hrule _ _).mp ⟨v, Violation.mem_of_mem_settle hv, hcode, rfl, rfl⟩
  · intro l text hdue
    obtain ⟨v, hv, hcode, hl, htext⟩ := (exists_violation_iff horder hrule l text).mpr hdue
    obtain ⟨w, hw, hvw⟩ := Violation.exists_mem_settle hv
    have hwv := Violation.sameIdentity_symm hvw
    simp only [Violation.sameIdentity, Bool.and_eq_true, beq_iff_eq, hcode, hl, htext] at hwv
    exact ⟨w, hw, hwv.1.1, hwv.1.2, hwv.2⟩

end

/-! ## Reports on well-formed graphs -/

theorem unmarkedAfter_iff (a : Auditor) {g : Graph} (hg : g.WellFormed) (order : List Subject) (i : TypeId) :
    a.UnmarkedAfter g order i ↔ (a.model g).LacksMarker (a.model g).ReachesMarker i := by
  have hlast := (Query.Keeps.each (fun d (_ : d ∈ order) =>
    keeps_examine (m := a.model g) hg a.activeRules ((a.select g).map (·.id)) d) _ Model.right_empty).2
  exact Model.lacksMarker_congr fun hi => Model.isMarked_iff_reachesMarker hg hlast hi

/-- On a well-formed graph, the violations of `interfaceMarker` are exactly those that are due to the interfaces
from which the marker cannot be reached. -/
theorem audit_interfaceMarker {a : Auditor} {g : Graph} (hg : g.WellFormed)
    (hrule : RuleId.interfaceMarker ∈ a.rules.map (·.id)) (hon : a.settings.isEnabled .interfaceMarker = true)
    {order : List Subject} (horder : order.Perm (a.select g)) :
    let Unmarked := (a.model g).LacksMarker (a.model g).ReachesMarker
    (∀ v ∈ (a.auditIn g order).violations, v.code = "DAPR1405" → a.MarkerDue g Unmarked v.location v.message) ∧
    ∀ l text, a.MarkerDue g Unmarked l text → ∃ v ∈ (a.auditIn g order).violations,
      v.code = "DAPR1405" ∧ v.location.same l = true ∧ v.message = text := by
  intro Unmarked
  have hsame : a.UnmarkedAfter g order = Unmarked := funext fun i => propext (a.unmarkedAfter_iff hg order i)
  rw [← hsame]
  exact report_says_iff horder (a.interfaceMarker_mem_activeRules.mpr ⟨hon, hrule⟩)

/-- The contract of the depot is reported at the class while generated files are left out, and otherwise where it
is declared. -/
theorem audit_interfaceMarker_depot :
    let a : Auditor := ⟨Rule.all, [], {}, .error⟩
    let b : Auditor := ⟨Rule.all, [], { audit := { excludeGenerated := false } }, .error⟩
    let text := "Interface 'IDepotActor' used by Actor class should inherit from IActor"
    depot.WellFormed ∧ RuleId.interfaceMarker ∈ a.rules.map (·.id) ∧
    a.settings.isEnabled .interfaceMarker = true ∧ b.settings.isEnabled .interfaceMarker = true ∧
    (∃ v ∈ (a.audit depot).violations, v.code = "DAPR1405" ∧ v.location.same ⟨"Depot.cs", 1, 1⟩ = true ∧
      v.message = text) ∧
    ∃ v ∈ (b.audit depot).violations, v.code = "DAPR1405" ∧ v.location.same ⟨"Depot.g.cs", 1, 1⟩ = true ∧
      v.message = text := by
  intro a b text
  have hunmarked : Model.LacksMarker ⟨depot, {}⟩ (Model.ReachesMarker ⟨depot, {}⟩) ⟨1⟩ := by
    refine ⟨depot.types[1], rfl, rfl, by decide, by decide, fun hreach => ?_⟩
    obtain ⟨x, _, hx⟩ := hreach
    obtain ⟨e, he, hname, _⟩ := Model.isMarker_iff.mp hx
    have hall : ∀ e ∈ depot.types.toList, e.name ≠ "IActor" := by decide
    exact hall e (Graph.mem_types_of_get? he) hname
  have ha : a.select depot = [⟨⟨2⟩, depot.types[2], .actorClass⟩] := by cbv
  have hb : b.select depot = ⟨⟨1⟩, depot.types[1], .interface⟩ :: a.select depot := by cbv
  have hrule : RuleId.interfaceMarker ∈ Rule.all.map (·.id) := by decide
  have hon : a.settings.isEnabled .interfaceMarker = true := by decide
  have hon' : b.settings.isEnabled .interfaceMarker = true := by decide
  have hclass : a.MarkerDue depot (Model.LacksMarker ⟨depot, {}⟩ (Model.ReachesMarker ⟨depot, {}⟩))
      ⟨"Depot.cs", 1, 1⟩ text := by
    refine .inr ⟨⟨⟨2⟩, depot.types[2], .actorClass⟩, by simp [ha], rfl, rfl, ⟨1⟩, by decide, ?_, hunmarked, by decide⟩
    rw [ha]
    decide
  have hown : b.MarkerDue depot (Model.LacksMarker ⟨depot, {}⟩ (Model.ReachesMarker ⟨depot, {}⟩))
      ⟨"Depot.g.cs", 1, 1⟩ text :=
    .inl ⟨⟨⟨1⟩, depot.types[1], .interface⟩, by simp [hb], hunmarked, rfl, by decide⟩
  exact ⟨depot_wellFormed, hrule, hon, hon',
    (audit_interfaceMarker (a := a) depot_wellFormed hrule hon (.refl _)).2 _ _ hclass,
    (audit_interfaceMarker (a := b) depot_wellFormed hrule hon' (.refl _)).2 _ _ hown⟩

/-! ## Reports on any graph -/

/-- On any graph, an unmarked contract that a checked actor class lists is reported, at the class or where it is
declared, as long as a contract that is checked itself has a place. Unmarked is what the run takes for unmarked. -/
theorem exists_violation_naming {a : Auditor} {g : Graph} (hrule : RuleId.interfaceMarker ∈ a.rules.map (·.id))
    (hon : a.settings.isEnabled .interfaceMarker = true) {order : List Subject} (horder : order.Perm (a.select g))
    {d : Subject} (hd : d ∈ a.select g) (hrole : d.role = .actorClass) {l : Location}
    (hl : d.definition.location = some l) {i : TypeId} (hi : i ∈ d.definition.interfaces)
    (hunmarked : a.UnmarkedAfter g order i)
    (hplace : i ∈ (a.select g).map (·.id) → ((g.get? i).bind (·.location)).isSome = true) :
    ∃ v ∈ (a.auditIn g order).violations, v.code = "DAPR1405" ∧
      v.message = RuleId.markerMessage (g.nameAt i) ∧
      (v.location.same l = true ∨ ∃ l', (g.get? i).bind (·.location) = some l' ∧ v.location.same l' = true) := by
  have hsays := (report_says_iff horder (a.interfaceMarker_mem_activeRules.mpr ⟨hon, hrule⟩)).2
  by_cases hchecked : i ∈ (a.select g).map (·.id)
  · -- the interface answers for itself
    obtain ⟨l', hl'⟩ := Option.isSome_iff_exists.mp (hplace hchecked)
    obtain ⟨e, he, hid⟩ := List.mem_map.mp hchecked
    have hget : g.get? i = some e.definition := by rw [← hid, (mem_select he).2]
    have hdue : a.MarkerDue g (a.UnmarkedAfter g order) l' (RuleId.markerMessage (g.nameAt i)) := by
      refine .inl ⟨e, he, by rw [hid]; exact hunmarked, by simpa [hget] using hl', ?_⟩
      rw [Graph.nameAt, hget]
    obtain ⟨v, hv, hcode, hsame, htext⟩ := hsays _ _ hdue
    exact ⟨v, hv, hcode, htext, .inr ⟨l', hl', hsame⟩⟩
  · obtain ⟨v, hv, hcode, hsame, htext⟩ := hsays l _ (.inr ⟨d, hd, hrole, hl, i, hi, hchecked, hunmarked, rfl⟩)
    exact ⟨v, hv, hcode, htext, .inl hsame⟩

/-! ### A contract on the shelf

A checked contract without the marker and a class that implements it. The place of the contract may be unknown. -/

def shelfContract (place : Option Location) : TypeSymbol :=
  { name := "IShelfActor", kind := .interfaceType, location := place }

def shelfActor : TypeSymbol :=
  { name := "ShelfActor", kind := .classType, baseType := some ⟨0⟩, interfaces := [⟨1⟩],
    location := some ⟨"Shelf.cs", 3, 1⟩ }

def shelf (place : Option Location) : Graph where
  types := #[{ name := "Actor", inNamespace := some "Dapr.Actors.Runtime", kind := .classType },
    shelfContract place, shelfActor]
  declarations := [⟨1⟩, ⟨2⟩]

def shelfAuditor : Auditor := ⟨Rule.all, [], {}, .error⟩

theorem select_shelf (place : Option Location) : shelfAuditor.select (shelf place) =
    [⟨⟨1⟩, shelfContract place, .interface⟩, ⟨⟨2⟩, shelfActor, .actorClass⟩] := by
  cases place <;> cbv

theorem unmarkedAfter_shelf (place : Option Location) (order : List Subject) :
    shelfAuditor.UnmarkedAfter (shelf place) order ⟨1⟩ := by
  have hsuffix : "Actor".toList <:+ "IShelfActor".toList := by decide
  refine ⟨shelfContract place, rfl, rfl, hsuffix, rfl, fun hmarked => ?_⟩
  obtain ⟨x, _, hx⟩ := List.any_eq_true.mp hmarked
  obtain ⟨e, he, hname, _⟩ := Model.isMarker_iff.mp hx
  have hmem : e ∈ (shelf place).types.toList := Graph.mem_types_of_get? he
  replace hname : e.name = "IActor" := hname
  simp only [shelf, List.mem_cons, List.not_mem_nil, or_false] at hmem
  rcases hmem with he | he | he <;> simp [he, shelfContract, shelfActor] at hname

/-- A contract that is checked but has no place is reported nowhere, although a class with a place lists it. -/
theorem shelf_unreported : ∃ d ∈ shelfAuditor.select (shelf none), d.role = .actorClass ∧
    d.definition.location.isSome = true ∧ ∃ i ∈ d.definition.interfaces,
      shelfAuditor.UnmarkedAfter (shelf none) (shelfAuditor.select (shelf none)) i ∧
      ∀ v ∈ (shelfAuditor.audit (shelf none)).violations, v.code ≠ "DAPR1405" := by
  refine ⟨⟨⟨2⟩, shelfActor, .actorClass⟩, by simp [select_shelf], rfl, rfl, ⟨1⟩, by decide, unmarkedAfter_shelf _ _, ?_⟩
  intro v hv hcode
  rcases (report_says_iff (.refl _) (by decide)).1 v hv hcode with ⟨d, hd, hu, hl, _⟩ | ⟨d, hd, hrole, _, i, hi, hc, _⟩
  · have hrole := role_of_lacksMarker hd hu
    rw [select_shelf] at hd
    simp at hd
    rcases hd with rfl | rfl
    · cases hl
    · cases hrole
  · rw [select_shelf] at hd hc
    simp at hd
    rcases hd with rfl | rfl
    · cases hrole
    · simp [shelfActor] at hi
      simp [hi] at hc

theorem exists_violation_naming_shelf :
    let g := shelf (some ⟨"Shelf.cs", 1, 1⟩)
    let order := (shelfAuditor.select g).reverse
    order.Perm (shelfAuditor.select g) ∧ shelfAuditor.UnmarkedAfter g order ⟨1⟩ ∧
    ∃ v ∈ (shelfAuditor.auditIn g order).violations, v.code = "DAPR1405" ∧
      v.message = "Interface 'IShelfActor' used by Actor class should inherit from IActor" ∧
      (v.location.same ⟨"Shelf.cs", 3, 1⟩ = true ∨
        ∃ l', (g.get? ⟨1⟩).bind (·.location) = some l' ∧ v.location.same l' = true) := by
  intro g order
  have horder : order.Perm (shelfAuditor.select g) := List.reverse_perm _
  have hclass : ⟨⟨2⟩, shelfActor, .actorClass⟩ ∈ shelfAuditor.select g := by simp [g, select_shelf]
  refine ⟨horder, unmarkedAfter_shelf _ _, ?_⟩
  exact exists_violation_naming (i := ⟨1⟩) (by decide) (by decide) horder hclass rfl rfl (by decide)
    (unmarkedAfter_shelf _ _) fun _ => rfl

end Auditor

end ActorAudit
