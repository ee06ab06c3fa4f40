import ActorAudit.Proofs.MirroredRuns
import ActorAudit.Proofs.RuleSelection

/-!
# Annotating a graph

Adding attributes and default constructors to the types of a graph leaves every query as it was, so a report
on the annotated graph has no identity that the report on the graph does not have. Once every type, property
and enumeration value has its attributes, only the two rules about the marker interface can still find
anything.
-/

namespace ActorAudit

open List (Forall₂)

/-! ## Annotated graphs -/

/-- The second graph is the first with attributes added to types and members, and public constructors without
arguments added to types. -/
structure Graph.Annotates (g g' : Graph) : Prop where
  types : Forall₂ (fun d d' => { d' with
    attributes := d.attributes, constructors := d.constructors, members := d.members } = d ∧ d.Annotates d')
      g.types.toList g'.types.toList
  declarations : g.declarations = g'.declarations

theorem Method.mirrors_refl (m : Method) : m.Mirrors Eq m where
  name := rfl
  parameters := List.forall₂_same.mpr fun _ _ => ⟨rfl, rfl, rfl⟩
  returnType := rel_refl (fun _ => rfl) _
  definingInterface := rel_refl (fun _ => rfl) _
  location := rfl

theorem TypeSymbol.mirrors_of_eq {d d' : TypeSymbol} (h : { d' with
    attributes := d.attributes, constructors := d.constructors, members := d.members } = d) :
    d.Mirrors Eq d' := by
  have hlist : ∀ l : List TypeId, Forall₂ Eq l l := fun _ => List.forall₂_same.mpr fun _ _ => rfl
  rw [← h]
  exact ⟨rfl, rfl, rfl, rel_refl (fun _ => rfl) _, hlist _, rel_refl hlist _,
    List.forall₂_same.mpr fun m _ => m.mirrors_refl, hlist _, rel_refl (fun _ => rfl) _, rfl, rfl⟩

/-- Graphs whose types differ in nothing but attributes, constructors and members mirror each other. -/
theorem Graph.mirrors_of_rel {g g' : Graph}
    (hget : ∀ id, Option.Rel (TypeSymbol.Mirrors Eq) (g.get? id) (g'.get? id))
    (hdeclarations : g.declarations = g'.declarations) : g.Mirrors Eq g' := by
  refine ⟨⟨fun _ _ _ h h' => h.trans h'.symm, fun _ _ _ h h' => h ▸ h'⟩, ?_, ?_⟩
  · intro id id' hid
    rw [← hid]
    exact hget id
  · rw [hdeclarations]
    exact List.forall₂_same.mpr fun _ _ => rfl

theorem Graph.Annotates.model {g g' : Graph} (h : g.Annotates g') (a : Auditor) :
    (a.model g).Annotates Eq (a.model g') := by
  have hget : ∀ id, Option.Rel (fun d d' => d.Mirrors Eq d' ∧ d.Annotates d') (g.get? id) (g'.get? id) := by
    intro id
    have hrel := rel_getElem? h.types id.toNat
    rw [Array.getElem?_toList, Array.getElem?_toList] at hrel
    obtain ⟨hd, hd'⟩ | ⟨d, d', hd, hd', hdd, hann⟩ := rel_cases hrel
    · rw [Graph.get?, hd, Graph.get?, hd']
      exact .none
    · rw [Graph.get?, hd, Graph.get?, hd']
      exact .some ⟨TypeSymbol.mirrors_of_eq hdd, hann⟩
  refine ⟨⟨g.mirrors_of_rel (fun id => rel_mono (fun hd => hd.1) (hget id)) h.declarations, rfl⟩, ?_⟩
  intro id id' hid
  rw [← hid]
  exact rel_mono (fun hd => hd.2) (hget id)

/-! ## Graphs with all annotations -/

def Member.isAnnotated (p : Member) : Bool :=
  match p.kind with
  | .property => Concept.dataMember.isIn p.attributes && Concept.wireName.isIn p.attributes
  | .enumValue => Concept.enumMember.isIn p.attributes
  | .field => true

def TypeSymbol.isAnnotated (d : TypeSymbol) : Bool := d.isDataContract && d.members.all Member.isAnnotated

def Graph.isAnnotated (g : Graph) : Bool := g.types.all TypeSymbol.isAnnotated

/-! Every graph can be annotated. -/

def Member.annotate (p : Member) : Member :=
  { p with attributes := { name := "DataMember" } :: { name := "JsonPropertyName" } ::
      { name := "EnumMember" } :: p.attributes }

def TypeSymbol.annotate (d : TypeSymbol) : TypeSymbol :=
  { d with
    attributes := { name := "DataContract" } :: d.attributes
    constructors := {} :: d.constructors
    members := d.members.map Member.annotate }

def Graph.annotate (g : Graph) : Graph := { g with types := g.types.map TypeSymbol.annotate }

theorem TypeSymbol.annotates_annotate (d : TypeSymbol) : d.Annotates d.annotate where
  attributes := List.subset_cons_self _ _
  constructors := List.subset_cons_self _ _
  added := by
    intro c hc
    rcases List.mem_cons.mp hc with rfl | hc
    · exact .inr rfl
    · exact .inl hc
  members := by
    refine List.forall₂_map_right_iff.mpr (List.forall₂_same.mpr fun p _ => ?_)
    exact ⟨rfl, rfl, rfl, rfl, fun a ha => by simp [Member.annotate, ha]⟩

theorem Graph.annotates_annotate (g : Graph) : g.Annotates g.annotate where
  types := by
    rw [Graph.annotate, Array.toList_map]
    exact List.forall₂_map_right_iff.mpr (List.forall₂_same.mpr fun d _ => ⟨rfl, d.annotates_annotate⟩)
  declarations := rfl

theorem Graph.isAnnotated_annotate (g : Graph) : g.annotate.isAnnotated = true := by
  have hmember : ∀ p : Member, p.annotate.isAnnotated = true := by
    intro p
    unfold Member.isAnnotated
    split <;> rfl
  have htype : ∀ d : TypeSymbol, d.annotate.isAnnotated = true := by
    intro d
    simp only [TypeSymbol.isAnnotated, Bool.and_eq_true]
    exact ⟨rfl, by simp [TypeSymbol.annotate, hmember]⟩
  simp [Graph.isAnnotated, Graph.annotate, htype]

/-- An actor with a method for every rule about surfaces, an enumeration, and a contract without marker. -/
def Graph.ledger : Graph where
  types := #[
    { name := "Actor", inNamespace := some "Dapr.Actors.Runtime", kind := .classType },
    { name := "IActor", inNamespace := some "Dapr.Actors", kind := .interfaceType },
    { name := "ILedgerActor", kind := .interfaceType, interfaces := [⟨1⟩],
      methods := [{ name := "Last", returnType := some ⟨4⟩ },
        { name := "Post", parameters := [⟨"entry", ⟨4⟩, none⟩, ⟨"all", ⟨6⟩, none⟩], returnType := some ⟨5⟩ }] },
    { name := "LedgerActor", kind := .classType, baseType := some ⟨0⟩, interfaces := [⟨2⟩, ⟨8⟩],
      members := [{ name := "Balance", location := some ⟨"Ledger.cs", 2, 5⟩ }],
      methods := [{ name := "Last", returnType := some ⟨4⟩, location := some ⟨"Ledger.cs", 3, 5⟩ },
        { name := "Post", parameters := [⟨"entry", ⟨4⟩, some ⟨"Ledger.cs", 4, 9⟩⟩,
          ⟨"all", ⟨6⟩, some ⟨"Ledger.cs", 4, 19⟩⟩], returnType := some ⟨5⟩, location := some ⟨"Ledger.cs", 4, 5⟩ }],
      location := some ⟨"Ledger.cs", 1, 1⟩ },
    { name := "Entry", kind := .structType, location := some ⟨"Entry.cs", 1, 1⟩ },
    { name := "Receipt", kind := .recordType, members := [{ name := "Total", location := some ⟨"Entry.cs", 3, 5⟩ }],
      location := some ⟨"Entry.cs", 2, 1⟩ },
    { name := "List", kind := .classType, typeArguments := [⟨4⟩] },
    { name := "Currency", kind := .enumType,
      members := [{ name := "Euro", kind := .enumValue, location := some ⟨"Entry.cs", 5, 5⟩ }] },
    { name := "IAuditActor", kind := .interfaceType }]
  declarations := [⟨3⟩, ⟨7⟩]

/-! ## Rules that fall silent -/

theorem Concept.isMatch_mono {c c' : Concept} (h : c.spellings ⊆ c'.spellings) {a : Attribute}
    (hm : c.isMatch a = true) : c'.isMatch a = true := by
  unfold isMatch at hm ⊢
  cases hf : a.fullName <;> simp only [hf, Option.any_none, Option.any_some, Bool.or_false, Bool.or_eq_true,
    List.contains_iff_mem] at hm ⊢
  · exact h hm
  · exact hm.imp (@h _) (@h _)

theorem TypeSymbol.isSerializable_of_isDataContract {d : TypeSymbol} (h : d.isDataContract = true) :
    d.isSerializable = true := by
  have hspellings : Concept.dataContract.spellings ⊆ Concept.serializationContract.spellings := by decide
  obtain ⟨a, ha, hm⟩ := List.any_eq_true.mp h
  exact List.any_eq_true.mpr ⟨a, ha, Concept.isMatch_mono hspellings hm⟩

theorem Member.attributes_of_property {p : Member} (h : p.isAnnotated = true) (hk : p.kind = .property) :
    Concept.dataMember.isIn p.attributes = true ∧ Concept.wireName.isIn p.attributes = true := by
  simpa [isAnnotated, hk] using h

theorem Member.attributes_of_enumValue {p : Member} (h : p.isAnnotated = true) (hk : p.kind = .enumValue) :
    Concept.enumMember.isIn p.attributes = true := by
  simpa [isAnnotated, hk] using h

theorem flatMap_filter_eq_nil {α β : Type} {p : α → Bool} {l : List α} (h : ∀ a ∈ l, p a = true)
    (f : α → List β) : (l.filter fun a => !p a).flatMap f = [] := by
  have hnil : (l.filter fun a => !p a) = [] := List.filter_eq_nil_iff.mpr fun a ha => by simp [h a ha]
  rw [hnil, List.flatMap_nil]

namespace RuleId

section
variable {scope : Scope} (hg : scope.model.graph.isAnnotated = true)
include hg

theorem isAnnotated_of_get? {id : TypeId} {d : TypeSymbol} (hd : scope.model.graph.get? id = some d) :
    d.isDataContract = true ∧ ∀ p ∈ d.members, p.isAnnotated = true := by
  have h : d.isAnnotated = true := Array.all_eq_true_iff_forall_mem.mp hg d (Array.mem_of_getElem? hd)
  simpa [TypeSymbol.isAnnotated] using h

theorem uncontracted?_eq_none (id : TypeId) : scope.model.uncontracted? id = none := by
  unfold Model.uncontracted?
  cases hd : scope.model.graph.get? id with
  | none => rfl
  | some d =>
    have h := TypeSymbol.isSerializable_of_isDataContract (isAnnotated_of_get? hg hd).1
    simp [h]

theorem isUncontractedObject_eq_false (id : TypeId) (c : Classification) :
    isUncontractedObject scope id c = false := by
  simp [isUncontractedObject, uncontracted?_eq_none hg]

theorem recordFindingsFrom_eq_nil (seen : List TypeId) (l : List (TypeId × Classification × Exposure)) :
    recordFindingsFrom scope seen l = [] := by
  induction l generalizing seen with
  | nil => rfl
  | cons x l ih =>
    obtain ⟨id, c, u⟩ := x
    unfold recordFindingsFrom
    split
    · rename_i d hd
      obtain ⟨hcontract, hmembers⟩ := isAnnotated_of_get? hg hd
      have huse : recordUseFindings d u = [] := by simp [recordUseFindings, hcontract]
      have hmember : recordMemberFindings d u = [] := by
        refine flatMap_filter_eq_nil (fun p hp => ?_) _
        obtain ⟨hp, hexposed⟩ := List.mem_filter.mp hp
        have hkind : p.kind = .property := by
          simp only [Member.isExposedProperty, Bool.and_eq_true, decide_eq_true_eq] at hexposed
          exact hexposed.1
        exact (Member.attributes_of_property (hmembers p hp) hkind).1
      simp [huse, hmember, ih]
    · exact ih seen

theorem construction_eq_nil : constructionFindings scope = [] := by
  refine List.flatMap_eq_nil_iff.mpr fun x _ => ?_
  dsimp only
  split
  · rename_i d _ hd
    simp [(isAnnotated_of_get? hg hd).1]
  · rfl

/-- Where everything is annotated, a rule that looks at annotations finds nothing. -/
theorem findings_eq_nil {id : TypeId} (hd : scope.model.graph.get? id = some scope.definition) {r : RuleId}
    (hr : r ≠ .interfaceMarker) (hr' : r ≠ .actorContract) : r.findings scope = pure [] := by
  obtain ⟨_, hmembers⟩ := isAnnotated_of_get? hg hd
  cases r with
  | interfaceMarker => exact absurd rfl hr
  | actorContract => exact absurd rfl hr'
  | enumMember =>
    refine congrArg pure (flatMap_filter_eq_nil (fun p hp => ?_) _)
    obtain ⟨hp, hkind⟩ := List.mem_filter.mp hp
    exact Member.attributes_of_enumValue (hmembers p hp) (by simpa using hkind)
  | wireName =>
    refine congrArg pure (flatMap_filter_eq_nil (fun p hp => ?_) _)
    obtain ⟨hp, hkind⟩ := List.mem_filter.mp hp
    exact (Member.attributes_of_property (hmembers p hp) (by simpa using hkind)).2
  | complexType => simp [findings, complexTypeFindings, uncontractedObjects, uncontracted?_eq_none hg]
  | parameterType =>
    refine congrArg pure (List.flatMap_eq_nil_iff.mpr fun u _ => ?_)
    simp only [isUncontractedObject_eq_false hg]
    split <;> rfl
  | resultType =>
    refine congrArg pure (List.flatMap_eq_nil_iff.mpr fun u _ => ?_)
    simp only [isUncontractedObject_eq_false hg]
    split <;> rfl
  | elementType =>
    refine congrArg pure (List.flatMap_eq_nil_iff.mpr fun u _ => ?_)
    simp only [isUncontractedObject_eq_false hg]
    split <;> rfl
  | recordContract => exact congrArg pure (recordFindingsFrom_eq_nil hg _ _)
  | construction => exact congrArg pure (construction_eq_nil hg)

end

end RuleId

/-! ## Reports -/

namespace Auditor

def MarkersOnly (vs : List Violation) : Prop := ∀ v ∈ vs, v.code = "DAPR1405" ∨ v.code = "DAPR1413"

theorem markersOnly_applyRule {scope : Scope} (hg : scope.model.graph.isAnnotated = true) {id : TypeId}
    (hd : scope.model.graph.get? id = some scope.definition) (r : Rule) :
    Query.Keeps (fun _ => True) (applyRule scope r) MarkersOnly := by
  intro memo _
  refine ⟨fun v hv => ?_, trivial⟩
  have hcode := code_of_mem_applyRule hv
  by_cases hmarker : r.id = .interfaceMarker
  · rw [hmarker] at hcode
    exact .inl hcode
  by_cases hactor : r.id = .actorContract
  · rw [hactor] at hcode
    exact .inr hcode
  unfold applyRule at hv
  rw [RuleId.findings_eq_nil hg hd hmarker hactor] at hv
  split at hv <;> cases hv

theorem markersOnly_examine {m : Model} (hg : m.graph.isAnnotated = true) (rules : List Rule)
    (checked : List TypeId) {d : Subject} (hd : m.graph.get? d.id = some d.definition) :
    Query.Keeps (fun _ => True) (examine m rules checked d) fun e => MarkersOnly e.violations := by
  have hscope : Query.Keeps (fun _ => True) (scopeOf m checked d) fun s =>
      s.model = m ∧ s.definition = d.definition := by
    intro memo _
    unfold scopeOf
    split <;> exact ⟨⟨rfl, rfl⟩, trivial⟩
  refine hscope.bind ?_
  rintro s ⟨rfl, hs⟩
  rw [← hs] at hd
  refine (Query.Keeps.each_forall fun r _ => markersOnly_applyRule hg hd r).bind fun found hfound => .pure ?_
  intro v hv
  obtain ⟨vs, hvs, hv⟩ := List.mem_flatten.mp hv
  exact hfound vs hvs v hv

theorem markersOnly_audit (a : Auditor) {g : Graph} (hg : g.isAnnotated = true) :
    MarkersOnly (a.audit g).violations := by
  intro v hv
  obtain ⟨e, he, hv⟩ := List.mem_flatMap.mp (Violation.mem_of_mem_settle hv)
  have hrun := Query.Keeps.each_forall fun d (hd : d ∈ a.select g) =>
    markersOnly_examine (m := a.model g) hg a.activeRules ((a.select g).map (·.id)) (mem_select hd).2
  exact (hrun .empty trivial).1 e he v hv

/-- Annotating a graph adds no identity to its report, and when everything is annotated nothing is left but
what is said about the marker interface. -/
theorem audit_of_annotates (a : Auditor) {g g' : Graph} (h : g.Annotates g') :
    Violation.Covered (a.audit g').violations (a.audit g).violations ∧
    (g'.isAnnotated = true →
      ∀ v ∈ (a.audit g').violations, v.code = "DAPR1405" ∨ v.code = "DAPR1413") := by
  have hsub := a.violations_sublist (h.model a) (a.select_annotates (h.model a))
  refine ⟨Violation.covered_settle (Violation.covered_of_subset hsub.subset), fun hg => ?_⟩
  exact a.markersOnly_audit hg

theorem audit_annotate_ledger :
    let a : Auditor := ⟨Rule.all, [], {}, .error⟩
    let g := Graph.ledger
    g.Annotates g.annotate ∧ g.annotate.isAnnotated = true ∧
    Violation.Covered (a.audit g.annotate).violations (a.audit g).violations ∧
    ∀ v ∈ (a.audit g.annotate).violations, v.code = "DAPR1405" ∨ v.code = "DAPR1413" := by
  intro a g
  have h := a.audit_of_annotates g.annotates_annotate
  exact ⟨g.annotates_annotate, g.isAnnotated_annotate, h.1, h.2 g.isAnnotated_annotate⟩

end Auditor

end ActorAudit
