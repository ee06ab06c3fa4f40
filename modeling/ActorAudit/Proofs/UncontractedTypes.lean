import ActorAudit.Proofs.ContractlessActors
import ActorAudit.Proofs.SurfaceMethods
import ActorAudit.Proofs.UncontractedUses

/-!
# Types without contracts

`complexType` goes through the uses of a surface like the rules that look at each use, but speaks of each type once,
where the type is declared. The uses it looks at are the first of their types; in one surface all uses of a type agree
on its classification, so that it does not matter which of them is looked at.
-/

namespace ActorAudit

/-! ## The first of each key -/

section
variable {α κ : Type} [DecidableEq κ] (key : α → κ)

/-- The items that are the first with their key, among the keys not seen yet. -/
def firstBy (seen : List κ) : List α → List α
  | [] => []
  | a :: l => if key a ∈ seen then firstBy seen l else a :: firstBy (key a :: seen) l

theorem find?_cons_of_key_ne {a : α} {k : κ} (h : k ≠ key a) (l : List α) :
    (a :: l).find? (key · = k) = l.find? (key · = k) := by
  rw [List.find?_cons_of_neg]
  simpa using Ne.symm h

/-- The distinct keys in the order of their first items, each with its first item. -/
theorem firstBy_eq (seen : List κ) (l : List α) : firstBy key seen l =
    ((l.map key).eraseDups.filter (· ∉ seen)).filterMap fun k => l.find? (key · = k) := by
  induction l generalizing seen with
  | nil => rfl
  | cons a l ih =>
    have hrest : ∀ ks : List κ, key a ∉ ks → (ks.filterMap fun k => (a :: l).find? (key · = k)) =
        ks.filterMap fun k => l.find? (key · = k) := by
      intro ks hks
      refine List.filterMap_congr fun k hk => find?_cons_of_key_ne key ?_ l
      exact fun e => hks (e ▸ hk)
    rw [List.map_cons, List.eraseDups_cons, eraseDups_filter, firstBy]
    by_cases ha : key a ∈ seen
    · rw [if_pos ha, ih, List.filter_cons_of_neg (by simpa using ha), List.filter_filter, hrest _ (by simp)]
      congr 1
      refine List.filter_congr fun k _ => ?_
      by_cases hk : k = key a
      · simp [hk, ha]
      · simp [hk]
    · rw [if_neg ha, ih, List.filter_cons_of_pos (by simpa using ha), List.filter_filter, List.filterMap_cons,
        hrest _ (by simp)]
      simp [Bool.and_comm, beq_eq_decide]

theorem firstBy_nil (l : List α) :
    firstBy key [] l = (l.map key).eraseDups.filterMap fun k => l.find? (key · = k) := by
  simp [firstBy_eq]

end

/-! ## Classifications on a surface -/

namespace Model

theorem known_reached (m : Model) (o : Occurrence) (memo : Memo) : ∀ p ∈ (m.exposureOf o memo).1.reached,
    Query.Known (m.exposureOf o memo).2 (m.classify p.1) p.2 := by
  have hclassify := (Query.compositional_repeats m).classify
  have hbind : ∀ {α β : Type} (q : Query α) (f : α → Query β) (memo : Memo),
      (q >>= f) memo = f (q memo).1 (q memo).2 := fun _ _ _ => rfl
  rw [exposureOf, hbind, hbind]
  obtain ⟨_, htype⟩ := hclassify (m.awaited o.declared memo).1 (m.awaited o.declared memo).2
  generalize m.classify (m.awaited o.declared memo).1 (m.awaited o.declared memo).2 = r at htype
  cases r.1.element? with
  | none =>
    intro p hp
    cases List.mem_singleton.mp hp
    exact htype
  | some e =>
    obtain ⟨hsub, helement⟩ := hclassify e r.2
    intro p hp
    rcases List.mem_cons.mp hp with rfl | hp
    · exact htype.mono hsub
    · cases List.mem_singleton.mp hp
      exact helement

theorem class_of_mem_surface {m : Model} {cls : TypeId} {memo : Memo} {u : Exposure} (hu : u ∈ (m.surface cls memo).1) :
    ∀ p ∈ u.reached, p.2 = (m.classify p.1 (m.surface cls memo).2).1 := by
  have hrepeats := Query.compositional_repeats m
  obtain ⟨_, heach⟩ := Query.Known.of_bind (hrepeats.contracts cls) (hrepeats.each hrepeats.exposureOf _)
    (hrepeats.surface cls memo).2
  obtain ⟨hknown, hs⟩ := Query.Known.of_each hrepeats.exposureOf heach
  rw [hs] at hu
  obtain ⟨o, ho, rfl⟩ := List.mem_map.mp hu
  intro p hp
  -- the memo that the surface leaves has the exposure, and with it the classification
  have hclass := m.known_reached o _ p hp
  rw [(hknown o ho).eq] at hclass
  exact (congrArg Prod.fst hclass.eq).symm

end Model

/-- In one surface the classification of a type is the same wherever it is reached: the one that is remembered. -/
theorem Auditor.class_of_mem_scopeOf {m : Model} {checked : List TypeId} {d : Subject} {memo : Memo} {u : Exposure}
    (hu : u ∈ (scopeOf m checked d memo).1.surface) :
    ∀ p ∈ u.reached, p.2 = (m.classify p.1 (scopeOf m checked d memo).2).1 := by
  obtain ⟨hsurface, hmemo⟩ : (scopeOf m checked d memo).1.surface = _ ∧ _ :=
    scopeOf_surface (role_of_mem_surface hu) memo
  rw [hsurface] at hu
  rw [hmemo]
  exact Model.class_of_mem_surface hu

/-! ## One finding for each type -/

namespace RuleId

theorem firstUses_eq_firstBy (c : Classification) (seen : List TypeId) (s : Surface) :
    firstUses c seen s = firstBy (·.type) seen (s.filter (·.classification = c)) := by
  induction s generalizing seen with
  | nil => rfl
  | cons u s ih =>
    by_cases hc : u.classification = c
    · by_cases hs : u.type ∈ seen <;> simp [firstUses, firstBy, hc, hs, ih]
    · simp [firstUses, hc, ih]

theorem firstUses_eq {s : Surface} {cls : TypeId → Classification} (hs : ∀ u ∈ s, u.classification = cls u.type)
    (c : Classification) : firstUses c [] s =
      ((s.map (·.type)).eraseDups.filter (cls · = c)).filterMap fun t => s.find? (·.type = t) := by
  have htypes : (s.filter (·.classification = c)).map (·.type) = (s.map (·.type)).filter (cls · = c) := by
    rw [List.filter_map]
    congr 1
    exact List.filter_congr fun u hu => by simp [hs u hu]
  rw [firstUses_eq_firstBy, firstBy_nil, htypes, eraseDups_filter]
  refine List.filterMap_congr fun t ht => ?_
  have hc : cls t = c := by simpa using (List.mem_filter.mp ht).2
  rw [List.find?_filter]
  refine List.find?_congr fun u hu => ?_
  by_cases htype : u.type = t
  · simp [htype, hs u hu, hc]
  · simp [htype]

/-- What is said of a type, if it has no contract and a place: there, with a label at its first use. -/
def typeFinding? (m : Model) (s : Surface) (t : TypeId) : Option Finding :=
  (s.find? (·.type = t)).bind fun u => (m.uncontracted? t).bind fun e => e.location.map fun l =>
    ⟨l, [e.name], s!"Add [DataContract] to '{e.name}' and [DataMember] to each serialized property", u.label⟩

theorem complexTypeFindings_eq {scope : Scope} {cls : TypeId → Classification}
    (hs : ∀ u ∈ scope.surface, u.classification = cls u.type) : complexTypeFindings scope =
      ((scope.surface.map (·.type)).eraseDups.filter (cls · = .complexObject)).filterMap
        (typeFinding? scope.model scope.surface) := by
  rw [complexTypeFindings, uncontractedObjects, firstUses_eq hs, List.filterMap_filterMap,
    List.filterMap_eq_flatMap_toList, List.flatMap_assoc, List.filterMap_eq_flatMap_toList]
  refine List.flatMap_congr fun t _ => ?_
  cases hu : scope.surface.find? (·.type = t) with
  | none => simp [typeFinding?, hu]
  | some u =>
    have htype : u.type = t := by simpa using List.find?_some hu
    cases he : scope.model.uncontracted? t with
    | none => simp [typeFinding?, hu, htype, he]
    | some e => cases hl : e.location <;> simp [typeFinding?, hu, htype, he, Finding.place, hl]

theorem uncontracted_iff_concerns {m : Model} {u : Exposure} : m.Uncontracted u.type u.classification ↔
    ∃ r ∈ [parameterType, resultType], Concerns m u r := by
  cases hsite : u.site <;> simp [Concerns, hsite, Site.isParameter]

end RuleId

namespace Model

/-- The types of the uses that are objects without a contract and have a place, in the order of their first uses. -/
def flagged (m : Model) (cls : TypeId → Classification) (s : Surface) : List TypeId :=
  (s.map (·.type)).eraseDups.filter fun t =>
    m.Uncontracted t (cls t) ∧ ∃ e ∈ m.graph.get? t, e.location.isSome = true

variable {m : Model} {cls : TypeId → Classification} {s : Surface}

theorem flagged_eq (m : Model) (cls : TypeId → Classification) (s : Surface) : m.flagged cls s =
    ((s.map (·.type)).eraseDups.filter (cls · = .complexObject)).filter
      fun t => (RuleId.typeFinding? m s t).isSome := by
  rw [List.filter_filter]
  refine List.filter_congr fun t ht => ?_
  obtain ⟨u, hu, htype⟩ := List.mem_map.mp (List.mem_eraseDups.mp ht)
  obtain ⟨v, hv⟩ : ∃ v, s.find? (·.type = t) = some v := by
    rw [← Option.isSome_iff_exists, List.find?_isSome]
    exact ⟨u, hu, by simpa using htype⟩
  cases he : m.graph.get? t with
  | none => simp [RuleId.typeFinding?, uncontracted?, Uncontracted, he]
  | some e =>
    cases hser : e.isSerializable <;>
      simp [RuleId.typeFinding?, uncontracted?, Uncontracted, he, hv, Option.filter_some, hser, Bool.and_comm]

theorem mem_flagged_iff_concerns (hs : ∀ u ∈ s, u.classification = cls u.type)
    (hplaced : ∀ u ∈ s, (m.graph.get? u.type).all (·.location.isSome) = true) {t : TypeId} :
    t ∈ m.flagged cls s ↔
      ∃ r ∈ [RuleId.parameterType, .resultType], ∃ u ∈ s, u.type = t ∧ RuleId.Concerns m u r := by
  constructor
  · intro ht
    obtain ⟨ht, hflag⟩ := List.mem_filter.mp ht
    obtain ⟨u, hu, rfl⟩ := List.mem_map.mp (List.mem_eraseDups.mp ht)
    have huncontracted : m.Uncontracted u.type u.classification := by
      rw [hs u hu]
      exact (of_decide_eq_true hflag).1
    obtain ⟨r, hr, hconcerns⟩ := RuleId.uncontracted_iff_concerns.mp huncontracted
    exact ⟨r, hr, u, hu, rfl, hconcerns⟩
  · intro ⟨r, hr, u, hu, htype, hconcerns⟩
    subst htype
    have huncontracted := RuleId.uncontracted_iff_concerns.mpr ⟨r, hr, hconcerns⟩
    obtain ⟨e, he, _⟩ := huncontracted.2
    have hplace := hplaced u hu
    rw [he, Option.all_some] at hplace
    refine List.mem_filter.mpr ⟨List.mem_eraseDups.mpr (List.mem_map_of_mem hu), decide_eq_true ⟨?_, e, he, hplace⟩⟩
    rw [← hs u hu]
    exact huncontracted

end Model

theorem forall₂_filterMap {α β : Type} (f : α → Option β) (l : List α) :
    List.Forall₂ (fun a b => f a = some b) (l.filter fun a => (f a).isSome) (l.filterMap f) := by
  induction l with
  | nil => exact .nil
  | cons a l ih =>
    cases hf : f a with
    | none => simpa [hf] using ih
    | some b => simpa [hf] using ih

/-- A violation speaks of a type: it stands where the type is declared and has a label at the first use. -/
structure Violation.SpeaksOf (g : Graph) (s : Surface) (t : TypeId) (v : Violation) : Prop where
  code : v.code = "DAPR1408"
  place : (g.get? t).bind (·.location) = some v.location
  message : v.message = Template.fill RuleId.complexType.template [g.nameAt t]
  label : (s.find? (·.type = t)).map Exposure.label = some v.labels

theorem RuleId.speaksOf_of_typeFinding? {m : Model} {s : Surface} {t : TypeId} {f : Finding}
    (h : typeFinding? m s t = some f) (severity : Severity) :
    Violation.SpeaksOf m.graph s t (Finding.toViolation .complexType severity f) := by
  obtain ⟨u, hu, h⟩ := Option.bind_eq_some_iff.mp h
  obtain ⟨e, he, h⟩ := Option.bind_eq_some_iff.mp h
  obtain ⟨l, hl, rfl⟩ := Option.map_eq_some_iff.mp h
  have hget : m.graph.get? t = some e := (Option.filter_eq_some_iff.mp he).1
  constructor <;> simp [Finding.toViolation, code, Graph.nameAt, hget, hl, hu]

/-! ## Surfaces -/

/-- An actor that takes parcels and stamps, and gives back parcels and lists of stamps. -/
def Graph.parcels : Graph where
  types := #[
    { name := "Actor", inNamespace := some "Dapr.Actors.Runtime", kind := .classType },
    { name := "IActor", inNamespace := some "Dapr.Actors", kind := .interfaceType },
    { name := "IParcelActor", kind := .interfaceType, interfaces := [⟨1⟩],
      methods := [{ name := "Send", parameters := [⟨"parcel", ⟨4⟩, none⟩, ⟨"stamp", ⟨5⟩, none⟩] },
        { name := "Last", returnType := some ⟨4⟩ }, { name := "Stamps", returnType := some ⟨6⟩ }] },
    { name := "ParcelActor", kind := .classType, baseType := some ⟨0⟩, interfaces := [⟨2⟩],
      methods := [{ name := "Send", parameters := [⟨"parcel", ⟨4⟩, some ⟨"Actor.cs", 2, 9⟩⟩,
          ⟨"stamp", ⟨5⟩, some ⟨"Actor.cs", 2, 19⟩⟩] },
        { name := "Last", returnType := some ⟨4⟩, location := some ⟨"Actor.cs", 3, 5⟩ },
        { name := "Stamps", returnType := some ⟨6⟩, location := some ⟨"Actor.cs", 4, 5⟩ }] },
    { name := "Parcel", kind := .classType, location := some ⟨"Parcel.cs", 1, 1⟩ },
    { name := "Stamp", kind := .recordType, location := some ⟨"Parcel.cs", 2, 1⟩,
      members := [{ name := "Price", location := some ⟨"Parcel.cs", 3, 5⟩ },
        { name := "serial", kind := .field, location := some ⟨"Parcel.cs", 4, 5⟩ }] },
    { name := "List", kind := .classType, typeArguments := [⟨5⟩], location := some ⟨"Parcel.cs", 5, 1⟩ }]
  declarations := [⟨3⟩]

namespace Auditor

/-- A rule that looks at surfaces has nothing to say of other declarations than actor classes. -/
theorem applyRule_scopeOf (m : Model) (checked : List TypeId) (d : Subject) (memo later : Memo) (severity : Severity)
    {r : RuleId} (hr : r.code ∈ RuleId.surfaceCodes) : (applyRule (scopeOf m checked d memo).1 ⟨r, severity⟩ later).1 =
      (r.findings (scopeOf m checked d memo).1 later).1.map (Finding.toViolation r severity) := by
  rw [applyRule_fst, (scopeOf_frame m checked d memo).2.2]
  by_cases hd : d.role = .actorClass
  · rw [if_pos]
    cases r <;> simp_all [RuleId.appliesTo, RuleId.surfaceCodes, RuleId.code]
  · have hsurface : (scopeOf m checked d memo).1.surface = [] := by
      unfold scopeOf
      rw [if_neg hd]
      rfl
    rw [RuleId.findings_of_surface_nil hsurface hr]
    split <;> rfl

theorem applyRule_use_ne_nil_iff {scope : Scope} (hrole : scope.role = .actorClass) {r : Rule}
    (hr : r.id ∈ RuleId.perUse) (u : Exposure) (memo : Memo) :
    (applyRule { scope with surface := [u] } r memo).1 ≠ [] ↔
      RuleId.Concerns scope.model u r.id ∧ u.location.isSome = true := by
  have hlocation := location_applyRule hrole hr u memo
  rw [ne_eq, ← List.map_eq_nil_iff (f := (·.location)), hlocation]
  by_cases hc : RuleId.Concerns scope.model u r.id
  · cases u.location <;> simp [hc]
  · simp [hc]

/-- `complexType` and the rules that look at each use agree. It speaks once of each type that is used and remembered
as an object, has no contract and has a place, in the order of the first uses, and says nothing else. So where all uses
and their types have places, these are the types for which `parameterType` or `resultType` has something to say about
a use. -/
theorem complexType_agrees (m : Model) (checked : List TypeId) (d : Subject) (memo later : Memo)
    (severity : RuleId → Severity) :
    let p := scopeOf m checked d memo
    let surface := p.1.surface
    let output := fun r => (applyRule p.1 ⟨r, severity r⟩ later).1
    let share := fun r u => (applyRule { p.1 with surface := [u] } ⟨r, severity r⟩ later).1
    let flagged := m.flagged (fun t => (m.classify t p.2).1) surface
    List.Forall₂ (Violation.SpeaksOf m.graph surface) flagged (output .complexType) ∧
    (∀ r ∈ [RuleId.parameterType, .resultType], output r = surface.flatMap (share r)) ∧
    ((∀ u ∈ surface, u.location.isSome = true ∧ (m.graph.get? u.type).all (·.location.isSome) = true) →
      ∀ t, t ∈ flagged ↔
        ∃ r ∈ [RuleId.parameterType, .resultType], ∃ u ∈ surface, u.type = t ∧ share r u ≠ []) := by
  intro p surface output share flagged
  let classOf := fun t => (m.classify t p.2).1
  obtain ⟨hmodel, _, hrole⟩ := scopeOf_frame m checked d memo
  have hclass : ∀ u ∈ surface, u.classification = classOf u.type :=
    fun u hu => class_of_mem_scopeOf hu _ List.mem_cons_self
  have hperUse : ∀ r ∈ [RuleId.parameterType, .resultType], r ∈ RuleId.perUse := by decide
  refine ⟨?_, fun r hr => applyRule_flatMap p.1 (hperUse r hr) later, fun hplaced t => ?_⟩
  · have houtput : output .complexType = (RuleId.complexTypeFindings p.1).map
        (Finding.toViolation .complexType (severity .complexType)) :=
      applyRule_scopeOf m checked d memo later _ (by decide)
    rw [houtput, List.forall₂_map_right_iff, RuleId.complexTypeFindings_eq hclass, hmodel]
    refine List.Forall₂.imp (fun t f h => RuleId.speaksOf_of_typeFinding? h _) ?_
    rw [show flagged = _ from m.flagged_eq classOf surface]
    exact forall₂_filterMap _ _
  · have hshare : ∀ r ∈ [RuleId.parameterType, .resultType], ∀ u ∈ surface,
        share r u ≠ [] ↔ RuleId.Concerns m u r := by
      intro r hr u hu
      have hactor := hrole.trans (role_of_mem_surface hu)
      rw [applyRule_use_ne_nil_iff hactor (hperUse r hr) u later, hmodel, and_iff_left (hplaced u hu).1]
    refine (Model.mem_flagged_iff_concerns hclass fun u hu => (hplaced u hu).2).trans ?_
    constructor
    · intro ⟨r, hr, u, hu, htype, hconcerns⟩
      exact ⟨r, hr, u, hu, htype, (hshare r hr u hu).mpr hconcerns⟩
    · intro ⟨r, hr, u, hu, htype, hne⟩
      exact ⟨r, hr, u, hu, htype, (hshare r hr u hu).mp hne⟩

/-- The parcel is a parameter and a result; it is spoken of once. -/
theorem complexType_agrees_parcels :
    let m : Model := ⟨Graph.parcels, {}⟩
    let p := scopeOf m [⟨3⟩] ⟨⟨3⟩, Graph.parcels.types[3], .actorClass⟩ .empty
    let share := fun r u => (applyRule { p.1 with surface := [u] } ⟨r, r.defaultSeverity⟩ .empty).1
    let flagged := m.flagged (fun t => (m.classify t p.2).1) p.1.surface
    (∀ u ∈ p.1.surface, u.location.isSome = true ∧ (m.graph.get? u.type).all (·.location.isSome) = true) ∧
    flagged = [⟨4⟩] ∧
    ∀ t, t ∈ flagged ↔
      ∃ r ∈ [RuleId.parameterType, .resultType], ∃ u ∈ p.1.surface, u.type = t ∧ share r u ≠ [] := by
  have hplaced : ∀ u ∈ (scopeOf ⟨Graph.parcels, {}⟩ [⟨3⟩] ⟨⟨3⟩, Graph.parcels.types[3], .actorClass⟩ .empty).1.surface,
      u.location.isSome = true ∧ (Graph.parcels.get? u.type).all (·.location.isSome) = true := by
    simp only [← Bool.and_eq_true, ← List.all_eq_true]
    cbv
  refine ⟨hplaced, ?_, (complexType_agrees _ _ _ _ _ RuleId.defaultSeverity).2.2 hplaced⟩
  rw [Model.flagged_eq]
  cbv

end Auditor

end ActorAudit
