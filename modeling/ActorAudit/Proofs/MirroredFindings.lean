import ActorAudit.Proofs.ChainEnds
import ActorAudit.Proofs.MirroredQueries

/-!
# Findings on mirrored graphs

What the rules find about two declarations that mirror each other when the second, and every type on its
surface, says at least as much about serialization as the first. Attributes and constructors only ever
silence a rule, so nothing is found about the second declaration that is not found about the first, and what
is found comes in the same order. Where both say the same, the findings are equal, by the same argument read
in the other direction.
-/

namespace ActorAudit

open List (Forall₂)

section
variable {α β γ : Type} {P : α → β → Prop} {l : List α} {l' : List β}

theorem sublist_flatMap {f : α → List γ} {f' : β → List γ} (hf : ∀ a b, P a b → (f' b).Sublist (f a))
    (h : Forall₂ P l l') : (l'.flatMap f').Sublist (l.flatMap f) := by
  induction h with
  | nil => exact .refl _
  | cons hab _ ih => exact (hf _ _ hab).append ih

theorem sublist_flatMap_filter {p : α → Bool} {q : β → Bool} {f : α → List γ} {f' : β → List γ}
    (hpq : ∀ a b, P a b → q b = true → p a = true) (hf : ∀ a b, P a b → f' b = f a) (h : Forall₂ P l l') :
    ((l'.filter q).flatMap f').Sublist ((l.filter p).flatMap f) := by
  induction h with
  | nil => exact .refl _
  | @cons a b l l' hab _ ih =>
    cases hq : q b with
    | false =>
      rw [List.filter_cons_of_neg (by simp [hq])]
      refine ih.trans ?_
      cases hp : p a with
      | false => simp [hp]
      | true => simp [hp]
    | true =>
      rw [List.filter_cons_of_pos hq, List.filter_cons_of_pos (hpq a b hab hq)]
      simp only [List.flatMap_cons, hf a b hab]
      exact ih.append_left _

end

/-! ## Annotations -/

/-- The second member is the first, but may have further attributes and another declared type. -/
structure Member.Annotates (p p' : Member) : Prop where
  name : p.name = p'.name
  kind : p.kind = p'.kind
  accessibility : p.accessibility = p'.accessibility
  location : p.location = p'.location
  attributes : p.attributes ⊆ p'.attributes

/-- The second type has what the first has, and maybe further attributes, on itself or on its members, and
further constructors that are public and take no arguments. -/
structure TypeSymbol.Annotates (d d' : TypeSymbol) : Prop where
  attributes : d.attributes ⊆ d'.attributes
  constructors : d.constructors ⊆ d'.constructors
  added : ∀ c ∈ d'.constructors, c ∈ d.constructors ∨ c.isDefault = true
  members : Forall₂ Member.Annotates d.members d'.members

theorem Concept.isIn_mono {c : Concept} {as as' : List Attribute} (h : as ⊆ as') (hc : c.isIn as = true) :
    c.isIn as' = true := by
  obtain ⟨a, ha, hm⟩ := List.any_eq_true.mp hc
  exact List.any_eq_true.mpr ⟨a, h ha, hm⟩

theorem Concept.not_isIn_mono {c : Concept} {as as' : List Attribute} (h : as ⊆ as')
    (hc : (!c.isIn as') = true) : (!c.isIn as) = true := by
  rw [Bool.not_eq_true', ← Bool.not_eq_true] at hc ⊢
  exact fun hc' => hc (isIn_mono h hc')

namespace TypeSymbol.Annotates

variable {d d' : TypeSymbol} (h : d.Annotates d')
include h

theorem isDataContract (hd : d.isDataContract = true) : d'.isDataContract = true :=
  Concept.isIn_mono h.attributes hd

/-- Without constructors a class has a default one of its own, which an added default one replaces. -/
theorem isConstructible (hkind : d.kind = d'.kind) (hd : d.isConstructible = true) :
    d'.isConstructible = true := by
  unfold TypeSymbol.isConstructible at hd ⊢
  cases hnil : d'.constructors with
  | nil =>
    have : d.constructors = [] := by
      have hsub := h.constructors
      rw [hnil] at hsub
      exact List.subset_nil.mp hsub
    simpa [this, hkind] using hd
  | cons c cs =>
    rw [← hnil]
    have hne : d'.constructors.isEmpty = false := by simp [hnil]
    simp only [hne, Bool.false_eq_true, if_false]
    rcases h.added c (by simp [hnil]) with hc | hc
    · have hne' : d.constructors.isEmpty = false := by
        cases hd' : d.constructors with
        | nil => simp [hd'] at hc
        | cons _ _ => rfl
      simp only [hne', Bool.false_eq_true, if_false] at hd
      obtain ⟨x, hx, hdef⟩ := List.any_eq_true.mp hd
      exact List.any_eq_true.mpr ⟨x, h.constructors hx, hdef⟩
    · exact List.any_eq_true.mpr ⟨c, by simp [hnil], hc⟩

theorem enumValues : Forall₂ Member.Annotates d.enumValues d'.enumValues :=
  rel_filter (fun hp => by rw [hp.kind]) h.members

theorem properties : Forall₂ Member.Annotates d.properties d'.properties :=
  rel_filter (fun hp => by rw [hp.kind]) h.members

theorem publicProperties : Forall₂ Member.Annotates d.publicProperties d'.publicProperties :=
  rel_filter (fun hp => by unfold Member.isExposedProperty; rw [hp.kind, hp.accessibility]) h.members

end TypeSymbol.Annotates

/-! ## Names in messages -/

namespace Graph

variable {g : Graph} {id e : TypeId} {d f : TypeSymbol}

theorem shownName_of_kind_ne (hd : g.get? id = some d) (hk : d.kind ≠ .arrayType) :
    g.shownName id = d.name := by
  have hend : EndsIn g.elementOf? 0 id id := .here (by simp [elementOf?, hd, hk])
  simpa [hd] using shownName_of_endsIn hend

theorem shownName_of_array (hd : g.get? id = some d) (hk : d.kind = .arrayType) (he : d.elementType = some e)
    (hf : g.get? e = some f) (hfk : f.kind ≠ .arrayType) : g.shownName id = f.name ++ "[]" := by
  have hend : EndsIn g.elementOf? 1 id e :=
    .step (by simp [elementOf?, hd, hk, he]) (.here (by simp [elementOf?, hf, hfk]))
  simpa [hf] using shownName_of_endsIn hend

end Graph

namespace Model

variable {m : Model} {id e : TypeId} {all : List TypeId}

theorem classWith_of_array {d : TypeSymbol} (all : List TypeId) (hd : m.graph.get? id = some d)
    (hk : d.kind = .arrayType) :
    m.classWith id all = ofElement d.elementType ∨ m.classWith id all = .primitive ∨
      m.classWith id all = .unknown ∨ ∃ i, m.classWith id all = .asyncWrapper i := by
  unfold classWith
  simp only [hd, hk, reduceCtorEq, decide_false, Bool.false_or, if_false, if_true]
  split
  · exact .inr (.inl rfl)
  split
  · cases d.typeArguments with
    | nil => exact .inr (.inl rfl)
    | cons i rest =>
      cases rest with
      | nil => exact .inr (.inr (.inr ⟨i, rfl⟩))
      | cons _ _ => exact .inr (.inr (.inl rfl))
  · exact .inl rfl

theorem get?_of_classWith {c : Classification} (h : c = m.classWith id all) (hc : c ≠ .unknown) :
    ∃ d, m.graph.get? id = some d := by
  cases hd : m.graph.get? id with
  | none =>
    unfold classWith at h
    rw [hd] at h
    exact absurd h hc
  | some d => exact ⟨d, rfl⟩

theorem kind_ne_of_complexObject {d : TypeSymbol} (hd : m.graph.get? id = some d)
    (h : m.classWith id all = .complexObject) : d.kind ≠ .arrayType := by
  intro hk
  rcases classWith_of_array all hd hk with hc | hc | hc | ⟨i, hc⟩ <;> rw [h] at hc
  · cases he : d.elementType <;> simp [he, ofElement] at hc
  all_goals cases hc

theorem elementType_of_collection {d : TypeSymbol} (hd : m.graph.get? id = some d)
    (h : m.classWith id all = .collection e) (hk : d.kind = .arrayType) : d.elementType = some e := by
  rcases classWith_of_array all hd hk with hc | hc | hc | ⟨i, hc⟩ <;> rw [h] at hc
  · cases he : d.elementType with
    | none => simp [he, ofElement] at hc
    | some _ => simpa [he, ofElement] using hc.symm
  all_goals cases hc

end Model

variable {R : TypeId → TypeId → Prop}

/-! ## Exposures -/

theorem RuleId.recordFindingsFrom_of_ne {scope : Scope} {seen : List TypeId} {id : TypeId} {c : Classification}
    {u : Exposure} {rest : List (TypeId × Classification × Exposure)} (hc : c ≠ .record) :
    recordFindingsFrom scope seen ((id, c, u) :: rest) = recordFindingsFrom scope seen rest := by
  rw [recordFindingsFrom]
  intro d hd
  exact absurd hd hc

theorem Sighting.eq_iff {p p' : TypeId × Classification} (h : Sighting R p p') {c : Classification}
    (hc : c.wantsContract = true) : p.2 = c ↔ p'.2 = c := by
  obtain ⟨id, x⟩ := p
  obtain ⟨id', x'⟩ := p'
  rcases h with ⟨_, hx⟩ | ⟨⟨i, hi⟩, ⟨i', hi'⟩⟩
  · cases c <;> cases hx <;> simp_all [Classification.wantsContract]
  · dsimp only at hi hi' ⊢
    subst hi hi'
    cases c <;> simp_all [Classification.wantsContract]

theorem Sighting.rel {p p' : TypeId × Classification} (h : Sighting R p p')
    (hc : p.2.wantsContract = true) : R p.1 p'.1 := by
  rcases h with ⟨hid, _⟩ | ⟨⟨i, hi⟩, _⟩
  · exact hid
  · rw [hi] at hc
    cases hc

/-- What the types of the sightings say, if they mirror each other. -/
def Model.Seen (R : TypeId → TypeId → Prop) (m m' : Model) (p p' : TypeId × Classification) : Prop :=
  Sighting R p p' ∧
    (R p.1 p'.1 → Option.Rel TypeSymbol.Annotates (m.graph.get? p.1) (m'.graph.get? p'.1))

structure Exposure.Annotates (R : TypeId → TypeId → Prop) (m m' : Model) (u u' : Exposure) : Prop
    extends Exposure.Mirrors R m u u' where
  seen : Forall₂ (Model.Seen R m m') u.reached u'.reached

namespace Exposure.Annotates

variable {m m' : Model} {u u' : Exposure} (h : Exposure.Annotates R m m' u u')
include h

theorem type_seen : Model.Seen R m m' (u.type, u.classification) (u'.type, u'.classification) :=
  (List.forall₂_cons.mp h.seen).1

theorem element_seen : Option.Rel (Model.Seen R m m') u.element u'.element := by
  have hseen := (List.forall₂_cons.mp h.seen).2
  generalize u.element = x, u'.element = x' at hseen
  cases x <;> cases x' <;> simp_all

theorem label_eq : u.label = u'.label := by
  unfold Exposure.label
  rw [h.location, h.method]

theorem recordMembers {d d' : TypeSymbol} (hdd : d.Mirrors R d') (hann : d.Annotates d') :
    (RuleId.recordMemberFindings d' u').Sublist (RuleId.recordMemberFindings d u) := by
  refine sublist_flatMap_filter (fun p p' hp => Concept.not_isIn_mono hp.attributes) (fun p p' hp => ?_)
    hann.publicProperties
  rw [hp.location, hp.name, hdd.name, h.label_eq]

theorem recordUse {d d' : TypeSymbol} (hdd : d.Mirrors R d') (hann : d.Annotates d') :
    (RuleId.recordUseFindings d' u').Sublist (RuleId.recordUseFindings d u) := by
  unfold RuleId.recordUseFindings
  split
  · exact List.nil_sublist _
  · rename_i hcon
    rw [if_neg fun hcon' => hcon (hann.isDataContract hcon'), h.location, hdd.name]

end Exposure.Annotates

/-! ## Scopes -/

/-- The second scope is that of a declaration which mirrors the first, and says at least as much wherever a
rule may look. -/
structure Scope.Annotates (R : TypeId → TypeId → Prop) (s s' : Scope) : Prop where
  model : s.model.Mirrors R s'.model
  id : R s.id s'.id
  definition : s.definition.Mirrors R s'.definition
  role : s.role = s'.role
  details : s.role = .enumeration ∨ s.role = .actorClass → s.definition.Annotates s'.definition
  surface : Forall₂ (Exposure.Annotates R s.model s'.model) s.surface s'.surface
  checked : Forall₂ R s.checked s'.checked

namespace Scope.Annotates

variable {s s' : Scope} (h : s.Annotates R s')
include h

theorem get? {id id' : TypeId} {c c' : Classification} (hp : Model.Seen R s.model s'.model (id, c) (id', c'))
    (hc : c.wantsContract = true) : Option.Rel (fun d d' => d.Mirrors R d' ∧ d.Annotates d')
      (s.model.graph.get? id) (s'.model.graph.get? id') :=
  rel_and (h.model.graph.get? (hp.1.rel hc)) (hp.2 (hp.1.rel hc))

/-! ### Rules that look at the declaration itself -/

open RuleId

theorem enumMember (hr : s.role = .enumeration) : (enumMemberFindings s').Sublist (enumMemberFindings s) := by
  refine sublist_flatMap_filter (fun v v' hv => Concept.not_isIn_mono hv.attributes) (fun v v' hv => ?_)
    (h.details (.inl hr)).enumValues
  rw [hv.location, hv.name, h.definition.name]

theorem wireName (hr : s.role = .actorClass) : (wireNameFindings s').Sublist (wireNameFindings s) := by
  refine sublist_flatMap_filter (fun v v' hv => Concept.not_isIn_mono hv.attributes) (fun v v' hv => ?_)
    (h.details (.inr hr)).properties
  rw [hv.location, hv.name, h.definition.name]

theorem isUnmarkedContract {id id' : TypeId} (hid : R id id') :
    Query.Related (Model.Agree R s.model s'.model) (s.model.isUnmarkedContract id)
      (s'.model.isUnmarkedContract id') Eq := by
  unfold Model.isUnmarkedContract
  obtain ⟨hd, hd'⟩ | ⟨d, d', hd, hd', hdd⟩ := rel_cases (h.model.graph.get? hid)
  · rw [hd, hd']
    exact .pure rfl
  · simp only [hd, hd', ← hdd.kind, ← hdd.name, ← h.model.framework, ← h.model.isMarker hid]
    split
    · exact (h.model.isMarked hid).bind fun b b' hb => .pure (by rw [hb])
    · exact .pure rfl

theorem markerAdvice_eq (name : String) : markerAdvice s name = markerAdvice s' name := by
  unfold markerAdvice
  rw [h.model.framework]

theorem interfaceMarker : Query.Related (Model.Agree R s.model s'.model) (interfaceMarkerFindings s)
    (interfaceMarkerFindings s') Eq := by
  unfold interfaceMarkerFindings
  rw [← h.role]
  dsimp only
  split
  · refine (h.isUnmarkedContract h.id).bind fun b b' hb => ?_
    subst hb
    rw [← h.definition.location, ← h.definition.name, h.markerAdvice_eq]
    split <;> exact .pure rfl
  · have hlisted : Forall₂ R (s.definition.interfaces.filter fun i => !s.checked.contains i)
        (s'.definition.interfaces.filter fun i => !s'.checked.contains i) := by
      refine rel_filter (fun hi => ?_) h.definition.interfaces
      rw [Bool.eq_iff_iff]
      simpa using not_congr (h.model.graph.mem_iff hi h.checked)
    refine (Query.Related.filter (fun _ _ hi => h.isUnmarkedContract hi) hlisted).bind fun ids ids' hids =>
      .pure ?_
    induction hids with
    | nil => rfl
    | @cons i i' _ _ hi _ ih =>
      rw [List.flatMap_cons, List.flatMap_cons, ih]
      congr 1
      obtain ⟨hd, hd'⟩ | ⟨d, d', hd, hd', hdd⟩ := rel_cases (h.model.graph.get? hi)
      · rw [hd, hd']
      · simp only [hd, hd', h.definition.location, hdd.name, hdd.location, h.markerAdvice_eq]

theorem actorContract : Query.Related (Model.Agree R s.model s'.model) (actorContractFindings s)
    (actorContractFindings s') Eq := by
  unfold actorContractFindings
  refine (h.model.interfacesOf h.id).bind fun all all' hall => ?_
  refine (Query.Related.any (fun _ _ hi => h.model.isMarked hi) hall).bind fun b b' hb => ?_
  subst hb
  dsimp only
  rw [← h.definition.location, ← h.definition.name, h.model.framework]
  cases b <;> exact .pure rfl

/-! ### Objects -/

theorem firstUses {l l' : Surface} (hl : Forall₂ (Exposure.Annotates R s.model s'.model) l l')
    {seen seen' : List TypeId} (hs : Forall₂ R seen seen') :
    Forall₂ (fun u u' => Exposure.Annotates R s.model s'.model u u' ∧ u.classification = .complexObject)
      (firstUses .complexObject seen l) (firstUses .complexObject seen' l') := by
  induction hl generalizing seen seen' with
  | nil => exact .nil
  | @cons u u' l l' hu _ ih =>
    have hc : u.classification = .complexObject ↔ u'.classification = .complexObject :=
      hu.type_seen.1.eq_iff rfl
    unfold RuleId.firstUses
    by_cases hobj : u.classification = .complexObject
    · have hid : R u.type u'.type := hu.type_seen.1.rel (by rw [hobj]; rfl)
      simp only [hobj, hc.mp hobj, true_and, h.model.graph.mem_iff hid hs]
      split
      · exact .cons ⟨hu, hobj⟩ (ih (.cons hid hs))
      · exact ih hs
    · rw [if_neg fun hx => hobj hx.1, if_neg fun hx => hobj (hc.mpr hx.1)]
      exact ih hs

section
variable {id id' : TypeId} {c c' : Classification} (hp : Model.Seen R s.model s'.model (id, c) (id', c'))
include hp

/-- An object that lacks a contract in the second scope lacks it in the first. -/
theorem uncontracted? (hc : c.wantsContract = true) : s'.model.uncontracted? id' = none ∨
    Option.Rel (TypeSymbol.Mirrors R) (s.model.uncontracted? id) (s'.model.uncontracted? id') := by
  unfold Model.uncontracted?
  obtain ⟨hd, hd'⟩ | ⟨d, d', hd, hd', hdd, hann⟩ := rel_cases (h.get? hp hc)
  · rw [hd, hd']
    exact .inl rfl
  · rw [hd, hd', Option.filter_some, Option.filter_some]
    cases hser : !d'.isSerializable with
    | false => exact .inl rfl
    | true =>
      have hser' : (!d.isSerializable) = true := Concept.not_isIn_mono hann.attributes hser
      rw [hser']
      exact .inr (.some hdd)

theorem isUncontractedObject (hobj : isUncontractedObject s' id' c' = true) :
    isUncontractedObject s id c = true ∧ c = .complexObject := by
  unfold RuleId.isUncontractedObject at hobj ⊢
  simp only [Bool.and_eq_true, decide_eq_true_eq] at hobj ⊢
  have hc : c = .complexObject := (hp.1.eq_iff rfl).mpr hobj.1
  refine ⟨⟨hc, ?_⟩, hc⟩
  rcases h.uncontracted? hp (by rw [hc]; rfl) with hnone | hrel
  · rw [hnone] at hobj
    cases hobj.2
  · obtain ⟨_, hd'⟩ | ⟨d, d', hd, _⟩ := rel_cases hrel
    · rw [hd'] at hobj
      cases hobj.2
    · rw [hd]
      rfl

theorem object_of_seen (hc : c = .complexObject) (hsound : ∃ all, c = s.model.classWith id all) :
    ∃ d d', s.model.graph.get? id = some d ∧ s'.model.graph.get? id' = some d' ∧ d.name = d'.name ∧
      d.kind ≠ .arrayType ∧ d'.kind ≠ .arrayType := by
  obtain ⟨all, hall⟩ := hsound
  rw [hc] at hall
  obtain ⟨d, hd⟩ := Model.get?_of_classWith hall (by simp)
  have hk := Model.kind_ne_of_complexObject hd hall.symm
  obtain ⟨hnone, _⟩ | ⟨d₂, d', hd₂, hd', hdd, _⟩ := rel_cases (h.get? hp (by rw [hc]; rfl))
  · rw [hd] at hnone
    cases hnone
  · rw [hd] at hd₂
    cases hd₂
    exact ⟨d, d', hd, hd', hdd.name, hk, hdd.kind ▸ hk⟩

theorem shownName_eq (hc : c = .complexObject) (hsound : ∃ all, c = s.model.classWith id all) :
    s.model.graph.shownName id = s'.model.graph.shownName id' := by
  obtain ⟨d, d', hd, hd', hname, hk, hk'⟩ := h.object_of_seen hp hc hsound
  rw [Graph.shownName_of_kind_ne hd hk, Graph.shownName_of_kind_ne hd' hk', hname]

end

theorem complexType : (complexTypeFindings s').Sublist (complexTypeFindings s) := by
  unfold complexTypeFindings uncontractedObjects
  simp only [List.filterMap_eq_flatMap_toList, List.flatMap_assoc]
  refine sublist_flatMap (fun u u' hu => ?_) (h.firstUses h.surface .nil)
  obtain ⟨hu, hc⟩ := hu
  rcases h.uncontracted? hu.type_seen (by rw [hc]; rfl) with hnone | hrel
  · simp [hnone]
  · obtain ⟨hd, hd'⟩ | ⟨d, d', hd, hd', hdd⟩ := rel_cases hrel
    · simp [hd, hd']
    · simp [hd, hd', hdd.name, hdd.location, hu.label_eq]

section
variable {u u' : Exposure} (hu : Exposure.Annotates R s.model s'.model u u')
include hu

theorem object (hobj : RuleId.isUncontractedObject s' u'.type u'.classification = true) :
    RuleId.isUncontractedObject s u.type u.classification = true ∧
      s.model.graph.shownName u.type = s'.model.graph.shownName u'.type := by
  obtain ⟨hobj', hc⟩ := h.isUncontractedObject hu.type_seen hobj
  exact ⟨hobj', h.shownName_eq hu.type_seen hc hu.sound.type⟩

/-- An array is named after its elements, any other collection by itself. -/
theorem shownName_collection_eq {e e' : TypeId} {c c' : Classification} (he : u.element = some (e, c))
    (hee : Model.Seen R s.model s'.model (e, c) (e', c')) (hc : c = .complexObject) :
    s.model.graph.shownName u.type = s'.model.graph.shownName u'.type := by
  obtain ⟨hcoll, hsound⟩ := hu.sound.element he
  obtain ⟨f, f', hf, hf', hname, hfk, hfk'⟩ := h.object_of_seen hee hc hsound
  obtain ⟨all, hall⟩ := hu.sound.type
  have hid : R u.type u'.type := by
    rcases hu.type_seen.1 with ⟨hid, _⟩ | ⟨⟨i, hi⟩, _⟩
    · exact hid
    · dsimp only at hi
      rw [hcoll] at hi
      cases hi
  rw [hcoll] at hall
  obtain ⟨d, hd⟩ := Model.get?_of_classWith hall (by simp)
  obtain ⟨hnone, _⟩ | ⟨d₂, d', hd₂, hd', hdd⟩ := rel_cases (h.model.graph.get? hid)
  · rw [hd] at hnone
    cases hnone
  rw [hd] at hd₂
  cases hd₂
  by_cases hk : d.kind = .arrayType
  · have helem := Model.elementType_of_collection hd hall.symm hk
    have helem' : d'.elementType = some e' := by
      have hrel := hdd.elementType
      rw [helem] at hrel
      obtain ⟨hx, _⟩ | ⟨x, x', hx, hx', hxx⟩ := rel_cases hrel
      · cases hx
      · cases hx
        rw [hx', h.model.graph.biUnique.2 hxx (hee.1.rel (by dsimp only; rw [hc]; rfl))]
    rw [Graph.shownName_of_array hd hk helem hf hfk,
      Graph.shownName_of_array hd' (hdd.kind ▸ hk) helem' hf' hfk', hname]
  · rw [Graph.shownName_of_kind_ne hd hk, Graph.shownName_of_kind_ne hd' (hdd.kind ▸ hk), hdd.name]

end

theorem parameterType : (parameterTypeFindings s').Sublist (parameterTypeFindings s) := by
  refine sublist_flatMap (fun u u' hu => ?_) h.surface
  rw [← hu.site]
  cases u.site with
  | result => exact .refl _
  | parameter name =>
    dsimp only
    split
    · rename_i hobj
      obtain ⟨hobj', hname⟩ := h.object hu hobj
      rw [if_pos hobj', hname, hu.location, hu.method]
    · exact List.nil_sublist _

theorem resultType : (resultTypeFindings s').Sublist (resultTypeFindings s) := by
  refine sublist_flatMap (fun u u' hu => ?_) h.surface
  rw [← hu.site]
  cases u.site with
  | parameter name => exact .refl _
  | result =>
    dsimp only
    split
    · rename_i hobj
      obtain ⟨hobj', hname⟩ := h.object hu hobj
      rw [if_pos hobj', hname, hu.location, hu.method]
    · exact List.nil_sublist _

theorem elementType : (elementTypeFindings s').Sublist (elementTypeFindings s) := by
  refine sublist_flatMap (fun u u' hu => ?_) h.surface
  obtain ⟨he, he'⟩ | ⟨⟨e, c⟩, ⟨e', c'⟩, he, he', hee⟩ := rel_cases hu.element_seen
  · simp [he, he']
  · simp only [he, he']
    split
    · rename_i hobj
      obtain ⟨hobj', hc⟩ := h.isUncontractedObject hee hobj
      rw [if_pos hobj', h.shownName_eq hee hc (hu.sound.element he).2, h.shownName_collection_eq hu he hee hc,
        hu.location]
    · exact List.nil_sublist _

/-! ### Everything that is reached -/

theorem reached : Forall₂ (fun x x' => Model.Seen R s.model s'.model (x.1, x.2.1) (x'.1, x'.2.1) ∧
    Exposure.Annotates R s.model s'.model x.2.2 x'.2.2) (Surface.reached s.surface)
      (Surface.reached s'.surface) :=
  List.rel_flatMap h.surface fun _ _ hu => List.rel_map (fun _ _ hp => ⟨hp, hu⟩) hu.seen

theorem recordFrom {l l' : List (TypeId × Classification × Exposure)}
    (hl : Forall₂ (fun x x' => Model.Seen R s.model s'.model (x.1, x.2.1) (x'.1, x'.2.1) ∧
      Exposure.Annotates R s.model s'.model x.2.2 x'.2.2) l l') {seen seen' : List TypeId}
    (hs : Forall₂ R seen seen') : (recordFindingsFrom s' seen' l').Sublist (recordFindingsFrom s seen l) := by
  induction hl generalizing seen seen' with
  | nil => exact .refl _
  | @cons x x' l l' hx _ ih =>
    obtain ⟨id, c, u⟩ := x
    obtain ⟨id', c', u'⟩ := x'
    obtain ⟨hp, hu⟩ := hx
    have hc : c = .record ↔ c' = .record := hp.1.eq_iff rfl
    by_cases hrec : c = .record
    · have hid : R id id' := hp.1.rel (by dsimp only; rw [hrec]; rfl)
      obtain ⟨hd, hd'⟩ | ⟨d, d', hd, hd', hdd, hann⟩ := rel_cases (h.get? hp (by rw [hrec]; rfl))
      · simp only [recordFindingsFrom, hrec, hc.mp hrec, hd, hd']
        exact ih hs
      · simp only [recordFindingsFrom, hrec, hc.mp hrec, hd, hd', h.model.graph.mem_iff hid hs]
        refine (hu.recordUse hdd hann).append ?_
        split
        · exact ih hs
        · exact (hu.recordMembers hdd hann).append (ih (.cons hid hs))
    · rw [recordFindingsFrom_of_ne hrec, recordFindingsFrom_of_ne fun hrec' => hrec (hc.mpr hrec')]
      exact ih hs

theorem construction : (constructionFindings s').Sublist (constructionFindings s) := by
  refine sublist_flatMap (fun x x' hx => ?_) h.reached
  obtain ⟨id, c, u⟩ := x
  obtain ⟨id', c', u'⟩ := x'
  obtain ⟨hp, hu⟩ := hx
  have hc : c = .complexObject ↔ c' = .complexObject := hp.1.eq_iff rfl
  dsimp only
  split
  · rename_i d' hd'
    have hobj : c = .complexObject := hc.mpr rfl
    obtain ⟨_, hnone⟩ | ⟨d, d₂, hd, hd₂, hdd, hann⟩ := rel_cases (h.get? hp (by rw [hobj]; rfl))
    · rw [hd'] at hnone
      cases hnone
    rw [hd'] at hd₂
    cases hd₂
    subst hobj
    simp only [hd]
    split
    · exact List.nil_sublist _
    · rename_i hsilent
      rw [if_neg, hu.location, hdd.name]
      intro hsilent'
      rw [Bool.or_eq_true] at hsilent hsilent'
      exact hsilent (hsilent'.imp hann.isDataContract (hann.isConstructible hdd.kind))
  · exact List.nil_sublist _

/-- A rule finds nothing in the second scope that it does not find in the first. -/
theorem findings (r : RuleId) (hr : r.appliesTo s.role = true) :
    Query.Related (Model.Agree R s.model s'.model) (r.findings s) (r.findings s')
      fun fs fs' => fs'.Sublist fs := by
  cases r with
  | interfaceMarker => exact h.interfaceMarker.mono fun fs fs' hfs => hfs ▸ .refl _
  | actorContract => exact h.actorContract.mono fun fs fs' hfs => hfs ▸ .refl _
  | enumMember => exact .pure (h.enumMember (by simpa [appliesTo] using hr))
  | wireName => exact .pure (h.wireName (by simpa [appliesTo] using hr))
  | complexType => exact .pure h.complexType
  | parameterType => exact .pure h.parameterType
  | resultType => exact .pure h.resultType
  | elementType => exact .pure h.elementType
  | recordContract => exact .pure (h.recordFrom h.reached .nil)
  | construction => exact .pure h.construction

end Scope.Annotates

end ActorAudit
