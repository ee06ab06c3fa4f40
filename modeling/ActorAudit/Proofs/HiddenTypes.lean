import ActorAudit.Proofs.Annotation

/-!
# Types that no actor exposes

A rule reads the attributes, the constructors and the members of a type in three cases only: the type is an
enumeration that is checked, an actor class that is checked, or an exposure of such a class reaches it. Queries
see the shapes of types alone. So two runs on graphs that differ in these parts of one other type stay aligned
and end with the same report.
-/

namespace ActorAudit

open List (Forall₂)

/-- The second graph is the first, except that the type `t` may have other attributes, constructors and
members. -/
structure Graph.SameBut (t : TypeId) (g g' : Graph) : Prop where
  declarations : g'.declarations = g.declarations
  others : ∀ {id}, id ≠ t → g'.get? id = g.get? id
  shape : Option.Rel (fun d d' => { d' with
    attributes := d.attributes, constructors := d.constructors, members := d.members } = d) (g.get? t) (g'.get? t)

/-- No exposure has the type for its own, without wrappers, or for the element of its collection. -/
def Surface.Hides (s : Surface) (t : TypeId) : Prop := ∀ u ∈ s, ∀ p ∈ u.reached, p.1 ≠ t

/-- The declaration with the same id in another graph. -/
def Subject.on (g : Graph) (d : Subject) : Subject := ⟨d.id, (g.get? d.id).getD d.definition, d.role⟩

/-! ## Runs with a condition on one side -/

theorem Query.each_related {α α' β β' : Type} {J : Memo → Memo → Prop} {P : α → α' → Prop} {G : β → Prop}
    {Q : β → β' → Prop} {f : α → Query β} {f' : α' → Query β'}
    (hf : ∀ a a', P a a' → ∀ memo memo', J memo memo' → G (f a memo).1 →
      Q (f a memo).1 (f' a' memo').1 ∧ J (f a memo).2 (f' a' memo').2)
    {l : List α} {l' : List α'} (h : Forall₂ P l l') : ∀ {memo memo'}, J memo memo' →
      (∀ b ∈ (Query.each f l memo).1, G b) → Forall₂ Q (Query.each f l memo).1 (Query.each f' l' memo').1 := by
  induction h with
  | nil => intro memo memo' _ _; exact .nil
  | cons ha _ ih =>
    intro memo memo' hJ hG
    rw [each_cons] at hG
    obtain ⟨hQ, hJ'⟩ := hf _ _ ha memo memo' hJ (hG _ List.mem_cons_self)
    rw [each_cons, each_cons]
    exact .cons hQ (ih hJ' fun b hb => hG b (List.mem_cons_of_mem _ hb))

namespace Auditor

theorem flatMap_violations {es es' : List Examination}
    (h : Forall₂ (fun e e' => e.violations = e'.violations) es es') :
    es.flatMap (·.violations) = es'.flatMap (·.violations) := by
  rw [List.flatMap_def, List.flatMap_def]
  congr 1
  rw [← List.forall₂_eq_eq_eq]
  exact List.rel_map (R := fun e e' => e.violations = e'.violations) (fun _ _ he => he) h

/-- Scopes that say the same to each other give rise to the same violations. -/
theorem violations_eq {R : TypeId → TypeId → Prop} {s s' : Scope} (h : s.Annotates R s')
    (h' : s'.Annotates (flip R) s) {m m' : Model} (hm : s.model = m) (hm' : s'.model = m') (rules : List Rule)
    {memo memo' : Memo} (hJ : Model.Agree R m m' memo memo') :
    (Query.each (applyRule s) rules memo).1.flatten = (Query.each (applyRule s') rules memo').1.flatten ∧
      Model.Agree R m m' (Query.each (applyRule s) rules memo).2 (Query.each (applyRule s') rules memo').2 := by
  subst hm hm'
  have hfwd := related_rules h rules memo memo' hJ
  have hbwd := related_rules h' rules memo' memo (hJ.flip h.model)
  exact ⟨hbwd.1.antisymm hfwd.1, hfwd.2⟩

end Auditor

/-! ## Graphs that differ in one type -/

theorem TypeSymbol.annotates_refl (d : TypeSymbol) : d.Annotates d where
  attributes := List.Subset.refl _
  constructors := List.Subset.refl _
  added _ hc := .inl hc
  members := List.forall₂_same.mpr fun _ _ => ⟨rfl, rfl, rfl, rfl, List.Subset.refl _⟩

namespace Graph.SameBut

variable {t : TypeId} {g g' : Graph} (h : g.SameBut t g') (a : Auditor)
include h

theorem rel_get? (id : TypeId) : Option.Rel (TypeSymbol.Mirrors Eq) (g.get? id) (g'.get? id) := by
  by_cases hid : id = t
  · rw [hid]
    exact rel_mono TypeSymbol.mirrors_of_eq h.shape
  · rw [h.others hid]
    exact rel_refl (fun d => TypeSymbol.mirrors_of_eq rfl) _

theorem mirrors : (a.model g).Mirrors Eq (a.model g') :=
  ⟨g.mirrors_of_rel h.rel_get? h.declarations.symm, rfl⟩

theorem annotates_of_ne {id : TypeId} (hid : id ≠ t) :
    Option.Rel TypeSymbol.Annotates (g.get? id) (g'.get? id) ∧
      Option.Rel TypeSymbol.Annotates (g'.get? id) (g.get? id) := by
  rw [h.others hid]
  exact ⟨rel_refl TypeSymbol.annotates_refl _, rel_refl TypeSymbol.annotates_refl _⟩

theorem exposure {u u' : Exposure} (ht : ∀ p ∈ u.reached, p.1 ≠ t) (hu : Exposure.Mirrors Eq (a.model g) u u') :
    Exposure.Annotates Eq (a.model g) (a.model g') u u' := by
  have hseen := (List.forall₂_and_left _ _).mpr ⟨ht, hu.reached⟩
  refine { hu with seen := hseen.imp ?_ }
  intro p p' hp
  refine ⟨hp.2, fun hid => ?_⟩
  rw [← hid]
  exact (h.annotates_of_ne hp.1).1

theorem exposure_flip {u u' : Exposure} (ht : ∀ p ∈ u.reached, p.1 ≠ t)
    (hu : Exposure.Mirrors (flip Eq) (a.model g') u' u) :
    Exposure.Annotates (flip Eq) (a.model g') (a.model g) u' u := by
  have hseen := ((List.forall₂_and_left _ _).mpr ⟨ht, hu.reached.flip⟩).flip
  refine { hu with seen := hseen.imp ?_ }
  intro p' p hp
  refine ⟨hp.2, fun hid => ?_⟩
  replace hid : p.1 = p'.1 := hid
  rw [← hid]
  exact (h.annotates_of_ne hp.1).2

theorem mirrors_on {d : Subject} (hd : g.get? d.id = some d.definition) :
    d.definition.Mirrors Eq (d.on g').definition := by
  unfold Subject.on
  obtain ⟨hnone, -⟩ | ⟨e, e', he, he', hee⟩ := rel_cases (h.rel_get? d.id)
  · rw [hd] at hnone
    cases hnone
  · rw [hd] at he
    cases he
    rw [he']
    exact hee

theorem on_of_ne {d : Subject} (hd : g.get? d.id = some d.definition) (hid : d.id ≠ t) : d.on g' = d := by
  unfold Subject.on
  rw [h.others hid, hd]
  rfl

end Graph.SameBut

/-! ## Reports -/

namespace Auditor

section
variable (a : Auditor) {t : TypeId} {g g' : Graph} (h : g.SameBut t g') {checked : List TypeId} {d : Subject}
  (hd : g.get? d.id = some d.definition) (hrole : d.id = t → d.role ≠ .enumeration ∧ d.role ≠ .actorClass)
  {memo memo' : Memo} (hJ : Model.Agree Eq (a.model g) (a.model g') memo memo')
include h

include hd hrole hJ in
theorem scopeOf_of_sameBut (hidden : (scopeOf (a.model g) checked d memo).1.surface.Hides t) :
    (scopeOf (a.model g) checked d memo).1.Annotates Eq (scopeOf (a.model g') checked (d.on g') memo').1 ∧
    (scopeOf (a.model g') checked (d.on g') memo').1.Annotates (flip Eq) (scopeOf (a.model g) checked d memo).1 := by
  have hm := h.mirrors a
  have hscopes := (mirrored_scopeOf hm checked checked d (d.on g') rfl rfl memo memo' hJ).1
  have hscopes' := (mirrored_scopeOf hm.flip checked checked (d.on g') d rfl rfl memo' memo (hJ.flip hm)).1
  generalize (scopeOf (a.model g) checked d memo).1 = s at *
  generalize (scopeOf (a.model g') checked (d.on g') memo').1 = s' at *
  obtain ⟨hs, hs', hsurface⟩ := hscopes
  obtain ⟨-, -, hsurface'⟩ := hscopes'
  have hchecked : Forall₂ Eq checked checked := List.forall₂_same.mpr fun _ _ => rfl
  have hdd := h.mirrors_on hd
  have hon : d.role = .enumeration ∨ d.role = .actorClass → d.on g' = d := by
    intro hr
    apply h.on_of_ne hd
    intro hid
    obtain ⟨henum, hactor⟩ := hrole hid
    exact hr.elim henum hactor
  have hseen := (List.forall₂_and_left _ _).mpr ⟨hidden, hsurface⟩
  have hseen' := ((List.forall₂_and_left _ _).mpr ⟨hidden, hsurface'.flip⟩).flip
  rw [hs, hs']
  constructor
  · refine ⟨hm, rfl, hdd, rfl, fun hr => ?_, hseen.imp fun _ _ hu => h.exposure a hu.1 hu.2, hchecked⟩
    show d.definition.Annotates (d.on g').definition
    rw [hon hr]
    exact d.definition.annotates_refl
  · refine ⟨hm.flip, rfl, hdd.flip, rfl, fun hr => ?_, hseen'.imp fun _ _ hu => h.exposure_flip a hu.1 hu.2,
      hchecked.flip⟩
    show (d.on g').definition.Annotates d.definition
    rw [hon hr]
    exact d.definition.annotates_refl

include hd hrole hJ in
/-- The step: as long as nothing exposes `t`, the rules say the same about a declaration in both graphs. -/
theorem examine_of_sameBut (rules : List Rule)
    (hidden : (examine (a.model g) rules checked d memo).1.scope.surface.Hides t) :
    (examine (a.model g) rules checked d memo).1.violations =
        (examine (a.model g') rules checked (d.on g') memo').1.violations ∧
      Model.Agree Eq (a.model g) (a.model g') (examine (a.model g) rules checked d memo).2
        (examine (a.model g') rules checked (d.on g') memo').2 := by
  obtain ⟨hs, hs'⟩ := a.scopeOf_of_sameBut h hd hrole hJ hidden
  have hJ' := (mirrored_scopeOf (h.mirrors a) checked checked d (d.on g') rfl rfl memo memo' hJ).2
  exact violations_eq hs hs' (scopeOf_frame _ _ _ _).1 (scopeOf_frame _ _ _ _).1 rules hJ'

theorem select_of_sameBut : a.select g' = (a.select g).map (Subject.on g') := by
  unfold select
  rw [h.declarations, List.map_filterMap]
  refine List.filterMap_congr fun id _ => ?_
  unfold choose
  obtain ⟨hd, hd'⟩ | ⟨d, d', hd, hd', hdd⟩ := rel_cases (h.rel_get? id)
  · rw [hd, hd']
    rfl
  · have hexcluded : a.isExcluded d' = a.isExcluded d := by
      unfold isExcluded
      rw [hdd.location]
    simp only [hd, hd', ← hdd.isGenerated, hexcluded]
    cases d.isGenerated && a.settings.audit.excludeGenerated with
    | true => rfl
    | false =>
      cases a.isExcluded d with
      | true => rfl
      | false => simp [Subject.on, hd', (h.mirrors a).role rfl hdd]

theorem auditIn_of_sameBut
    (hrole : ∀ d ∈ a.select g, d.id = t → d.role ≠ .enumeration ∧ d.role ≠ .actorClass)
    {order : List Subject} (horder : order ⊆ a.select g)
    (hidden : ∀ e ∈ a.examinationsIn g order, e.scope.surface.Hides t) :
    a.auditIn g' (order.map (Subject.on g')) = a.auditIn g order := by
  have hchecked : (a.select g').map (·.id) = (a.select g).map (·.id) := by
    rw [a.select_of_sameBut h, List.map_map]
    rfl
  have hlist : Forall₂ (fun d d' => d ∈ a.select g ∧ d' = d.on g') order (order.map (Subject.on g')) :=
    List.forall₂_map_right_iff.mpr (List.forall₂_same.mpr fun d hd => ⟨horder hd, rfl⟩)
  have hrun : Forall₂ (fun e e' => e.violations = e'.violations) (a.examinationsIn g order)
      (a.examinationsIn g' (order.map (Subject.on g'))) := by
    unfold examinationsIn
    rw [hchecked]
    refine Query.each_related (J := Model.Agree Eq (a.model g) (a.model g')) ?_ hlist .empty hidden
    intro d d' hd memo memo' hJ hide
    rw [hd.2]
    exact a.examine_of_sameBut h (mem_select hd.1).2 (hrole d hd.1) hJ a.activeRules hide
  have hlength : (a.select g').length = (a.select g).length := by
    rw [a.select_of_sameBut h, List.length_map]
  unfold auditIn
  rw [hlength, flatMap_violations hrun]

end

/-- The attributes, constructors and members of a type do not influence the report, unless the type is an
enumeration or an actor class that is checked, or is exposed by one. -/
theorem audit_of_sameBut (a : Auditor) {t : TypeId} {g g' : Graph} (h : g.SameBut t g')
    (hrole : ∀ d ∈ a.select g, d.id = t → d.role ≠ .enumeration ∧ d.role ≠ .actorClass) :
    ((∀ e ∈ a.examinationsIn g (a.select g), e.scope.surface.Hides t) → a.audit g' = a.audit g) ∧
    ∀ order, order ⊆ a.select g → (∀ e ∈ a.examinationsIn g order, e.scope.surface.Hides t) →
      a.auditIn g' (order.map (Subject.on g')) = a.auditIn g order := by
  refine ⟨fun hidden => ?_, fun order horder hidden => a.auditIn_of_sameBut h hrole horder hidden⟩
  unfold audit
  rw [a.select_of_sameBut h]
  exact a.auditIn_of_sameBut h hrole (List.Subset.refl _) hidden

/-! ### A note that nobody reads

A declared record beside an actor whose interfaces form a ring. Its own list of interfaces leads to itself and
to a type that is not there. -/

def ringAnd (d : TypeSymbol) : Graph where
  types := Graph.ring.types.push d
  declarations := [⟨4⟩, ⟨8⟩]

theorem ringAnd_sameBut {d d' : TypeSymbol} (h : { d' with
    attributes := d.attributes, constructors := d.constructors, members := d.members } = d) :
    (ringAnd d).SameBut ⟨8⟩ (ringAnd d') where
  declarations := rfl
  others := by
    intro id hid
    have hne : id.toNat ≠ Graph.ring.types.size := by
      intro hsize
      rw [← TypeId.ofNat_toNat id, hsize] at hid
      exact hid rfl
    simp only [Graph.get?, ringAnd, Array.getElem?_push, if_neg hne]
  shape := .some h

def note : TypeSymbol :=
  { name := "Note", kind := .recordType, flattened := some [⟨8⟩, ⟨99⟩], location := some ⟨"Note.cs", 1, 1⟩ }

/-- Declarations after the first that are not actor classes expose nothing, whatever is remembered by then. -/
theorem hides_examineAll {m : Model} {rules : List Rule} {checked : List TypeId} {t : TypeId} {d : Subject}
    {ds : List Subject} (hd : (m.surface d.id).fresh.Hides t) (hds : ∀ d ∈ ds, d.role ≠ .actorClass) :
    ∀ e ∈ examineAll m rules checked (d :: ds) .empty, e.scope.surface.Hides t := by
  have hfirst : (examine m rules checked d .empty).1.scope.surface.Hides t := by
    show (scopeOf m checked d .empty).1.surface.Hides t
    unfold scopeOf
    split
    · exact hd
    · intro u hu
      cases hu
  have hlater : ∀ d ∈ ds, Query.Keeps (fun _ => True) (examine m rules checked d) fun e =>
      e.scope.surface.Hides t := by
    intro d hd memo _
    refine ⟨?_, trivial⟩
    show (scopeOf m checked d memo).1.surface.Hides t
    unfold scopeOf
    rw [if_neg (hds d hd)]
    intro u hu
    cases hu
  unfold examineAll
  rw [Query.each_cons]
  intro e he
  rcases List.mem_cons.mp he with he | he
  · rw [he]
    exact hfirst
  · exact (Query.Keeps.each_forall hlater _ trivial).1 e he

theorem audit_ringAnd_note :
    let a : Auditor := ⟨Rule.all, [], {}, .error⟩
    let noted := { note with attributes := [{ name := "DataContract" }], members := [{ name := "Text" }] }
    (ringAnd note).SameBut ⟨8⟩ (ringAnd noted) ∧
    (∀ d ∈ a.select (ringAnd note), d.id = ⟨8⟩ → d.role ≠ .enumeration ∧ d.role ≠ .actorClass) ∧
    (∀ e ∈ a.examinationsIn (ringAnd note) (a.select (ringAnd note)), e.scope.surface.Hides ⟨8⟩) ∧
    a.audit (ringAnd noted) = a.audit (ringAnd note) := by
  intro a noted
  have h : (ringAnd note).SameBut ⟨8⟩ (ringAnd noted) := ringAnd_sameBut rfl
  have hselect : a.select (ringAnd note) = [⟨⟨4⟩, { name := "RingActor", kind := .classType, baseType := some ⟨3⟩ },
      .actorClass⟩, ⟨⟨8⟩, note, .other⟩] := by cbv
  have hrole : ∀ d ∈ a.select (ringAnd note), d.id = ⟨8⟩ → d.role ≠ .enumeration ∧ d.role ≠ .actorClass := by
    rw [hselect]
    simp
  have hsurface : ((a.model (ringAnd note)).surface ⟨4⟩).fresh.all (fun u => u.reached.all (·.1 ≠ ⟨8⟩)) = true := by
    cbv
  have hidden : ∀ e ∈ a.examinationsIn (ringAnd note) (a.select (ringAnd note)), e.scope.surface.Hides ⟨8⟩ := by
    rw [hselect]
    refine hides_examineAll ?_ (by simp)
    simpa [Surface.Hides] using hsurface
  exact ⟨h, hrole, hidden, (a.audit_of_sameBut h hrole).1 hidden⟩

end Auditor

end ActorAudit
