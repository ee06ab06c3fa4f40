import ActorAudit.Proofs.MirroredFindings
import ActorAudit.Proofs.Settling

/-!
# Runs on mirrored graphs

An auditor selects declarations that mirror each other and takes them in the same order, so two runs on
mirrored graphs are aligned declaration by declaration and rule by rule. What is found on the graph that says
more is a sublist of what is found on the other.
-/

namespace ActorAudit

open List (Forall₂)

variable {R : TypeId → TypeId → Prop}

/-- Wherever the graphs mirror each other, the second says at least as much as the first. -/
structure Model.Annotates (R : TypeId → TypeId → Prop) (m m' : Model) : Prop extends Model.Mirrors R m m' where
  details : ∀ {id id'}, R id id' → Option.Rel TypeSymbol.Annotates (m.graph.get? id) (m'.graph.get? id')

structure Subject.Annotates (R : TypeId → TypeId → Prop) (d d' : Subject) : Prop where
  id : R d.id d'.id
  definition : d.definition.Mirrors R d'.definition
  role : d.role = d'.role
  details : d.definition.Annotates d'.definition

theorem Model.Mirrors.role {m m' : Model} (h : m.Mirrors R m') {id id' : TypeId} (hid : R id id')
    {d d' : TypeSymbol} (hdd : d.Mirrors R d') : m.role id d = m'.role id' d' := by
  have hactor : m.isActor id = m'.isActor id' := by
    unfold Model.isActor
    rw [h.framework]
    exact rel_any (fun hp => hp.2.is _) (h.graph.ancestors hid)
  unfold Model.role
  rw [hdd.kind, hactor]

/-! ## Declarations -/

namespace Auditor

theorem related_applyRule {s s' : Scope} (h : s.Annotates R s') (r : Rule) :
    Query.Related (Model.Agree R s.model s'.model) (applyRule s r) (applyRule s' r)
      fun vs vs' => vs'.Sublist vs := by
  unfold applyRule
  rw [← h.role]
  split
  · rename_i hr
    exact (h.findings r.id hr).bind fun fs fs' hfs => .pure (hfs.map _)
  · exact .pure (.refl _)

theorem related_rules {s s' : Scope} (h : s.Annotates R s') (rules : List Rule) :
    Query.Related (Model.Agree R s.model s'.model) (Query.each (applyRule s) rules)
      (Query.each (applyRule s') rules) fun found found' => found'.flatten.Sublist found.flatten := by
  have hrules : Query.Related (Model.Agree R s.model s'.model) (Query.each (applyRule s) rules)
      (Query.each (applyRule s') rules) (Forall₂ fun vs vs' => vs'.Sublist vs) := by
    refine Query.Related.each (P := Eq) (fun r _ hr => ?_) (List.forall₂_same.mpr fun _ _ => rfl)
    subst hr
    exact related_applyRule h r
  refine hrules.mono fun found found' hfound => ?_
  rw [← List.flatMap_id, ← List.flatMap_id]
  exact sublist_flatMap (fun _ _ hvs => hvs) hfound

section
variable {m m' : Model} {checked checked' : List TypeId}

theorem mirrored_scopeOf (h : m.Mirrors R m') (checked checked' : List TypeId) (d d' : Subject)
    (hid : R d.id d'.id) (hrole : d.role = d'.role) :
    Query.Related (Model.Agree R m m') (scopeOf m checked d) (scopeOf m' checked' d') fun s s' =>
      s = ⟨m, d.id, d.definition, d.role, s.surface, checked⟩ ∧
      s' = ⟨m', d'.id, d'.definition, d'.role, s'.surface, checked'⟩ ∧
      Forall₂ (Exposure.Mirrors R m) s.surface s'.surface := by
  unfold scopeOf
  rw [← hrole]
  split
  · exact (h.surface hid).bind fun l l' hl => .pure ⟨rfl, rfl, hl⟩
  · exact .pure ⟨rfl, rfl, .nil⟩

variable (h : m.Annotates R m') (hchecked : Forall₂ R checked checked')
include h

theorem annotates_of_mirrors {u u' : Exposure} (hu : Exposure.Mirrors R m u u') :
    Exposure.Annotates R m m' u u' :=
  { hu with seen := hu.reached.imp fun _ _ hp => ⟨hp, h.details⟩ }

include hchecked

theorem related_scopeOf {d d' : Subject} (hd : d.Annotates R d') :
    Query.Related (Model.Agree R m m') (scopeOf m checked d) (scopeOf m' checked' d')
      fun s s' => s.model = m ∧ s'.model = m' ∧ s.Annotates R s' := by
  refine (mirrored_scopeOf h.toMirrors checked checked' d d' hd.id hd.role).mono fun s s' hs => ?_
  obtain ⟨hs, hs', hsurface⟩ := hs
  rw [hs, hs']
  exact ⟨rfl, rfl, h.toMirrors, hd.id, hd.definition, hd.role, fun _ => hd.details,
    hsurface.imp fun _ _ hu => annotates_of_mirrors h hu, hchecked⟩

theorem related_examine (rules : List Rule) {d d' : Subject} (hd : d.Annotates R d') :
    Query.Related (Model.Agree R m m') (examine m rules checked d) (examine m' rules checked' d')
      fun e e' => e'.violations.Sublist e.violations := by
  refine (related_scopeOf h hchecked hd).bind ?_
  rintro s s' ⟨rfl, rfl, hs⟩
  exact (related_rules hs rules).bind fun found found' hfound => .pure hfound

end

/-! ## Audits -/

theorem mem_select {a : Auditor} {g : Graph} {d : Subject} (h : d ∈ a.select g) :
    d.id ∈ g.declarations ∧ g.get? d.id = some d.definition := by
  obtain ⟨id, hid, hd⟩ := List.mem_filterMap.mp h
  unfold choose at hd
  cases hget : g.get? id with
  | none => simp [hget] at hd
  | some e =>
    simp only [hget] at hd
    split_ifs at hd
    simp at hd
    subst hd
    exact ⟨hid, hget⟩

section
variable (a : Auditor) {g g' : Graph} (h : (a.model g).Annotates R (a.model g'))
include h

theorem select_annotates : Forall₂ (Subject.Annotates R) (a.select g) (a.select g') := by
  refine List.rel_filterMap (fun id id' hid => ?_) h.graph.declarations
  unfold choose
  obtain ⟨hd, hd'⟩ | ⟨d, d', hd, hd', hdd, hann⟩ := rel_cases (rel_and (h.graph.get? hid) (h.details hid))
  · replace hd : g.get? id = none := hd
    replace hd' : g'.get? id' = none := hd'
    rw [hd, hd']
    exact .none
  · replace hd : g.get? id = some d := hd
    replace hd' : g'.get? id' = some d' := hd'
    have hexcluded : a.isExcluded d = a.isExcluded d' := by
      unfold isExcluded
      rw [hdd.location]
    simp only [hd, hd', ← hdd.isGenerated, ← hexcluded]
    cases d.isGenerated && a.settings.audit.excludeGenerated with
    | true => exact .none
    | false =>
      cases a.isExcluded d with
      | true => exact .none
      | false => exact .some ⟨hid, hdd, h.toMirrors.role hid hdd, hann⟩

theorem violations_sublist {order order' : List Subject} (horder : Forall₂ (Subject.Annotates R) order order') :
    ((a.examinationsIn g' order').flatMap (·.violations)).Sublist
      ((a.examinationsIn g order).flatMap (·.violations)) := by
  have hchecked : Forall₂ R ((a.select g).map (·.id)) ((a.select g').map (·.id)) :=
    List.rel_map (fun _ _ hd => hd.id) (a.select_annotates h)
  have hrun := Query.Related.each (fun _ _ hd => related_examine h hchecked a.activeRules hd) horder
  exact sublist_flatMap (fun _ _ he => he) (hrun .empty .empty .empty).1

/-- Graphs that say the same wherever they mirror each other have the same report. -/
theorem auditIn_eq_of_annotates {R' : TypeId → TypeId → Prop} (h' : (a.model g').Annotates R' (a.model g))
    {order order' : List Subject} (horder : Forall₂ (Subject.Annotates R) order order')
    (horder' : Forall₂ (Subject.Annotates R') order' order) : a.auditIn g' order' = a.auditIn g order := by
  have hviolations := (a.violations_sublist h horder).antisymm (a.violations_sublist h' horder')
  have hchecked := (a.select_annotates h).length_eq
  unfold auditIn
  rw [hviolations, hchecked]

end

end Auditor

end ActorAudit
