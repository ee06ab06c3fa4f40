import ActorAudit.Proofs.EvaluationOrder
import ActorAudit.Proofs.Repetition

/-!
# Runs in hindsight

What was asked in a run is known to the memo that the run ends with. A known answer comes apart: if that of a
composite query is known, so are those of the queries it was put together from, and each of them can be read off
the memo. So a run is what its rules say from its last memo, which they leave as it is.
-/

namespace ActorAudit

namespace Query

variable {α β : Type} {last : Memo}

/-! ## Queries that repeat -/

theorem Repeats.bind {q : Query α} {f : α → Query β} (hq : Repeats q)
    (hf : ∀ memo, Repeats (f (q memo).1)) : Repeats (q >>= f) := by
  intro memo
  obtain ⟨hs, hk⟩ := hq memo
  obtain ⟨hs', hk'⟩ := hf memo (q memo).2
  exact ⟨hs.trans hs', (hk.mono hs').bind hk'⟩

-- queries are put together in the same way over every model, so the empty one will do
theorem Repeats.pure (a : α) : Repeats (Pure.pure a) := (compositional_repeats ⟨{}, {}⟩).pure a

theorem Repeats.map {q : Query α} (hq : Repeats q) (f : α → β) :
    Repeats (q >>= fun a => Pure.pure (f a)) := hq.bind fun memo => .pure (f (q memo).1)

theorem repeats_each {f : α → Query β} (hf : ∀ a, Repeats (f a)) (l : List α) : Repeats (each f l) :=
  (compositional_repeats ⟨{}, {}⟩).each hf l

theorem repeats_filter {p : α → Query Bool} (hp : ∀ a, Repeats (p a)) (l : List α) :
    Repeats (filter p l) := (compositional_repeats ⟨{}, {}⟩).filter hp l

theorem repeats_any {p : α → Query Bool} (hp : ∀ a, Repeats (p a)) (l : List α) : Repeats (any p l) :=
  (compositional_repeats ⟨{}, {}⟩).any hp l

/-! ## Known answers come apart -/

theorem Known.eq {q : Query α} {a : α} (h : Known last q a) : q last = (a, last) := h last (.refl last)

theorem Known.of_bind {q : Query α} {f : α → Query β} {b : β} (hq : Repeats q)
    (hf : Repeats (f (q last).1)) (h : Known last (q >>= f) b) :
    Known last q (q last).1 ∧ Known last (f (q last).1) b := by
  have hend : f (q last).1 (q last).2 = (b, last) := h.eq
  obtain ⟨hs, hk⟩ := hf (q last).2
  rw [hend] at hs hk
  exact ⟨(hq last).2.mono hs, hk⟩

theorem Known.of_map {q : Query α} {f : α → β} {b : β} (hq : Repeats q)
    (h : Known last (q >>= fun a => Pure.pure (f a)) b) : Known last q (q last).1 ∧ b = f (q last).1 := by
  obtain ⟨hk, hb⟩ := Known.of_bind (f := fun a => Pure.pure (f a)) hq (.pure _) h
  exact ⟨hk, (congrArg Prod.fst hb.eq).symm⟩

section
variable {l : List α}

theorem Known.of_each {f : α → Query β} (hf : ∀ a, Repeats (f a)) {bs : List β}
    (h : Known last (Query.each f l) bs) :
    (∀ a ∈ l, Known last (f a) (f a last).1) ∧ bs = l.map fun a => (f a last).1 := by
  induction l generalizing bs with
  | nil => exact ⟨by simp, (congrArg Prod.fst h.eq).symm⟩
  | cons a l ih =>
    obtain ⟨ha, h⟩ := Known.of_bind (hf a) ((repeats_each hf l).map _) h
    obtain ⟨hl, hbs⟩ := Known.of_map (repeats_each hf l) h
    obtain ⟨hmem, heq⟩ := ih hl
    rw [hbs, heq]
    exact ⟨List.forall_mem_cons.mpr ⟨ha, hmem⟩, rfl⟩

theorem Known.of_filter {p : α → Query Bool} (hp : ∀ a, Repeats (p a)) {r : List α}
    (h : Known last (Query.filter p l) r) : r = l.filter fun a => (p a last).1 := by
  induction l generalizing r with
  | nil => exact (congrArg Prod.fst h.eq).symm
  | cons a l ih =>
    obtain ⟨_, h⟩ := Known.of_bind (hp a) ((repeats_filter hp l).map _) h
    obtain ⟨hl, hr⟩ := Known.of_map (repeats_filter hp l) h
    rw [hr, ih hl, List.filter_cons]

theorem Known.of_any {p : α → Query Bool} (hp : ∀ a, Repeats (p a)) {b : Bool}
    (h : Known last (Query.any p l) b) : b = l.any fun a => (p a last).1 := by
  induction l generalizing b with
  | nil => exact (congrArg Prod.fst h.eq).symm
  | cons a l ih =>
    have hrest : ∀ found : Bool, Repeats (if found = true then Pure.pure true else Query.any p l) := by
      intro found
      cases found with
      | true => exact .pure _
      | false => exact repeats_any hp l
    obtain ⟨_, h⟩ := Known.of_bind (hp a) (hrest _) h
    rw [List.any_cons]
    cases hfound : (p a last).1 with
    | true =>
      rw [hfound] at h
      exact (congrArg Prod.fst h.eq).symm
    | false =>
      rw [hfound] at h
      exact ih h

end

end Query

/-! ## Runs -/

namespace Auditor

variable {m : Model} {rules : List Rule} {checked : List TypeId} {last : Memo}

theorem repeats_scopeOf (d : Subject) : Query.Repeats (scopeOf m checked d) :=
  (Query.compositional_repeats m).scopeOf checked d

theorem repeats_applyRule {scope : Scope} (hs : scope.model = m) (r : Rule) :
    Query.Repeats (applyRule scope r) := (Query.compositional_repeats m).applyRule hs r

theorem repeats_examine (d : Subject) : Query.Repeats (examine m rules checked d) := by
  refine (repeats_scopeOf d).bind fun memo => ?_
  exact (Query.repeats_each (repeats_applyRule (scopeOf_frame m checked d memo).1) rules).map _

theorem scopeOf_fst (m : Model) (checked : List TypeId) (d : Subject) (memo : Memo) : (scopeOf m checked d memo).1 =
    ⟨m, d.id, d.definition, d.role, (scopeOf m checked d memo).1.surface, checked⟩ := by
  unfold scopeOf
  split <;> rfl

theorem applyRule_fst (scope : Scope) (r : Rule) (memo : Memo) : (applyRule scope r memo).1 =
    if r.id.appliesTo scope.role = true then
      (r.id.findings scope memo).1.map (Finding.toViolation r.id r.severity) else [] := by
  unfold applyRule
  split <;> rfl

theorem findings_of_known {scope : Scope} {r : Rule} (happlies : r.id.appliesTo scope.role = true)
    {vs : List Violation} (h : Query.Known last (applyRule scope r) vs) :
    Query.Known last (r.id.findings scope) (r.id.findings scope last).1 ∧
      vs = (r.id.findings scope last).1.map (Finding.toViolation r.id r.severity) := by
  unfold applyRule at h
  rw [if_pos happlies] at h
  exact Query.Known.of_map ((Query.compositional_repeats scope.model).findings rfl r.id) h

theorem known_examine {d : Subject} {e : Examination} (h : Query.Known last (examine m rules checked d) e) :
    Query.Known last (scopeOf m checked d) e.scope ∧
    (∀ r ∈ rules, Query.Known last (applyRule e.scope r) (applyRule e.scope r last).1) ∧
    e.violations = rules.flatMap fun r => (applyRule e.scope r last).1 := by
  have hrules : ∀ r, Query.Repeats (applyRule (scopeOf m checked d last).1 r) :=
    repeats_applyRule (scopeOf_frame m checked d last).1
  obtain ⟨hscope, h⟩ := Query.Known.of_bind (repeats_scopeOf d) ((Query.repeats_each hrules rules).map _) h
  obtain ⟨hfound, he⟩ := Query.Known.of_map (Query.repeats_each hrules rules) h
  obtain ⟨hknown, heq⟩ := Query.Known.of_each hrules hfound
  rw [he, heq]
  exact ⟨hscope, hknown, (List.flatMap_def ..).symm⟩

variable (m rules checked) (ds : List Subject) (memo : Memo)

/-- The memo that a run over declarations ends with. -/
def lastMemo : Memo := (Query.each (examine m rules checked) ds memo).2

/-- A run is what its declarations give from its last memo, which has all the answers. -/
theorem known_examineAll :
    (∀ d ∈ ds, Query.Known (lastMemo m rules checked ds memo) (examine m rules checked d)
      (examine m rules checked d (lastMemo m rules checked ds memo)).1) ∧
    examineAll m rules checked ds memo =
      ds.map fun d => (examine m rules checked d (lastMemo m rules checked ds memo)).1 :=
  Query.Known.of_each repeats_examine (Query.repeats_each repeats_examine ds memo).2

end Auditor

end ActorAudit
