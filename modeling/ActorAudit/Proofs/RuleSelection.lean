import ActorAudit.Proofs.EvaluationOrder
import ActorAudit.Proofs.Preorder
import ActorAudit.Proofs.Repetition

/-!
# Selections of rules

Rules that share a memo do not disturb each other. The surface is worked out before any rule runs, and what
a rule asks is known by then; only `interfaceMarker` may ask for more. So the reports of two selections of
rules that agree on `interfaceMarker` come from one table of answers. On a plain graph the memo makes no
difference at all, and the selections need not agree.
-/

namespace ActorAudit

/-! ## Rules after the surface -/

namespace Auditor

variable (m : Model) (checked : List TypeId)

theorem known_scopeOf {d : Subject} (hd : d.role = .actorClass) (memo : Memo) :
    ∃ all, Query.Known (scopeOf m checked d memo).2 (m.graph.interfacesOf d.id) all ∧
      ∀ x ∈ all, ∃ b, Query.Known (scopeOf m checked d memo).2 (m.isMarked x) b := by
  have h := Query.compositional_repeats m
  obtain ⟨_, hall⟩ := h.interfacesOf d.id memo
  obtain ⟨hs, hmarked⟩ := Query.Repeats.filter h.isMarked (m.graph.interfacesOf d.id memo).1
    (m.graph.interfacesOf d.id memo).2
  obtain ⟨hs', _⟩ := h.each h.exposureOf (m.surfaceOccurrences d.id (m.contracts d.id memo).1)
    (m.contracts d.id memo).2
  have hmemo : (scopeOf m checked d memo).2 = (m.surface d.id memo).2 := by
    unfold scopeOf
    rw [if_pos hd]
    rfl
  rw [hmemo]
  refine ⟨_, hall.mono (hs.trans hs'), fun x hx => ?_⟩
  obtain ⟨b, hb⟩ := hmarked x hx
  exact ⟨b, hb.mono hs'⟩

theorem known_actorContractFindings {d : Subject} (hd : d.role = .actorClass) (memo : Memo) : ∃ found,
    Query.Known (scopeOf m checked d memo).2
      (RuleId.actorContractFindings (scopeOf m checked d memo).1) found := by
  obtain ⟨all, hall, hmarked⟩ := known_scopeOf m checked hd memo
  obtain ⟨hm, hid, _⟩ := scopeOf_frame m checked d memo
  obtain ⟨b, hb⟩ := Query.Known.any hmarked
  unfold RuleId.actorContractFindings
  rw [hm, hid]
  cases b with
  | true => exact ⟨_, hall.bind (hb.bind (.pure _))⟩
  | false => exact ⟨_, hall.bind (hb.bind (.pure _))⟩

/-- Every other rule than `interfaceMarker` gives the answer it has right after the scope is worked out, and
leaves the memo as it is. -/
theorem known_applyRule (d : Subject) (memo : Memo) {r : Rule} (hr : r.id ≠ .interfaceMarker) :
    Query.Known (scopeOf m checked d memo).2 (applyRule (scopeOf m checked d memo).1 r)
      (applyRule (scopeOf m checked d memo).1 r (scopeOf m checked d memo).2).1 := by
  have h : ∃ found, Query.Known (scopeOf m checked d memo).2
      (applyRule (scopeOf m checked d memo).1 r) found := by
    unfold applyRule
    split
    · rename_i hrole
      obtain ⟨found, hfound⟩ : ∃ found, Query.Known (scopeOf m checked d memo).2
          (r.id.findings (scopeOf m checked d memo).1) found := by
        cases hid : r.id with
        | interfaceMarker => exact absurd hid hr
        | actorContract =>
          rw [hid, (scopeOf_frame m checked d memo).2.2] at hrole
          exact known_actorContractFindings m checked (of_decide_eq_true hrole) memo
        | _ => exact ⟨_, .pure _⟩
      exact ⟨_, hfound.bind (.pure _)⟩
    · exact ⟨_, .pure _⟩
  obtain ⟨found, hfound⟩ := h
  rw [hfound _ (.refl _)]
  exact hfound

theorem applyRule_memo (scope : Scope) {r s : Rule} (h : r.id = s.id) (memo : Memo) :
    (applyRule scope r memo).2 = (applyRule scope s memo).2 := by
  unfold applyRule
  rw [h]
  split <;> rfl

theorem code_of_mem_applyRule {scope : Scope} {r : Rule} {memo : Memo} {v : Violation}
    (h : v ∈ (applyRule scope r memo).1) : v.code = r.id.code := by
  unfold applyRule at h
  split at h
  · obtain ⟨f, _, rfl⟩ := List.mem_map.mp h
    rfl
  · cases h

/-! ## One table for all selections -/

/-- What each rule finds about a declaration right after its scope is worked out. The memo that is left
depends on whether `interfaceMarker` is run. -/
def verdicts (marker : Bool) (d : Subject) : Query (Rule → List Violation) := fun memo =>
  let p := scopeOf m checked d memo
  (fun r => (applyRule p.1 r p.2).1,
    if marker then (applyRule p.1 (.standard .interfaceMarker) p.2).2 else p.2)

/-- Each rule answers as if it were run first, however often it is repeated: only `interfaceMarker` adds to the
memo, and the others do not ask for what it adds. -/
theorem each_applyRule {scope : Scope} {memo : Memo}
    (hk : ∀ r : Rule, r.id ≠ .interfaceMarker →
      Query.Known memo (applyRule scope r) (applyRule scope r memo).1)
    (hrepeats : ∀ r, Query.Repeats (applyRule scope r)) :
    ∀ rules : List Rule, Query.each (applyRule scope) rules memo =
      (rules.map fun r => (applyRule scope r memo).1,
        if RuleId.interfaceMarker ∈ rules.map (·.id) then
          (applyRule scope (.standard .interfaceMarker) memo).2
        else memo)
  | [] => rfl
  | r :: rules => by
    rw [Query.each_cons]
    by_cases hid : r.id = .interfaceMarker
    · -- the rules that follow find their answers in the larger memo too
      have hmemo : ∀ {s : Rule}, s.id = .interfaceMarker →
          (applyRule scope s memo).2 = (applyRule scope (.standard .interfaceMarker) memo).2 :=
        fun hs => applyRule_memo scope hs memo
      have hrest : Query.Known (applyRule scope (.standard .interfaceMarker) memo).2
          (Query.each (applyRule scope) rules) (rules.map fun s => (applyRule scope s memo).1) := by
        apply Query.Known.each
        intro s _
        by_cases hs : s.id = .interfaceMarker
        · rw [← hmemo hs]
          exact (hrepeats s memo).2
        · exact (hk s hs).mono (hrepeats _ memo).1
      rw [hmemo hid, hrest _ (.refl _), if_pos (List.mem_map.mpr ⟨r, List.mem_cons_self, hid⟩), List.map_cons]
    · have hmemo : (applyRule scope r memo).2 = memo := by rw [hk r hid memo (.refl memo)]
      rw [hmemo, each_applyRule hk hrepeats rules]
      simp only [List.map_cons, List.mem_cons, Ne.symm hid, false_or]

theorem examine_eq_verdicts (rules : List Rule) (d : Subject) (memo : Memo) :
    (examine m rules checked d memo).1.violations =
        rules.flatMap (verdicts m checked (RuleId.interfaceMarker ∈ rules.map (·.id)) d memo).1 ∧
      (examine m rules checked d memo).2 =
        (verdicts m checked (RuleId.interfaceMarker ∈ rules.map (·.id)) d memo).2 := by
  have h := each_applyRule (fun r hr => known_applyRule m checked d memo hr)
    ((Query.compositional_repeats m).applyRule (scopeOf_frame m checked d memo).1) rules
  show ((Query.each (applyRule (scopeOf m checked d memo).1) rules (scopeOf m checked d memo).2).1).flatten = _ ∧
    (Query.each (applyRule (scopeOf m checked d memo).1) rules (scopeOf m checked d memo).2).2 = _
  rw [h]
  refine ⟨(List.flatMap_def ..).symm, ?_⟩
  unfold verdicts
  simp only [decide_eq_true_eq]

theorem examineAll_eq_verdicts (rules : List Rule) (ds : List Subject) (memo : Memo) :
    (examineAll m rules checked ds memo).map (·.violations) =
      (Query.each (verdicts m checked (RuleId.interfaceMarker ∈ rules.map (·.id))) ds memo).1.map
        (rules.flatMap ·) := by
  unfold examineAll
  induction ds generalizing memo with
  | nil => rfl
  | cons d ds ih =>
    obtain ⟨hv, hmemo⟩ := examine_eq_verdicts m checked rules d memo
    rw [Query.each_cons, Query.each_cons, List.map_cons, List.map_cons, hv, hmemo, ih]

def Coded (verdict : Rule → List Violation) : Prop := ∀ r, ∀ v ∈ verdict r, v.code = r.id.code

theorem coded_verdicts (marker : Bool) (ds : List Subject) (memo : Memo) :
    ∀ verdict ∈ (Query.each (verdicts m checked marker) ds memo).1, Coded verdict := by
  induction ds generalizing memo with
  | nil => intro verdict h; cases h
  | cons d ds ih =>
    rw [Query.each_cons]
    intro verdict h
    rcases List.mem_cons.mp h with rfl | h
    · exact fun r v hv => code_of_mem_applyRule hv
    · exact ih _ verdict h

end Auditor

/-! ## Plain graphs -/

def Model.Scratch (m : Model) : Memo → Prop :=
  Memo.Holds (fun id all => all = m.graph.flatten .empty id)
    fun id c => c = m.classWith id (m.graph.flatten .empty id)

theorem Model.compositional_scratch {m : Model} (h : m.graph.Plain) :
    Query.Compositional m fun q => Query.Steady m.Scratch q := by
  have hi : ∀ id, Query.Keeps m.Scratch (m.graph.interfacesOf id) (· = m.graph.flatten .empty id) :=
    keeps_interfacesOf fun _ id hI _ => Graph.flatten_eq_fresh h.wellFormed h.acyclic hI.interfaces id
  have hc : ∀ id, Query.Keeps m.Scratch (m.classify id) (· = m.classWith id (m.graph.flatten .empty id)) := by
    refine keeps_classify hi ?_
    rintro id all rfl
    rfl
  exact Query.compositional_steady Memo.holds_empty (fun id => (hi id).eq_fresh Memo.holds_empty)
    fun id => (hc id).eq_fresh Memo.holds_empty

namespace Auditor

variable (m : Model) (checked : List TypeId)

theorem examineAll_of_plain (h : m.graph.Plain) (rules : List Rule) (ds : List Subject) :
    (examineAll m rules checked ds .empty).map (·.violations) =
      (ds.map fun d r => (applyRule (scopeOf m checked d).fresh r).fresh).map (rules.flatMap ·) := by
  have hsteady := Model.compositional_scratch h
  have hexamine : ∀ d, Query.Keeps m.Scratch (examine m rules checked d) fun e =>
      e.violations = rules.flatMap fun r => (applyRule (scopeOf m checked d).fresh r).fresh := by
    intro d
    refine Query.Keeps.bind (hsteady.scopeOf checked d) ?_
    rintro scope rfl
    have hrules := hsteady.applyRule (scopeOf_frame m checked d .empty).1
    refine (Query.Keeps.each_map fun r _ => hrules r).bind ?_
    rintro found rfl
    exact .pure (List.flatMap_def ..).symm
  have hrun := (Query.Keeps.each (fun d (_ : d ∈ ds) => hexamine d) _ Memo.holds_empty).1
  rw [List.map_map, eq_comm, ← List.forall₂_eq_eq_eq, List.forall₂_map_left_iff, List.forall₂_map_right_iff]
  exact hrun.imp fun _ _ h => h.symm

/-- Two selections of rules that agree on `interfaceMarker`, or any two on a plain graph, are answered from one
table. -/
theorem exists_table {A B : List Rule}
    (h : (RuleId.interfaceMarker ∈ A.map (·.id) ↔ RuleId.interfaceMarker ∈ B.map (·.id)) ∨ m.graph.Plain)
    (ds : List Subject) : ∃ table : List (Rule → List Violation), (∀ verdict ∈ table, Coded verdict) ∧
      (examineAll m A checked ds .empty).map (·.violations) = table.map (A.flatMap ·) ∧
      (examineAll m B checked ds .empty).map (·.violations) = table.map (B.flatMap ·) := by
  rcases h with hmarker | hplain
  · refine ⟨_, coded_verdicts m checked _ ds _, examineAll_eq_verdicts m checked A ds _, ?_⟩
    rw [examineAll_eq_verdicts m checked B]
    simp only [hmarker]
  · refine ⟨_, ?_, examineAll_of_plain m checked hplain A ds, examineAll_of_plain m checked hplain B ds⟩
    intro verdict hv
    obtain ⟨d, _, rfl⟩ := List.mem_map.mp hv
    exact fun r v hv => code_of_mem_applyRule hv

/-! ## Choosing by code -/

theorem filter_flatMap_code {verdict : Rule → List Violation} (hv : Coded verdict) (p : String → Bool)
    (rules : List Rule) : (rules.flatMap verdict).filter (fun v => p v.code) =
      (rules.filter fun r => p r.id.code).flatMap verdict := by
  induction rules with
  | nil => rfl
  | cons r rules ih =>
    rw [List.flatMap_cons, List.filter_append, ih, List.filter_cons]
    split
    · rename_i hp
      rw [List.flatMap_cons, List.filter_eq_self.mpr fun v hr => by rw [hv r v hr]; exact hp]
    · rename_i hp
      rw [List.filter_eq_nil_iff.mpr fun v hr => by rw [hv r v hr]; exact hp, List.nil_append]

theorem filter_code_eq {A B : List Rule} {p : String → Bool} (hA : (A.map (·.id.code)).Nodup)
    (hB : (B.map (·.id.code)).Nodup) (h : ∀ r, r ∈ B ↔ r ∈ A ∧ p r.id.code = true) (c : String) :
    B.filter (fun r => r.id.code = c) = (A.filter fun r => p r.id.code).filter fun r => r.id.code = c := by
  have hpA : ((A.filter fun r => p r.id.code).filter fun r => r.id.code = c).Pairwise
      fun r s => r.id.code ≠ s.id.code := ((List.pairwise_map.mp hA).filter _).filter _
  have hpB : (B.filter fun r => r.id.code = c).Pairwise fun r s => r.id.code ≠ s.id.code :=
    (List.pairwise_map.mp hB).filter _
  -- a code picks at most one rule, so the order of the rules does not show
  refine List.Perm.eq_of_pairwise ?_ hpB hpA ?_
  · intro r s hr hs hne
    exact absurd ((of_decide_eq_true (List.mem_filter.mp hr).2).trans
      (of_decide_eq_true (List.mem_filter.mp hs).2).symm) hne
  · rw [List.perm_ext_iff_of_nodup (hB.of_map.filter _) ((hA.of_map.filter _).filter _)]
    intro r
    simp only [List.mem_filter, h]

theorem settle_table {A B : List Rule} {p : String → Bool} (hA : (A.map (·.id.code)).Nodup)
    (hB : (B.map (·.id.code)).Nodup) (h : ∀ r, r ∈ B ↔ r ∈ A ∧ p r.id.code = true)
    {table : List (Rule → List Violation)} (ht : ∀ verdict ∈ table, Coded verdict) :
    Violation.settle (table.flatMap (B.flatMap ·)) =
      (Violation.settle (table.flatMap (A.flatMap ·))).filter fun v => p v.code := by
  rw [← Violation.settle_filter]
  · refine Violation.settle_congr fun c => ?_
    rw [List.filter_flatMap, List.filter_flatMap, List.filter_flatMap]
    refine List.flatMap_congr fun verdict hverdict => ?_
    have hv := ht verdict hverdict
    show (B.flatMap verdict).filter (fun v => decide (v.code = c)) =
      ((A.flatMap verdict).filter fun v => p v.code).filter fun v => decide (v.code = c)
    rw [filter_flatMap_code hv p, filter_flatMap_code hv (decide <| · = c),
      filter_flatMap_code hv (decide <| · = c), filter_code_eq hA hB h]
  · intro v w hvw
    rw [Violation.code_eq_of_sameIdentity hvw]

end Auditor

/-! ## Selections -/

/-- The report with the violations of some codes only. -/
def Report.only (r : Report) (codes : List String) : Report :=
  { r with violations := r.violations.filter fun v => v.code ∈ codes }

namespace Auditor

variable (a : Auditor) {L M : List Rule}

theorem mem_activeRules {r : Rule} : r ∈ ({ a with rules := L } : Auditor).activeRules ↔
    ∃ s ∈ L, a.settings.isEnabled s.id = true ∧ ⟨s.id, (a.settings.severity? s.id).getD s.severity⟩ = r := by
  simp only [activeRules, List.mem_map, List.mem_filter, and_assoc]

theorem nodup_code_activeRules (hL : (L.map (·.id.code)).Nodup) :
    (({ a with rules := L } : Auditor).activeRules.map (·.id.code)).Nodup := by
  unfold activeRules
  rw [List.map_map]
  exact hL.sublist (List.filter_sublist.map _)

theorem mem_activeRules_iff (hL : (L.map (·.id.code)).Nodup) (hsub : M ⊆ L) (r : Rule) :
    r ∈ ({ a with rules := M } : Auditor).activeRules ↔
      r ∈ ({ a with rules := L } : Auditor).activeRules ∧ decide (r.id.code ∈ M.map (·.id.code)) = true := by
  rw [mem_activeRules, mem_activeRules, decide_eq_true_eq]
  constructor
  · rintro ⟨s, hs, he, rfl⟩
    exact ⟨⟨s, hsub hs, he, rfl⟩, List.mem_map.mpr ⟨s, hs, rfl⟩⟩
  · rintro ⟨⟨s, hs, he, rfl⟩, hc⟩
    obtain ⟨t, ht, hts⟩ := List.mem_map.mp hc
    obtain rfl : t = s := List.inj_on_of_nodup_map hL (hsub ht) hs hts
    exact ⟨t, ht, he, rfl⟩

theorem interfaceMarker_mem_activeRules :
    RuleId.interfaceMarker ∈ ({ a with rules := L } : Auditor).activeRules.map (·.id) ↔
      a.settings.isEnabled .interfaceMarker = true ∧ RuleId.interfaceMarker ∈ L.map (·.id) := by
  simp only [List.mem_map, mem_activeRules]
  constructor
  · rintro ⟨_, ⟨s, hs, he, rfl⟩, hid⟩
    rw [← hid]
    exact ⟨he, s, hs, rfl⟩
  · rintro ⟨he, s, hs, hid⟩
    rw [← hid] at he ⊢
    exact ⟨_, ⟨s, hs, he, rfl⟩, rfl⟩

/-- An audit with some of the rules reports what an audit with all of them reports under their codes. -/
theorem audit_eq_only (g : Graph) (hL : (L.map (·.id.code)).Nodup) (hM : M.Nodup) (hsub : M ⊆ L)
    (hg : (RuleId.interfaceMarker ∈ L.map (·.id) ↔ RuleId.interfaceMarker ∈ M.map (·.id)) ∨ g.Plain) :
    audit { a with rules := M } g = (audit { a with rules := L } g).only (M.map (·.id.code)) := by
  have hM' : (M.map (·.id.code)).Nodup :=
    hM.map_on fun r hr s hs => List.inj_on_of_nodup_map hL (hsub hr) (hsub hs)
  have hA := nodup_code_activeRules a hL
  have hB := nodup_code_activeRules a hM'
  obtain ⟨table, ht, hrunA, hrunB⟩ := exists_table (A := activeRules { a with rules := L })
    (B := activeRules { a with rules := M }) (a.model g) ((a.select g).map (·.id))
    (hg.imp_left fun h => by rw [interfaceMarker_mem_activeRules, interfaceMarker_mem_activeRules, h])
    (a.select g)
  have hsettle := settle_table (p := fun c => c ∈ M.map (·.id.code)) hA hB (mem_activeRules_iff a hL hsub) ht
  rw [List.flatMap_def, List.flatMap_def, ← hrunA, ← hrunB, ← List.flatMap_def, ← List.flatMap_def] at hsettle
  exact congrArg (Report.mk · (UInt64.ofNat (a.select g).length)) hsettle

theorem audit_of_perm (g : Graph) (hL : (L.map (·.id.code)).Nodup) (h : M.Perm L) :
    audit { a with rules := M } g = audit { a with rules := L } g := by
  have hM := audit_eq_only a g hL (h.nodup_iff.mpr hL.of_map) h.subset
    (.inl (h.map (·.id)).mem_iff.symm)
  have hself := audit_eq_only a g hL hL.of_map (List.Subset.refl L) (.inl Iff.rfl)
  rw [hM, hself, Report.only, Report.only]
  simp only [(h.map (·.id.code)).mem_iff, List.filter_filter, Bool.and_self]

/-- Rules do not interfere with each other. A selection of rules with distinct codes reports what all of
them report under the codes of the selection, whole violations and in the same order, as long as
`interfaceMarker` is in both or in neither, or the graph is plain. The order of the rules does not matter,
and the minimal preset is a part of the recommended one on every graph. -/
theorem audit_rules (g : Graph) :
    (∀ {L M : List Rule}, (L.map (·.id.code)).Nodup → M.Nodup → M ⊆ L →
      (RuleId.interfaceMarker ∈ L.map (·.id) ↔ RuleId.interfaceMarker ∈ M.map (·.id)) ∨ g.Plain →
      audit { a with rules := M } g = (audit { a with rules := L } g).only (M.map (·.id.code))) ∧
    (∀ {L M : List Rule}, (L.map (·.id.code)).Nodup → M.Perm L →
      audit { a with rules := M } g = audit { a with rules := L } g) ∧
    audit { a with rules := Preset.minimal.rules } g =
      (audit { a with rules := Preset.recommended.rules } g).only ["DAPR1405", "DAPR1413", "DAPR1414"] := by
  refine ⟨audit_eq_only a g, audit_of_perm a g, ?_⟩
  exact audit_eq_only a g (by decide) (by decide) (by decide) (.inl (by decide))

theorem audit_rules_ring_ladder :
    let a : Auditor := ⟨Rule.all, [], {}, .error⟩
    let pair : List Rule := [.standard .parameterType, .standard .interfaceMarker]
    (Rule.all.map (·.id.code)).Nodup ∧ pair ⊆ Rule.all ∧
    audit { a with rules := pair } Graph.ring = (audit a Graph.ring).only ["DAPR1409", "DAPR1405"] ∧
    Graph.ladder.Plain ∧
    audit { a with rules := [.standard .actorContract] } Graph.ladder =
      (audit a Graph.ladder).only ["DAPR1413"] := by
  refine ⟨by decide, by decide, ?_, Graph.ladder_plain, ?_⟩
  · exact (audit_rules _ _).1 (by decide) (by decide) (by decide) (.inl (by decide))
  · exact (audit_rules _ _).1 (by decide) (by decide) (by decide) (.inr Graph.ladder_plain)

end Auditor

end ActorAudit
