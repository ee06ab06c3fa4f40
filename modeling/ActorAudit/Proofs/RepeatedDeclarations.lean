import ActorAudit.Proofs.Redeclaration
import ActorAudit.Proofs.Severities

/-!
# Repeated declarations

A graph may declare a type more than once, and then it is checked as often. The first time leaves every answer
behind that the later ones ask for, on graphs where answers depend on what was asked before as well. So a later
time adds nothing to the memo and appends what was appended before, and settling drops it.
-/

namespace ActorAudit

/-- After the items `seen`, the list `kept` is `l` without the occurrences `gone`, each of which repeats an
earlier one. -/
inductive Thins {α : Type} : List α → List α → List α → List α → Prop
  | nil {seen} : Thins seen [] [] []
  | keep {seen x l kept gone} : Thins (seen ++ [x]) l kept gone → Thins seen (x :: l) (x :: kept) gone
  | drop {seen x l kept gone} : x ∈ seen → Thins seen l kept gone → Thins seen (x :: l) kept (x :: gone)

namespace Thins

variable {α β : Type} {seen l kept gone : List α}

theorem length_eq (h : Thins seen l kept gone) : l.length = kept.length + gone.length := by
  induction h with
  | nil => rfl
  | keep _ ih =>
    simp only [List.length_cons]
    omega
  | drop _ _ ih =>
    simp only [List.length_cons]
    omega

theorem mem_iff (h : Thins seen l kept gone) (x : α) : x ∈ seen ∨ x ∈ kept ↔ x ∈ seen ∨ x ∈ l := by
  induction h with
  | nil => rfl
  | keep _ ih =>
    simp only [List.mem_append, List.mem_singleton, or_assoc] at ih
    simpa only [List.mem_cons] using ih
  | drop hx _ ih =>
    rw [ih, List.mem_cons]
    constructor
    · exact Or.imp_right .inr
    · rintro (h | rfl | h)
      · exact .inl h
      · exact .inl hx
      · exact .inr h

/-- What is read off single items repeats where they do. -/
theorem filterMap (h : Thins seen l kept gone) (f : α → Option β) :
    Thins (seen.filterMap f) (l.filterMap f) (kept.filterMap f) (gone.filterMap f) := by
  induction h with
  | nil => exact .nil
  | @keep seen x l kept gone _ ih =>
    rw [List.filterMap_append] at ih
    cases hx : f x with
    | none => simpa [List.filterMap_cons, hx] using ih
    | some y => simpa [List.filterMap_cons, hx] using Thins.keep (by simpa [hx] using ih)
  | @drop seen x l kept gone hmem _ ih =>
    cases hx : f x with
    | none => simpa [List.filterMap_cons, hx] using ih
    | some y => simpa [List.filterMap_cons, hx] using Thins.drop (List.mem_filterMap.mpr ⟨x, hmem, hx⟩) ih

end Thins

/-! ## Settling drops repeated batches -/

namespace Violation

/-- A batch of violations that were all appended before does not show. -/
theorem settle_absorbs {vs batch : List Violation} (h : batch ⊆ vs) (ws : List Violation) :
    settle (vs ++ (batch ++ ws)) = settle (vs ++ ws) := by
  have hsub : vs ++ (batch ++ ws) ⊆ vs ++ ws := by
    intro v hv
    simp only [List.mem_append] at hv ⊢
    rcases hv with hv | hv | hv
    · exact .inl hv
    · exact .inl (h hv)
    · exact .inr hv
  have hsup : vs ++ ws ⊆ vs ++ (batch ++ ws) := by
    intro v hv
    simp only [List.mem_append] at hv ⊢
    exact hv.imp_right .inr
  rw [← List.forall₂_eq_eq_eq]
  refine (settle_of_subset hsub hsup).imp fun v w hvw => ?_
  obtain ⟨hv, hw, ho⟩ := hvw
  -- both are the first that ties with them, and no first stands in the batch
  have hties : (fun x => decide (order x w = .eq)) = fun x => decide (order x v = .eq) := by
    funext x
    rw [Std.TransCmp.congr_right (a := x) ho]
  have hfirst := find?_of_mem_settle hv
  have hfirst' := find?_of_mem_settle hw
  rw [hties, List.find?_append] at hfirst'
  rw [List.find?_append, List.find?_append] at hfirst
  cases hvs : vs.find? fun x => decide (order x v = .eq) with
  | some x =>
    rw [hvs] at hfirst hfirst'
    exact Option.some.inj (hfirst.symm.trans hfirst')
  | none =>
    have hbatch : batch.find? (fun x => decide (order x v = .eq)) = none := by
      rw [List.find?_eq_none] at hvs ⊢
      exact fun x hx => hvs x (h hx)
    rw [hvs, hbatch] at hfirst
    rw [hvs] at hfirst'
    exact Option.some.inj (hfirst.symm.trans hfirst')

theorem settle_of_thins {α : Type} {seen l kept gone : List α} (h : Thins seen l kept gone)
    (k : α → List Violation) :
    settle (seen.flatMap k ++ kept.flatMap k) = settle (seen.flatMap k ++ l.flatMap k) := by
  induction h with
  | nil => rfl
  | keep _ ih => simpa [List.flatMap_append, List.flatMap_cons] using ih
  | @drop seen x l kept gone hx _ ih =>
    have hbatch : k x ⊆ seen.flatMap k := fun v hv => List.mem_flatMap.mpr ⟨x, hx, hv⟩
    rw [List.flatMap_cons, settle_absorbs hbatch, ih]

end Violation

/-! ## Runs -/

namespace Auditor

section
variable {m : Model} {rules : List Rule} {checked : List TypeId} {seen ds kept gone : List Subject}

/-- The step leaves the memo as it is where a declaration repeats, so the runs end alike. -/
theorem lastMemo_of_thins (h : Thins seen ds kept gone) {memo : Memo}
    (hseen : ∀ d ∈ seen, ∃ e, Query.Known memo (examine m rules checked d) e) :
    lastMemo m rules checked kept memo = lastMemo m rules checked ds memo := by
  induction h generalizing memo with
  | nil => rfl
  | @keep seen d ds kept gone _ ih =>
    have hrepeats : Query.Repeats (examine m rules checked d) := repeats_examine d
    obtain ⟨hsub, hknown⟩ := hrepeats memo
    refine ih fun x hx => ?_
    rcases List.mem_append.mp hx with hx | hx
    · obtain ⟨e, he⟩ := hseen x hx
      exact ⟨e, he.mono hsub⟩
    · rw [List.mem_singleton.mp hx]
      exact ⟨_, hknown⟩
  | @drop seen d ds kept gone hd _ ih =>
    obtain ⟨e, he⟩ := hseen d hd
    have hstep : lastMemo m rules checked (d :: ds) memo = lastMemo m rules checked ds memo := by
      unfold lastMemo
      rw [Query.each_cons, he.eq]
    rw [hstep]
    exact ih hseen

theorem settle_examineAll_of_thins (h : Thins [] ds kept gone) (memo : Memo) :
    Violation.settle ((examineAll m rules checked kept memo).flatMap (·.violations)) =
      Violation.settle ((examineAll m rules checked ds memo).flatMap (·.violations)) := by
  rw [(known_examineAll m rules checked kept memo).2, (known_examineAll m rules checked ds memo).2,
    lastMemo_of_thins h (by simp), List.flatMap_map, List.flatMap_map]
  exact Violation.settle_of_thins h _

end

/-! ## Reports -/

def subject? (a : Auditor) (g : Graph) (id : TypeId) : Option Subject :=
  match a.choose g id with
  | .ok d => some ⟨id, d, (a.model g).role id d⟩
  | .error _ => none

theorem select_redeclare (a : Auditor) (g : Graph) (ds : List TypeId) :
    a.select (g.redeclare ds) = ds.filterMap (a.subject? g) := by
  have hrole : (a.model (g.redeclare ds)).role = (a.model g).role := (a.model g).role_redeclare ds
  unfold select
  rw [hrole]
  rfl

theorem isSome_subject? (a : Auditor) (g : Graph) (id : TypeId) :
    (a.subject? g id).isSome = (a.choose g id).isOk := by
  unfold subject?
  cases a.choose g id <;> rfl

/-- To declare a type again changes no violation. Of the occurrences that are taken away, those that were checked
are missing from the count. -/
theorem audit_of_thins (a : Auditor) (g : Graph) {kept gone : List TypeId}
    (h : Thins [] g.declarations kept gone) :
    let again := gone.countP fun id => (a.choose g id).isOk
    (a.audit (g.redeclare kept)).violations = (a.audit g).violations ∧
    (a.select g).length = (a.select (g.redeclare kept)).length + again ∧
    (a.audit g).checked = (a.audit (g.redeclare kept)).checked + UInt64.ofNat again := by
  intro again
  have hselect : Thins [] (a.select g) (a.select (g.redeclare kept)) (gone.filterMap (a.subject? g)) := by
    rw [select_redeclare]
    exact h.filterMap _
  have hchecked : ∀ i, i ∈ (a.select (g.redeclare kept)).map (·.id) ↔ i ∈ (a.select g).map (·.id) := by
    intro i
    have hmem : ∀ d, d ∈ a.select (g.redeclare kept) ↔ d ∈ a.select g := by simpa using hselect.mem_iff
    simp only [List.mem_map, hmem]
  have hlength : (a.select g).length = (a.select (g.redeclare kept)).length + again := by
    rw [hselect.length_eq, List.length_filterMap_eq_countP]
    simp only [isSome_subject?, again]
  refine ⟨?_, hlength, ?_⟩
  · show Violation.settle ((examineAll ((a.model g).redeclare kept) _ _ _ _).flatMap _) = _
    rw [violations_redeclare kept hchecked, settle_examineAll_of_thins hselect]
    rfl
  · show UInt64.ofNat (a.select g).length = UInt64.ofNat (a.select (g.redeclare kept)).length + _
    rw [hlength, UInt64.ofNat_add]

/-! ### A relay that is declared twice

Its contract has the marker from a base class. Once the interfaces of the contract are known, those of the relay
would be more than when it is checked first. -/

def relay : Graph where
  types := #[
    { name := "IActor", inNamespace := some "Dapr.Actors", kind := .interfaceType },
    { name := "Base", kind := .classType, interfaces := [⟨0⟩] },
    { name := "IRelay", kind := .interfaceType, baseType := some ⟨1⟩ },
    { name := "Actor", inNamespace := some "Dapr.Actors.Runtime", kind := .classType },
    { name := "Relay", kind := .classType, baseType := some ⟨3⟩, interfaces := [⟨2⟩],
      members := [{ name := "Hops", location := some ⟨"Relay.cs", 3, 5⟩ }] }]
  declarations := [⟨4⟩, ⟨2⟩, ⟨4⟩, ⟨9⟩, ⟨9⟩, ⟨2⟩]

example : relay.flatten .empty ⟨4⟩ = [⟨2⟩] := by cbv

example : relay.flatten (Memo.empty.recordInterfaces ⟨2⟩ [⟨0⟩]) ⟨4⟩ = [⟨2⟩, ⟨0⟩] := by cbv

/-- Of the three repetitions, one points nowhere and was not counted. -/
theorem audit_of_thins_relay :
    let a : Auditor := ⟨Rule.all, [], {}, .error⟩
    let once := relay.redeclare [⟨4⟩, ⟨2⟩, ⟨9⟩]
    Thins [] relay.declarations once.declarations [⟨4⟩, ⟨9⟩, ⟨2⟩] ∧
    (a.audit once).violations = (a.audit relay).violations ∧
    (a.select relay).length = (a.select once).length + 2 ∧ (a.audit relay).checked = (a.audit once).checked + 2 := by
  intro a once
  have h : Thins [] relay.declarations once.declarations [⟨4⟩, ⟨9⟩, ⟨2⟩] :=
    .keep (.keep (.drop (by decide) (.keep (.drop (by decide) (.drop (by decide) .nil)))))
  have hagain : [(⟨4⟩ : TypeId), ⟨9⟩, ⟨2⟩].countP (fun id => (a.choose relay id).isOk) = 2 := by cbv
  have haudit := a.audit_of_thins relay h
  rw [hagain] at haudit
  exact ⟨h, haudit⟩

end Auditor

end ActorAudit
