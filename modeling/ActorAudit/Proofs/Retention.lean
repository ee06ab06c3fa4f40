import ActorAudit.Proofs.Settling

/-!
# What a report keeps

Violations are appended in batches and settled at the end. Of the violations with one identity the report
keeps the one with the least labels, and of those with the least labels the first that was appended. Stability
of the sort is what makes it the first: the violations of one identity can be sorted on their own, and what
stands at the head of a stable sort stands before everything it ties with.
-/

namespace ActorAudit.Violation

open Std

/-- `w` is appended; whatever has its identity has greater labels if it comes before, and no smaller ones if
it comes after. -/
def FirstLeast (vs : List Violation) (w : Violation) : Prop :=
  ∃ before after, vs = before ++ w :: after ∧
    (∀ v ∈ before, w.sameIdentity v = true → compare w.labels v.labels = .lt) ∧
    ∀ v ∈ after, w.sameIdentity v = true → (compare w.labels v.labels).isLE = true

theorem order_of_sameIdentity {v w : Violation} (h : v.sameIdentity w = true) :
    order v w = compare v.labels w.labels := by
  rw [order_eq_then, identityOrder_eq_iff.mpr h]
  rfl

theorem FirstLeast.mem {vs : List Violation} {w : Violation} (h : FirstLeast vs w) : w ∈ vs := by
  obtain ⟨before, after, rfl, _⟩ := h
  simp

theorem FirstLeast.isLE {vs : List Violation} {v w : Violation} (h : FirstLeast vs w) (hv : v ∈ vs)
    (hvw : w.sameIdentity v = true) : (order w v).isLE = true := by
  obtain ⟨before, after, rfl, hbefore, hafter⟩ := h
  rw [order_of_sameIdentity hvw]
  rcases List.mem_append.mp hv with hv | hv
  · simp [hbefore v hv hvw]
  rcases List.mem_cons.mp hv with rfl | hv
  · simp [ReflCmp.compare_self]
  · exact hafter v hv hvw

/-- The head of a stable sort comes before whatever it ties with. -/
theorem split_of_sorted_eq_cons {vs rest : List Violation} {w : Violation} (h : sorted vs = w :: rest) :
    ∃ before after, vs = before ++ w :: after ∧ (∀ v ∈ before, order w v = .lt) ∧
      ∀ v ∈ after, (order w v).isLE = true := by
  induction vs generalizing rest with
  | nil => simp [sorted] at h
  | cons v vs ih =>
    obtain ⟨l, r, hvs, hlr, hl⟩ := List.mergeSort_cons order_trans order_total v vs
    replace hvs : sorted (v :: vs) = l ++ v :: r := hvs
    replace hlr : sorted vs = l ++ r := hlr
    rw [hvs] at h
    cases l with
    | nil =>
      -- the first violation stays in front
      obtain ⟨rfl, rfl⟩ := List.cons.inj h
      refine ⟨[], vs, rfl, by simp, fun x hx => ?_⟩
      have hp := pairwise_sorted (v :: vs)
      rw [hvs, List.nil_append, List.pairwise_cons] at hp
      refine hp.1 x ?_
      rw [List.nil_append] at hlr
      rw [← hlr]
      exact mem_sorted.mpr hx
    | cons b l =>
      obtain ⟨rfl, rfl⟩ := List.cons.inj h
      obtain ⟨before, after, rfl, hbefore, hafter⟩ := ih hlr
      refine ⟨v :: before, after, rfl, fun x hx => ?_, hafter⟩
      rcases List.mem_cons.mp hx with rfl | hx
      · have hgt := hl b List.mem_cons_self
        have hswap : order b x = (order x b).swap := OrientedCmp.eq_swap
        rw [hswap]
        cases hvb : order x b <;> simp_all
      · exact hbefore x hx

theorem settle_filter_sameIdentity {vs : List Violation} {w : Violation} (h : w ∈ settle vs) :
    settle (vs.filter fun v => w.sameIdentity v) = [w] := by
  have hp : ∀ a b : Violation, a.sameIdentity b = true → w.sameIdentity a = w.sameIdentity b := by
    intro a b hab
    rw [Bool.eq_iff_iff]
    exact ⟨fun h => sameIdentity_trans h hab, fun h => sameIdentity_trans h (sameIdentity_symm hab)⟩
  rw [settle_filter hp]
  have hmem : w ∈ (settle vs).filter fun v => w.sameIdentity v :=
    List.mem_filter.mpr ⟨h, sameIdentity_refl w⟩
  have hincr := (pairwise_settle vs).filter fun v => w.sameIdentity v
  -- two violations of one identity do not stand in a strictly increasing list
  cases hl : (settle vs).filter fun v => w.sameIdentity v with
  | nil => simp [hl] at hmem
  | cons a l =>
    rw [hl] at hincr hmem
    have hsame : ∀ x ∈ a :: l, w.sameIdentity x = true := by
      intro x hx
      rw [← hl] at hx
      exact (List.mem_filter.mp hx).2
    cases l with
    | nil => rw [List.mem_singleton.mp hmem]
    | cons b l =>
      have hlt := (List.pairwise_cons.mp hincr).1 b List.mem_cons_self
      have heq : identityOrder a b = .eq := identityOrder_eq_iff.mpr
        (sameIdentity_trans (sameIdentity_symm (hsame a (by simp))) (hsame b (by simp)))
      simp [hlt] at heq

theorem firstLeast_of_mem_settle {vs : List Violation} {w : Violation} (h : w ∈ settle vs) :
    FirstLeast vs w := by
  have hone := settle_filter_sameIdentity h
  have hhead : ∃ rest, sorted (vs.filter fun v => w.sameIdentity v) = w :: rest := by
    unfold settle at hone
    cases hs : sorted (vs.filter fun v => w.sameIdentity v) with
    | nil => simp [hs, squash] at hone
    | cons a rest =>
      have hp := pairwise_sorted (vs.filter fun v => w.sameIdentity v)
      rw [hs] at hone hp
      rw [squash_cons hp (pairwise_squash hp.of_cons)] at hone
      exact ⟨rest, by rw [(List.cons.inj hone).1]⟩
  obtain ⟨rest, hrest⟩ := hhead
  obtain ⟨before, after, hsplit, hbefore, hafter⟩ := split_of_sorted_eq_cons hrest
  -- the split of the violations of one identity is a split of all
  obtain ⟨l₁, l₂, rfl, rfl, hl₂⟩ := List.filter_eq_append_iff.mp hsplit
  obtain ⟨l₃, l₄, rfl, hl₃, _, rfl⟩ := List.filter_eq_cons_iff.mp hl₂
  refine ⟨l₁ ++ l₃, l₄, by simp, fun v hv hvw => ?_, fun v hv hvw => ?_⟩
  · rw [← order_of_sameIdentity hvw]
    rcases List.mem_append.mp hv with hv | hv
    · exact hbefore v (List.mem_filter.mpr ⟨hv, hvw⟩)
    · exact absurd hvw (hl₃ v hv)
  · rw [← order_of_sameIdentity hvw]
    exact hafter v (List.mem_filter.mpr ⟨hv, hvw⟩)

/-- What is kept of two lists of the same violations ties. -/
theorem settle_of_subset {vs ws : List Violation} (h : ws ⊆ vs) (h' : vs ⊆ ws) :
    List.Forall₂ (fun v w => v ∈ settle ws ∧ w ∈ settle vs ∧ order v w = .eq) (settle ws) (settle vs) := by
  have hsame := settle_of_covered (covered_of_subset h) (covered_of_subset h')
  rw [List.forall₂_iff_zip] at hsame ⊢
  refine ⟨hsame.1, fun {v w} hvw => ?_⟩
  have hid := hsame.2 hvw
  obtain ⟨hv, hw⟩ := List.of_mem_zip hvw
  have hv' := firstLeast_of_mem_settle hv
  have hw' := firstLeast_of_mem_settle hw
  exact ⟨hv, hw, OrientedCmp.isLE_antisymm (hv'.isLE (h' hw'.mem) hid)
    (hw'.isLE (h hv'.mem) (sameIdentity_symm hid))⟩

theorem settle_of_perm {vs ws : List Violation} (h : ws.Perm vs) :
    List.Forall₂ (fun v w => v ∈ vs ∧ w ∈ vs ∧ order v w = .eq) (settle ws) (settle vs) := by
  refine (settle_of_subset h.subset h.symm.subset).imp fun v w hvw => ?_
  obtain ⟨hv, hw, ho⟩ := hvw
  exact ⟨h.subset (mem_of_mem_settle hv), mem_of_mem_settle hw, ho⟩

/-- What settling keeps of the violations that were appended, in whatever batches. The result increases
strictly in place, code and message; it has the identities that were appended and no others; and each
violation in it is the first with the least labels of those with its identity. So the order in which
violations are appended does not show in the identities; nor does it show at all where violations that agree
in place, code, message and labels are equal. -/
theorem settle_appended (batches : List (List Violation)) :
    (settle batches.flatten).Pairwise (fun v w => identityOrder v w = .lt) ∧
    (∀ v : Violation, (∃ w ∈ settle batches.flatten, v.sameIdentity w = true) ↔
      ∃ w ∈ batches.flatten, v.sameIdentity w = true) ∧
    (∀ w ∈ settle batches.flatten, FirstLeast batches.flatten w) ∧
    ∀ others : List (List Violation), others.flatten.Perm batches.flatten →
      List.Forall₂ (fun v w => v.sameIdentity w = true) (settle others.flatten) (settle batches.flatten) ∧
      ((∀ v ∈ batches.flatten, ∀ w ∈ batches.flatten, order v w = .eq → v = w) →
        settle others.flatten = settle batches.flatten) := by
  refine ⟨pairwise_settle _, fun v => ⟨?_, ?_⟩, fun w hw => firstLeast_of_mem_settle hw, fun others h => ?_⟩
  · rintro ⟨w, hw, hvw⟩
    exact ⟨w, mem_of_mem_settle hw, hvw⟩
  · rintro ⟨w, hw, hvw⟩
    obtain ⟨x, hx, hwx⟩ := exists_mem_settle hw
    exact ⟨x, hx, sameIdentity_trans hvw hwx⟩
  · have hties := settle_of_perm h
    refine ⟨?_, ?_⟩
    · refine hties.imp fun v w hvw => ?_
      obtain ⟨_, _, ho⟩ := hvw
      rw [order_eq_then, Ordering.then_eq_eq] at ho
      exact identityOrder_eq_iff.mp ho.1
    · intro heq
      rw [← List.forall₂_eq_eq_eq]
      exact hties.imp fun v w hvw => heq v hvw.1 w hvw.2.1 hvw.2.2

/-- A finding that is made three times: with a label, without, and without at another spelling of its file. -/
def threefold : List Violation :=
  let v : Violation := ⟨"DAPR1412", "record-needs-contract", .warning, ⟨"src/Order.cs", 3, 5⟩, "Record 'Order'",
    none, [⟨⟨"src/Cart.cs", 9, 1⟩, "used by 'Add'"⟩]⟩
  [v, { v with labels := [] }, { v with location := ⟨"src//./Order.cs", 3, 5⟩, severity := .error, labels := [] }]

/-- Reported one by one from the last, the three leave one identity behind, and the first two one violation. -/
theorem settle_appended_threefold :
    let apart := threefold.reverse.map fun v => [v]
    let pair := threefold.take 2
    apart.flatten.Perm [threefold].flatten ∧
    List.Forall₂ (fun v w => v.sameIdentity w = true) (settle apart.flatten) (settle [threefold].flatten) ∧
    [pair.reverse].flatten.Perm [pair].flatten ∧
    (∀ v ∈ [pair].flatten, ∀ w ∈ [pair].flatten, order v w = .eq → v = w) ∧
    settle [pair.reverse].flatten = settle [pair].flatten := by
  intro apart pair
  have hapart : apart.flatten.Perm [threefold].flatten := by decide
  have hpair : [pair.reverse].flatten.Perm [pair].flatten := by decide
  have hties : ∀ v ∈ [pair].flatten, ∀ w ∈ [pair].flatten, order v w = .eq → v = w := by decide
  exact ⟨hapart, ((settle_appended [threefold]).2.2.2 apart hapart).1, hpair, hties,
    ((settle_appended [pair]).2.2.2 [pair.reverse] hpair).2 hties⟩

end ActorAudit.Violation
