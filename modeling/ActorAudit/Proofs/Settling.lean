import ActorAudit.Report.Settle
import Mathlib.Data.List.Basic
import Mathlib.Data.List.Forall2

/-!
# Settled violations

The order of a report refines the order of identities (place, code, message), so sorting brings equal
identities together and squashing leaves a strictly increasing list. What is left depends on the set of
identities only; and since the sort is stable, settling commutes with choosing violations by their code.
-/

namespace ActorAudit

open Std

/-! ## Orders -/

instance : TransOrd Path.Component :=
  inferInstanceAs (TransCmp (compareLex (compareOn Path.Component.rank) (compareOn Path.Component.name)))

instance : LawfulEqOrd Path.Component where
  eq_of_compare {a b} h := by
    obtain ⟨hr, hn⟩ := compareLex_eq_eq.mp h
    replace hr : a.rank = b.rank := Std.compare_eq_iff_eq.mp hr
    replace hn : a.name = b.name := Std.compare_eq_iff_eq.mp hn
    cases a <;> cases b <;> simp_all [Path.Component.rank, Path.Component.name]

instance : TransOrd Location :=
  inferInstanceAs (TransCmp (compareLex (compareOn fun l : Location => Path.components l.file)
    (compareLex (compareOn Location.line) (compareOn Location.column))))

instance : TransOrd Label :=
  inferInstanceAs (TransCmp (compareLex (compareOn Label.location) (compareOn Label.message)))

theorem Location.compare_eq_iff_same {a b : Location} : compare a b = .eq ↔ a.same b = true := by
  have h : compare a b = .eq ↔ compare (Path.components a.file) (Path.components b.file) = .eq ∧
      compare a.line b.line = .eq ∧ compare a.column b.column = .eq := by
    refine compareLex_eq_eq.trans ?_
    rw [compareLex_eq_eq]
    rfl
  rw [h, Std.compare_eq_iff_eq, Std.compare_eq_iff_eq, Std.compare_eq_iff_eq]
  simp [same, and_assoc]

namespace Violation

instance : TransCmp order :=
  inferInstanceAs (TransCmp (compareLex (compareOn location)
    (compareLex (compareOn code) (compareLex (compareOn message) (compareOn labels)))))

def identityOrder : Violation → Violation → Ordering :=
  compareLex (compareOn location) (compareLex (compareOn code) (compareOn message))

instance : TransCmp identityOrder :=
  inferInstanceAs (TransCmp (compareLex (compareOn location) (compareLex (compareOn code) (compareOn message))))

theorem order_eq_then (a b : Violation) :
    order a b = (identityOrder a b).then (compare a.labels b.labels) := by
  simp only [order, identityOrder, compareLex, compareOn]
  cases compare a.location b.location <;> cases compare a.code b.code <;> rfl

theorem identityOrder_eq_iff {a b : Violation} : identityOrder a b = .eq ↔ a.sameIdentity b = true := by
  have h : identityOrder a b = .eq ↔
      compare a.location b.location = .eq ∧ compare a.code b.code = .eq ∧ compare a.message b.message = .eq := by
    refine compareLex_eq_eq.trans ?_
    rw [compareLex_eq_eq]
    rfl
  rw [h, Location.compare_eq_iff_same, Std.compare_eq_iff_eq, Std.compare_eq_iff_eq]
  simp only [sameIdentity, Bool.and_eq_true, beq_iff_eq]
  constructor
  · rintro ⟨hl, hc, hm⟩; exact ⟨⟨hc, hl⟩, hm⟩
  · rintro ⟨⟨hc, hl⟩, hm⟩; exact ⟨hl, hc, hm⟩

theorem identityOrder_isLE {a b : Violation} (h : (order a b).isLE = true) :
    (identityOrder a b).isLE = true := by
  rw [order_eq_then] at h
  cases hi : identityOrder a b with
  | gt => rw [hi] at h; exact h
  | _ => rfl

theorem code_eq_of_sameIdentity {a b : Violation} (h : a.sameIdentity b = true) : a.code = b.code := by
  simp only [sameIdentity, Bool.and_eq_true, beq_iff_eq] at h
  exact h.1.1

theorem code_eq_of_order_eq {a b : Violation} (h : order a b = .eq) : a.code = b.code := by
  rw [order_eq_then, Ordering.then_eq_eq] at h
  exact code_eq_of_sameIdentity (identityOrder_eq_iff.mp h.1)

theorem sameIdentity_symm {a b : Violation} (h : a.sameIdentity b = true) : b.sameIdentity a = true :=
  identityOrder_eq_iff.mp (OrientedCmp.eq_symm (identityOrder_eq_iff.mpr h))

theorem sameIdentity_trans {a b c : Violation} (h : a.sameIdentity b = true) (h' : b.sameIdentity c = true) :
    a.sameIdentity c = true :=
  identityOrder_eq_iff.mp (TransCmp.eq_trans (identityOrder_eq_iff.mpr h) (identityOrder_eq_iff.mpr h'))

theorem sameIdentity_refl (a : Violation) : a.sameIdentity a = true :=
  identityOrder_eq_iff.mp ReflCmp.compare_self

/-! ## Sorting -/

theorem order_total (a b : Violation) : ((order a b).isLE || (order b a).isLE) = true := by
  have h : order b a = (order a b).swap := OrientedCmp.eq_swap
  rw [h]
  cases order a b <;> rfl

theorem order_trans (a b c : Violation) (h : (order a b).isLE = true) (h' : (order b c).isLE = true) :
    (order a c).isLE = true := TransCmp.isLE_trans h h'

theorem pairwise_sorted (vs : List Violation) : (sorted vs).Pairwise fun a b => (order a b).isLE = true :=
  List.pairwise_mergeSort order_trans order_total vs

theorem mem_sorted {v : Violation} {vs : List Violation} : v ∈ sorted vs ↔ v ∈ vs := List.mem_mergeSort

/-- The sort is stable: it commutes with every choice of violations. -/
theorem sorted_filter (p : Violation → Bool) (vs : List Violation) :
    sorted (vs.filter p) = (sorted vs).filter p := by
  induction vs with
  | nil => simp [sorted]
  | cons v vs ih =>
    obtain ⟨l, r, hvs, hlr, hl⟩ := List.mergeSort_cons order_trans order_total v vs
    replace hvs : sorted (v :: vs) = l ++ v :: r := hvs
    replace hlr : sorted vs = l ++ r := hlr
    rw [hvs, List.filter_append]
    by_cases hp : p v = true
    · obtain ⟨l', r', hvs', hlr', hl'⟩ := List.mergeSort_cons order_trans order_total v (vs.filter p)
      replace hvs' : sorted (v :: vs.filter p) = l' ++ v :: r' := hvs'
      replace hlr' : sorted (vs.filter p) = l' ++ r' := hlr'
      rw [List.filter_cons_of_pos hp, List.filter_cons_of_pos hp, hvs']
      -- both splits are at the first violation that `v` does not come after
      have hr : ∀ w ∈ r, (order v w).isLE = true := by
        have := pairwise_sorted (v :: vs)
        rw [hvs] at this
        exact (List.pairwise_cons.mp (List.pairwise_append.mp this).2.1).1
      have hr' : ∀ w ∈ r', (order v w).isLE = true := by
        have := pairwise_sorted (v :: vs.filter p)
        rw [hvs'] at this
        exact (List.pairwise_cons.mp (List.pairwise_append.mp this).2.1).1
      have hsplit : l' ++ r' = l.filter p ++ r.filter p := by
        rw [← hlr', ih, hlr, List.filter_append]
      have hleft : l' = l.filter p := by
        have hafter : ∀ {xs : List Violation}, (∀ w ∈ xs, (order v w).isLE = true) →
            xs.filter (fun w => !(order v w).isLE) = [] := by
          intro xs hxs
          refine List.filter_eq_nil_iff.mpr fun w hw => ?_
          rw [hxs w hw]
          simp
        have h₁ := List.filter_eq_self.mpr hl'
        have h₂ := List.filter_eq_self.mpr fun w (hw : w ∈ l.filter p) => hl w (List.mem_filter.mp hw).1
        have hkeep := congrArg (List.filter fun w => !(order v w).isLE) hsplit
        rwa [List.filter_append, List.filter_append, h₁, h₂, hafter hr',
          hafter fun w hw => hr w (List.mem_filter.mp hw).1, List.append_nil, List.append_nil] at hkeep
      rw [hleft] at hsplit ⊢
      rw [List.append_cancel_left hsplit]
    · rw [List.filter_cons_of_neg hp, List.filter_cons_of_neg hp, ih, hlr, List.filter_append]

theorem eq_of_filter_code : ∀ {l l' : List Violation}, l.Pairwise (fun a b => (order a b).isLE = true) →
    l'.Pairwise (fun a b => (order a b).isLE = true) →
    (∀ c, l.filter (fun v => v.code = c) = l'.filter fun v => v.code = c) → l = l'
  | [], [], _, _, _ => rfl
  | [], b :: l', _, _, h => by
    have := h b.code
    simp at this
  | a :: l, [], _, _, h => by
    have := h a.code
    simp at this
  | a :: l, b :: l', hl, hl', h => by
    have hab : a = b := by
      by_cases hcode : a.code = b.code
      · have := h a.code
        rw [List.filter_cons_of_pos (by simp), List.filter_cons_of_pos (by simp [hcode])] at this
        exact (List.cons.inj this).1
      · -- each head occurs in the other list, so they tie in the order
        have ha : a ∈ b :: l' := by
          have : a ∈ (b :: l').filter fun v => v.code = a.code := by rw [← h]; simp
          exact (List.mem_filter.mp this).1
        have hb : b ∈ a :: l := by
          have : b ∈ (a :: l).filter fun v => v.code = b.code := by rw [h]; simp
          exact (List.mem_filter.mp this).1
        have hle : (order b a).isLE = true := by
          rcases List.mem_cons.mp ha with rfl | ha
          · exact absurd rfl hcode
          · exact (List.pairwise_cons.mp hl').1 a ha
        have hge : (order a b).isLE = true := by
          rcases List.mem_cons.mp hb with rfl | hb
          · exact absurd rfl hcode
          · exact (List.pairwise_cons.mp hl).1 b hb
        exact absurd (code_eq_of_order_eq (OrientedCmp.isLE_antisymm hge hle)) hcode
    subst hab
    congr 1
    refine eq_of_filter_code hl.of_cons hl'.of_cons fun c => ?_
    have := h c
    rw [List.filter_cons, List.filter_cons] at this
    split at this
    · exact (List.cons.inj this).2
    · exact this

/-! ## Squashing -/

theorem squash_sublist (vs : List Violation) : (squash vs).Sublist vs := by
  induction vs with
  | nil => exact .slnil
  | cons v vs ih =>
    unfold squash
    split
    · exact (List.nil_sublist vs).cons_cons v
    · rename_i w ws hw
      rw [hw] at ih
      split
      · exact ((List.sublist_cons_self w ws).trans ih).cons_cons v
      · exact ih.cons_cons v

theorem squash_cons {v : Violation} {vs : List Violation}
    (h : (v :: vs).Pairwise fun a b => (order a b).isLE = true)
    (hs : (squash vs).Pairwise fun a b => identityOrder a b = .lt) :
    squash (v :: vs) = v :: (squash vs).filter fun w => !v.sameIdentity w := by
  rw [squash]
  split
  · rename_i hw
    rw [hw, List.filter_nil]
  · rename_i w ws hw
    rw [hw] at hs ⊢
    obtain ⟨hws, _⟩ := List.pairwise_cons.mp hs
    have hvw : (identityOrder v w).isLE = true := by
      refine identityOrder_isLE ((List.pairwise_cons.mp h).1 w ((squash_sublist vs).subset ?_))
      rw [hw]
      exact List.mem_cons_self
    -- behind the head, everything is greater than `v`
    have hrest : ∀ x ∈ ws, (!v.sameIdentity x) = true := by
      intro x hx
      have hlt : identityOrder v x = .lt := TransCmp.lt_of_isLE_of_lt hvw (hws x hx)
      rw [Bool.not_eq_true', ← Bool.not_eq_true, ← identityOrder_eq_iff, hlt]
      simp
    by_cases hsame : v.sameIdentity w = true
    · rw [if_pos hsame, List.filter_cons_of_neg (by simp [hsame]), List.filter_eq_self.mpr hrest]
    · rw [if_neg hsame, List.filter_cons_of_pos (by simp [hsame]), List.filter_eq_self.mpr hrest]

theorem pairwise_squash {vs : List Violation} (h : vs.Pairwise fun a b => (order a b).isLE = true) :
    (squash vs).Pairwise fun a b => identityOrder a b = .lt := by
  induction vs with
  | nil => exact .nil
  | cons v vs ih =>
    have hs := ih h.of_cons
    rw [squash_cons h hs, List.pairwise_cons]
    refine ⟨fun w hw => ?_, hs.filter _⟩
    obtain ⟨hw, hne⟩ := List.mem_filter.mp hw
    have hle := identityOrder_isLE ((List.pairwise_cons.mp h).1 w ((squash_sublist vs).subset hw))
    cases hvw : identityOrder v w with
    | lt => rfl
    | eq => rw [identityOrder_eq_iff.mp hvw] at hne; cases hne
    | gt => rw [hvw] at hle; cases hle

theorem exists_mem_squash {vs : List Violation} (h : vs.Pairwise fun a b => (order a b).isLE = true) :
    ∀ v ∈ vs, ∃ w ∈ squash vs, v.sameIdentity w = true := by
  induction vs with
  | nil => intro v hv; cases hv
  | cons a vs ih =>
    rw [squash_cons h (pairwise_squash h.of_cons)]
    intro v hv
    rcases List.mem_cons.mp hv with rfl | hv
    · exact ⟨v, List.mem_cons_self, sameIdentity_refl v⟩
    · obtain ⟨w, hw, hvw⟩ := ih h.of_cons v hv
      by_cases haw : a.sameIdentity w = true
      · exact ⟨a, List.mem_cons_self, sameIdentity_trans hvw (sameIdentity_symm haw)⟩
      · exact ⟨w, List.mem_cons_of_mem _ (List.mem_filter.mpr ⟨hw, by simp [haw]⟩), hvw⟩

theorem squash_filter {p : Violation → Bool} (hp : ∀ a b, a.sameIdentity b = true → p a = p b)
    {vs : List Violation} (h : vs.Pairwise fun a b => (order a b).isLE = true) :
    squash (vs.filter p) = (squash vs).filter p := by
  induction vs with
  | nil => rfl
  | cons v vs ih =>
    rw [squash_cons h (pairwise_squash h.of_cons), List.filter_cons, List.filter_cons]
    by_cases hv : p v = true
    · rw [if_pos hv, if_pos hv]
      have h' : (v :: vs.filter p).Pairwise fun a b => (order a b).isLE = true :=
        h.sublist (List.filter_sublist.cons_cons v)
      rw [squash_cons h' (pairwise_squash h'.of_cons), ih h.of_cons, List.filter_filter, List.filter_filter]
      congr 1
      exact List.filter_congr fun w _ => Bool.and_comm _ _
    · rw [if_neg hv, if_neg hv, ih h.of_cons, List.filter_filter]
      -- what has the identity of `v` is not chosen either
      refine List.filter_congr fun w _ => ?_
      cases hvw : v.sameIdentity w with
      | true => simp [← hp v w hvw, hv]
      | false => simp

/-! ## Settling -/

theorem pairwise_settle (vs : List Violation) : (settle vs).Pairwise fun a b => identityOrder a b = .lt :=
  pairwise_squash (pairwise_sorted vs)

theorem mem_of_mem_settle {v : Violation} {vs : List Violation} (h : v ∈ settle vs) : v ∈ vs :=
  mem_sorted.mp ((squash_sublist _).subset h)

theorem exists_mem_settle {v : Violation} {vs : List Violation} (h : v ∈ vs) :
    ∃ w ∈ settle vs, v.sameIdentity w = true :=
  exists_mem_squash (pairwise_sorted vs) v (mem_sorted.mpr h)

theorem settle_filter {p : Violation → Bool} (hp : ∀ a b, a.sameIdentity b = true → p a = p b)
    (vs : List Violation) : settle (vs.filter p) = (settle vs).filter p := by
  rw [settle, sorted_filter, squash_filter hp (pairwise_sorted vs)]
  rfl

/-- What is settled depends on the order of the violations of each code only. -/
theorem settle_congr {vs ws : List Violation}
    (h : ∀ c, vs.filter (fun v => v.code = c) = ws.filter fun v => v.code = c) : settle vs = settle ws := by
  have : sorted vs = sorted ws := by
    refine eq_of_filter_code (pairwise_sorted vs) (pairwise_sorted ws) fun c => ?_
    rw [← sorted_filter, ← sorted_filter, h c]
  rw [settle, settle, this]

/-- Every violation of the first list has its identity in the second. -/
def Covered (vs ws : List Violation) : Prop := ∀ v ∈ vs, ∃ w ∈ ws, v.sameIdentity w = true

theorem covered_of_subset {vs ws : List Violation} (h : vs ⊆ ws) : Covered vs ws :=
  fun v hv => ⟨v, h hv, sameIdentity_refl v⟩

theorem forall₂_of_covered : ∀ {l l' : List Violation}, l.Pairwise (fun a b => identityOrder a b = .lt) →
    l'.Pairwise (fun a b => identityOrder a b = .lt) → Covered l l' → Covered l' l →
    List.Forall₂ (fun v w => v.sameIdentity w = true) l l'
  | [], [], _, _, _, _ => .nil
  | [], b :: l', _, _, _, h => by
    obtain ⟨w, hw, _⟩ := h b List.mem_cons_self
    cases hw
  | a :: l, [], _, _, h, _ => by
    obtain ⟨w, hw, _⟩ := h a List.mem_cons_self
    cases hw
  | a :: l, b :: l', hl, hl', h, h' => by
    obtain ⟨hal, hl⟩ := List.pairwise_cons.mp hl
    obtain ⟨hbl, hl'⟩ := List.pairwise_cons.mp hl'
    have hne : ∀ {x y : Violation}, identityOrder x y = .lt → ¬x.sameIdentity y = true := by
      intro x y hlt hs
      rw [← identityOrder_eq_iff, hlt] at hs
      cases hs
    -- a head that met a later violation of the other list would come before itself
    have hab : a.sameIdentity b = true := by
      obtain ⟨w, hw, haw⟩ := h a List.mem_cons_self
      obtain ⟨x, hx, hbx⟩ := h' b List.mem_cons_self
      rcases List.mem_cons.mp hw with rfl | hw
      · exact haw
      rcases List.mem_cons.mp hx with rfl | hx
      · exact sameIdentity_symm hbx
      have hba : identityOrder b a = .lt :=
        TransCmp.lt_of_lt_of_eq (hbl w hw) (identityOrder_eq_iff.mpr (sameIdentity_symm haw))
      have hab : identityOrder a b = .lt :=
        TransCmp.lt_of_lt_of_eq (hal x hx) (identityOrder_eq_iff.mpr (sameIdentity_symm hbx))
      exact absurd (sameIdentity_refl a) (hne (TransCmp.lt_trans hab hba))
    refine .cons hab (forall₂_of_covered hl hl' ?_ ?_)
    · intro v hv
      obtain ⟨w, hw, hvw⟩ := h v (List.mem_cons_of_mem _ hv)
      rcases List.mem_cons.mp hw with rfl | hw
      · exact absurd (sameIdentity_trans hab (sameIdentity_symm hvw)) (hne (hal v hv))
      · exact ⟨w, hw, hvw⟩
    · intro v hv
      obtain ⟨w, hw, hvw⟩ := h' v (List.mem_cons_of_mem _ hv)
      rcases List.mem_cons.mp hw with rfl | hw
      · exact absurd (sameIdentity_trans (sameIdentity_symm hab) (sameIdentity_symm hvw)) (hne (hbl v hv))
      · exact ⟨w, hw, hvw⟩

theorem covered_settle {vs ws : List Violation} (h : Covered vs ws) : Covered (settle vs) (settle ws) := by
  intro v hv
  obtain ⟨w, hw, hvw⟩ := h v (mem_of_mem_settle hv)
  obtain ⟨x, hx, hwx⟩ := exists_mem_settle hw
  exact ⟨x, hx, sameIdentity_trans hvw hwx⟩

/-- The sequence of identities that is settled depends on the set of identities only. -/
theorem settle_of_covered {vs ws : List Violation} (h : Covered vs ws) (h' : Covered ws vs) :
    List.Forall₂ (fun v w => v.sameIdentity w = true) (settle vs) (settle ws) :=
  forall₂_of_covered (pairwise_settle vs) (pairwise_settle ws) (covered_settle h) (covered_settle h')

end Violation

end ActorAudit
