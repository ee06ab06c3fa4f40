import ActorAudit.Proofs.Reachability
import Mathlib.Data.List.Nodup
import Mathlib.Data.List.Perm.Subperm

/-!
# Ancestors

`g.baseAfter id k` is where `k` steps from a type to its base type lead. A climb collects where they lead until
they end, point nowhere or come back. Base types may form a cycle through the type itself or beyond it; the climb
loses nothing there, since behind a type it has been to there are only types it has been to.
-/

namespace ActorAudit.Graph

variable {g : Graph} {id x y : TypeId} {seen : List TypeId} {next : Option TypeId}

def base? (g : Graph) (id : TypeId) : Option TypeId := (g.get? id).bind (·.baseType)

def baseAfter (g : Graph) (id : TypeId) : Nat → Option TypeId
  | 0 => some id
  | k + 1 => (g.baseAfter id k).bind g.base?

theorem baseAfter_succ' (k : Nat) : g.baseAfter id (k + 1) = (g.base? id).bind (g.baseAfter · k) := by
  induction k with
  | zero => cases h : g.base? id <;> simp [baseAfter, h]
  | succ k ih =>
    rw [baseAfter, ih]
    cases g.base? id <;> rfl

theorem base?_of_get? {d : TypeSymbol} (h : g.get? id = some d) : g.base? id = d.baseType := by
  simp [base?, h]

/-- A list of types without repetition is no longer than the graph. -/
theorem length_le_size {l : List TypeId} (hn : l.Nodup) (hl : ∀ x ∈ l, g.resolves x = true) :
    l.length ≤ g.size := by
  have hinj : (l.map TypeId.toNat).Nodup := by
    refine hn.map_on fun a _ b _ hab => ?_
    rw [← TypeId.ofNat_toNat a, hab, TypeId.ofNat_toNat]
  have hsub : l.map TypeId.toNat ⊆ List.range g.size := by
    intro n hn
    obtain ⟨y, hy, rfl⟩ := List.mem_map.mp hn
    obtain ⟨d, hd⟩ := Option.isSome_iff_exists.mp (hl y hy)
    exact List.mem_range.mpr (lt_size_of_get? hd)
  simpa using (hinj.subperm hsub).length_le

/-! ## Climbs -/

variable (g seen next) in
theorem nodup_climb : ((g.climb seen next).map Prod.fst).Nodup ∧ ∀ p ∈ g.climb seen next, p.1 ∉ seen := by
  fun_induction climb g seen next with
  | case1 => simp
  | case2 => simp
  | case3 => simp
  | case4 seen x hs d hd ih =>
    obtain ⟨hn, hnew⟩ := ih
    simp only [List.mem_cons, not_or] at hnew
    simp only [List.map_cons, List.nodup_cons, List.mem_map, List.forall_mem_cons]
    refine ⟨⟨?_, hn⟩, hs, fun p hp => (hnew p hp).2⟩
    rintro ⟨p, hp, hx⟩
    exact (hnew p hp).1 hx

theorem baseAfter_of_climb {i : Nat} {p : TypeId × TypeSymbol} (h : (g.climb seen next)[i]? = some p) :
    next.bind (g.baseAfter · i) = some p.1 := by
  fun_induction climb g seen next generalizing i with
  | case1 => simp at h
  | case2 => simp at h
  | case3 => simp at h
  | case4 seen x hs d hd ih =>
    cases i with
    | zero =>
      obtain rfl : (x, d) = p := by simpa using h
      rfl
    | succ i =>
      rw [Option.bind_some, baseAfter_succ', base?_of_get? hd]
      exact ih (by simpa using h)

/-- If from every id seen the next step leads to an id seen or is the one to be taken, then at the end it leads to
an id seen, an id climbed to, or nowhere. -/
theorem climb_closed (h : ∀ s ∈ seen, ∀ y, g.base? s = some y → y ∈ seen ∨ next = some y) :
    ∀ s, s ∈ seen ∨ s ∈ (g.climb seen next).map Prod.fst → ∀ y, g.base? s = some y → g.resolves y = true →
      y ∈ seen ∨ y ∈ (g.climb seen next).map Prod.fst := by
  fun_induction climb g seen next with
  | case1 seen =>
    intro s hs y hy _
    simp only [List.map_nil, List.not_mem_nil, or_false] at hs ⊢
    simpa using h s hs y hy
  | case2 seen x hx =>
    intro s hs y hy _
    simp only [List.map_nil, List.not_mem_nil, or_false] at hs ⊢
    rcases h s hs y hy with hmem | hnext
    · exact hmem
    · cases hnext
      exact hx
  | case3 seen x hx hd =>
    intro s hs y hy hres
    simp only [List.map_nil, List.not_mem_nil, or_false] at hs ⊢
    refine (h s hs y hy).resolve_right fun hnext => ?_
    cases hnext
    simp [resolves, hd] at hres
  | case4 seen x hx d hd ih =>
    -- the id climbed to joins those seen, and its base type is the next step
    have hstep : ∀ s ∈ x :: seen, ∀ y, g.base? s = some y → y ∈ x :: seen ∨ d.baseType = some y := by
      intro s hs y hy
      rcases List.mem_cons.mp hs with rfl | hs
      · exact .inr (by rwa [base?_of_get? hd] at hy)
      · rcases h s hs y hy with hmem | hnext
        · exact .inl (List.mem_cons_of_mem _ hmem)
        · cases hnext
          exact .inl List.mem_cons_self
    intro s hs y hy hres
    have hrest := ih hstep s (by simp only [List.map_cons, List.mem_cons] at hs ⊢; tauto) y hy hres
    simp only [List.map_cons, List.mem_cons] at hrest ⊢
    tauto

/-! ## Ancestors -/

/-- The ids of the ancestors of a type, nearest first. -/
def ancestorIds (g : Graph) (id : TypeId) : List TypeId := (g.ancestors id).map Prod.fst

theorem ancestors_eq (g : Graph) (id : TypeId) : g.ancestors id = g.climb [id] (g.base? id) := by
  unfold ancestors base?
  cases g.get? id with
  | none => simp [climb]
  | some d => rfl

theorem get?_of_mem_ancestors {p : TypeId × TypeSymbol} (h : p ∈ g.ancestors id) : g.get? p.1 = some p.2 := by
  rw [ancestors_eq] at h
  exact get?_of_mem_climb h

theorem resolves_of_mem_ancestorIds (h : x ∈ g.ancestorIds id) : g.resolves x = true := by
  obtain ⟨p, hp, rfl⟩ := List.mem_map.mp h
  simp [resolves, get?_of_mem_ancestors hp]

theorem nodup_ancestorIds (g : Graph) (id : TypeId) : (g.ancestorIds id).Nodup ∧ id ∉ g.ancestorIds id := by
  rw [ancestorIds, ancestors_eq]
  obtain ⟨hn, hnew⟩ := nodup_climb g [id] (g.base? id)
  refine ⟨hn, fun hid => ?_⟩
  obtain ⟨p, hp, hpid⟩ := List.mem_map.mp hid
  exact hnew p hp (by simp [hpid])

theorem baseAfter_of_ancestorIds {i : Nat} (h : (g.ancestorIds id)[i]? = some x) :
    g.baseAfter id (i + 1) = some x := by
  rw [ancestorIds, ancestors_eq, List.getElem?_map, Option.map_eq_some_iff] at h
  obtain ⟨p, hp, rfl⟩ := h
  rw [baseAfter_succ']
  exact baseAfter_of_climb hp

theorem mem_ancestorIds_of_baseAfter {k : Nat} (h : g.baseAfter id k = some x) (hx : g.resolves x = true) :
    x = id ∨ x ∈ g.ancestorIds id := by
  induction k generalizing x with
  | zero => simp_all [baseAfter]
  | succ k ih =>
    obtain ⟨y, hy, hyx⟩ := Option.bind_eq_some_iff.mp h
    have hres : g.resolves y = true := by
      unfold base? at hyx
      cases hd : g.get? y <;> simp_all [resolves]
    have hfirst : ∀ s ∈ [id], ∀ z, g.base? s = some z → z ∈ [id] ∨ g.base? id = some z := by
      intro s hs z hz
      rw [List.mem_singleton] at hs
      subst hs
      exact .inr hz
    have hclosed := climb_closed hfirst
    rw [← ancestors_eq, ← ancestorIds] at hclosed
    simpa using hclosed y (by simpa using ih hy hres) x hyx hx

theorem mem_ancestorIds_iff : x ∈ g.ancestorIds id ↔
    x ≠ id ∧ g.resolves x = true ∧ ∃ k, g.baseAfter id (k + 1) = some x := by
  constructor
  · intro h
    obtain ⟨i, hi⟩ := List.mem_iff_getElem?.mp h
    refine ⟨?_, resolves_of_mem_ancestorIds h, i, baseAfter_of_ancestorIds hi⟩
    rintro rfl
    exact (nodup_ancestorIds g x).2 h
  · rintro ⟨hne, hx, k, hk⟩
    exact (mem_ancestorIds_of_baseAfter hk hx).resolve_left hne

/-- The ancestor at a position is new there: fewer steps lead elsewhere. -/
theorem baseAfter_ne_of_ancestorIds {i j : Nat} (h : (g.ancestorIds id)[i]? = some x) (hj : j ≤ i) :
    g.baseAfter id j ≠ some x := by
  obtain ⟨hn, hid⟩ := nodup_ancestorIds g id
  intro hx
  cases j with
  | zero =>
    have : id = x := by simpa [baseAfter] using hx
    subst this
    exact hid (List.mem_of_getElem? h)
  | succ j =>
    have hi : i < (g.ancestorIds id).length := (List.getElem?_eq_some_iff.mp h).1
    have hjlt : j < (g.ancestorIds id).length := by omega
    have hjx := baseAfter_of_ancestorIds (List.getElem?_eq_getElem hjlt)
    rw [hx, Option.some.injEq] at hjx
    have hsame : (g.ancestorIds id)[j]? = (g.ancestorIds id)[i]? := by
      rw [List.getElem?_eq_getElem hjlt, h, hjx]
    have := (List.getElem?_inj hjlt hn).mp hsame
    omega

theorem getElem?_ancestorIds_iff {i : Nat} : (g.ancestorIds id)[i]? = some x ↔
    g.resolves x = true ∧ g.baseAfter id (i + 1) = some x ∧ ∀ j ≤ i, g.baseAfter id j ≠ some x := by
  constructor
  · intro h
    exact ⟨resolves_of_mem_ancestorIds (List.mem_of_getElem? h), baseAfter_of_ancestorIds h,
      fun j hj => baseAfter_ne_of_ancestorIds h hj⟩
  · rintro ⟨hx, hi, hnew⟩
    have hne : x ≠ id := fun e => hnew 0 (Nat.zero_le i) (by simp [baseAfter, e])
    obtain ⟨n, hn⟩ := List.mem_iff_getElem?.mp ((mem_ancestorIds_of_baseAfter hi hx).resolve_left hne)
    -- neither of the two numbers of steps is smaller than the other
    have hle : i ≤ n := by
      by_contra hlt
      exact hnew (n + 1) (by omega) (baseAfter_of_ancestorIds hn)
    have hge : n ≤ i := by
      by_contra hlt
      exact baseAfter_ne_of_ancestorIds hn (by omega) hi
    rwa [Nat.le_antisymm hle hge]

/-- Base types that go round behind a type. -/
def lasso : Graph where
  types := #[
    { name := "Leaf", kind := .classType, baseType := some ⟨1⟩ },
    { name := "Left", kind := .classType, baseType := some ⟨2⟩ },
    { name := "Right", kind := .classType, baseType := some ⟨1⟩ }]

example : lasso.ancestorIds ⟨0⟩ = [⟨1⟩, ⟨2⟩] ∧ lasso.ancestorIds ⟨1⟩ = [⟨2⟩] := by decide +kernel

end ActorAudit.Graph

namespace ActorAudit.Model

/-- The ancestors of a type are what the steps from base type to base type lead to, other than the type itself and
ids that point nowhere. Each is there once, in the order of the steps it takes, and an actor is what has the actor
base among them. -/
theorem ancestors_isActor_iff (m : Model) (id : TypeId) :
    (m.graph.ancestorIds id).Nodup ∧ id ∉ m.graph.ancestorIds id ∧
    (m.graph.ancestorIds id).length ≤ m.graph.size ∧
    (∀ p ∈ m.graph.ancestors id, m.graph.get? p.1 = some p.2) ∧
    (∀ x, x ∈ m.graph.ancestorIds id ↔
      x ≠ id ∧ m.graph.resolves x = true ∧ ∃ k, m.graph.baseAfter id (k + 1) = some x) ∧
    (∀ i x, (m.graph.ancestorIds id)[i]? = some x ↔ m.graph.resolves x = true ∧
      m.graph.baseAfter id (i + 1) = some x ∧ ∀ j ≤ i, m.graph.baseAfter id j ≠ some x) ∧
    (m.isActor id = true ↔ ∃ x d, x ≠ id ∧ (∃ k, m.graph.baseAfter id (k + 1) = some x) ∧
      m.graph.get? x = some d ∧ d.name = m.framework.actorBase.name ∧
      d.inNamespace = some m.framework.actorBase.inNamespace) := by
  obtain ⟨hn, hid⟩ := Graph.nodup_ancestorIds m.graph id
  refine ⟨hn, hid, Graph.length_le_size hn fun x => Graph.resolves_of_mem_ancestorIds,
    fun p => Graph.get?_of_mem_ancestors, fun x => Graph.mem_ancestorIds_iff,
    fun i x => Graph.getElem?_ancestorIds_iff, ?_⟩
  simp only [isActor, TypeSymbol.is, List.any_eq_true, Bool.and_eq_true, decide_eq_true_eq]
  constructor
  · rintro ⟨p, hp, hname, hns⟩
    obtain ⟨hne, _, hk⟩ := Graph.mem_ancestorIds_iff.mp (List.mem_map.mpr ⟨p, hp, rfl⟩)
    exact ⟨p.1, p.2, hne, hk, Graph.get?_of_mem_ancestors hp, hname, hns⟩
  · rintro ⟨x, d, hne, hk, hd, hname, hns⟩
    have hx : x ∈ m.graph.ancestorIds id :=
      Graph.mem_ancestorIds_iff.mpr ⟨hne, by simp [Graph.resolves, hd], hk⟩
    obtain ⟨p, hp, rfl⟩ := List.mem_map.mp hx
    rw [Graph.get?_of_mem_ancestors hp, Option.some.injEq] at hd
    subst hd
    exact ⟨p, hp, hname, hns⟩

end ActorAudit.Model
