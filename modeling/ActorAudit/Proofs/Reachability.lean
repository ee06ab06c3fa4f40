import ActorAudit.Inheritance
import Mathlib.Logic.Relation

/-!
# Reachable interfaces

`Inherits g id x`: the interface `x` can be reached from the interfaces of `id` or of an ancestor of `id`
by following interfaces. On a well-formed graph, flattening gives exactly the ids that are inherited, as
long as the memo it looks into holds lists of this kind.
-/

namespace ActorAudit.Graph

/-- `b` is listed among the interfaces of `a`. -/
def Extends (g : Graph) (a b : TypeId) : Prop := ∃ d, g.get? a = some d ∧ b ∈ d.interfaces

def listedAt (g : Graph) (id : TypeId) : List TypeId :=
  match g.get? id with
  | some d => d.interfaces
  | none => []

def starts (g : Graph) (id : TypeId) : List TypeId := (g.lineage id).flatMap fun p => p.2.interfaces

/-- `x` is reached from an interface of `id` or of one of its ancestors. -/
def Inherits (g : Graph) (id x : TypeId) : Prop :=
  ∃ i ∈ g.starts id, Relation.ReflTransGen g.Extends i x

/-- A list holds exactly the ids other than `id` that `id` inherits. -/
def Flat (g : Graph) (id : TypeId) (all : List TypeId) : Prop :=
  ∀ x, x ∈ all ↔ x ≠ id ∧ g.Inherits id x

/-- Interfaces have no base types, and what the host has flattened is what is inherited. Cycles and ids
that point nowhere are allowed. -/
structure WellFormed (g : Graph) : Prop where
  rootless : ∀ {a i d}, g.Extends a i → g.get? i = some d → d.baseType = none
  faithful : ∀ {id d all}, g.get? id = some d → d.flattened = some all → g.Flat id all

variable {g : Graph}

/-! ## Lineages -/

theorem mem_listedAt {a b : TypeId} : b ∈ g.listedAt a ↔ g.Extends a b := by
  unfold listedAt Extends
  cases g.get? a <;> simp

theorem get?_of_mem_climb {seen : List TypeId} {next : Option TypeId} {p : TypeId × TypeSymbol}
    (h : p ∈ g.climb seen next) : g.get? p.1 = some p.2 := by
  fun_induction climb g seen next with
  | case1 => cases h
  | case2 => cases h
  | case3 => cases h
  | case4 seen id hs d hd ih =>
    rcases List.mem_cons.mp h with rfl | h
    · exact hd
    · exact ih h

theorem get?_of_mem_lineage {id : TypeId} {p : TypeId × TypeSymbol} (h : p ∈ g.lineage id) :
    g.get? p.1 = some p.2 := by
  unfold lineage at h
  split at h
  · rename_i d hd
    rcases List.mem_cons.mp h with rfl | h
    · exact hd
    · exact get?_of_mem_climb h
  · cases h

theorem mem_starts_of_extends {id x : TypeId} (h : g.Extends id x) : x ∈ g.starts id := by
  obtain ⟨d, hd, hx⟩ := h
  refine List.mem_flatMap.mpr ⟨(id, d), ?_, hx⟩
  unfold lineage
  rw [hd]
  exact List.mem_cons_self

theorem extends_of_mem_starts {id x : TypeId} (h : x ∈ g.starts id) : ∃ a, g.Extends a x := by
  obtain ⟨p, hp, hx⟩ := List.mem_flatMap.mp h
  exact ⟨p.1, p.2, get?_of_mem_lineage hp, hx⟩

theorem Inherits.of_extends {id x : TypeId} (h : g.Extends id x) : g.Inherits id x :=
  ⟨x, mem_starts_of_extends h, .refl⟩

theorem Inherits.trans {id x y : TypeId} (h : g.Inherits id x) (hxy : Relation.ReflTransGen g.Extends x y) :
    g.Inherits id y := by
  obtain ⟨i, hi, hr⟩ := h
  exact ⟨i, hi, hr.trans hxy⟩

theorem Inherits.tail {id x y : TypeId} (h : g.Inherits id x) (hxy : g.Extends x y) : g.Inherits id y :=
  h.trans (.single hxy)

theorem Inherits.listed {id x : TypeId} (h : g.Inherits id x) : ∃ a, g.Extends a x := by
  obtain ⟨i, hi, hr⟩ := h
  cases hr with
  | refl => exact extends_of_mem_starts hi
  | tail _ h => exact ⟨_, h⟩

theorem starts_of_rootless {id : TypeId} (hb : ∀ d, g.get? id = some d → d.baseType = none) :
    g.starts id = g.listedAt id := by
  unfold starts lineage listedAt
  cases hd : g.get? id with
  | none => rfl
  | some d =>
    dsimp only
    rw [hb d hd, climb]
    simp

theorem WellFormed.inherits_iff (hg : g.WellFormed) {a i : TypeId} (hi : g.Extends a i) (x : TypeId) :
    g.Inherits i x ↔ Relation.TransGen g.Extends i x := by
  unfold Inherits
  rw [starts_of_rootless fun d hd => hg.rootless hi hd, Relation.TransGen.head'_iff]
  simp only [mem_listedAt]

/-! ## The walk -/

theorem mem_splice {self x : TypeId} {found ids : List TypeId} :
    x ∈ splice self found ids ↔ x ∈ found ∨ x ∈ ids ∧ x ≠ self := by
  induction ids generalizing found with
  | nil => simp [splice]
  | cons id ids ih =>
    unfold splice
    split
    · rename_i h
      rw [ih, List.mem_cons]
      constructor
      · rintro (hx | ⟨hx, hn⟩)
        · exact .inl hx
        · exact .inr ⟨.inr hx, hn⟩
      · rintro (hx | ⟨rfl | hx, hn⟩)
        · exact .inl hx
        · exact .inl (h.resolve_left hn)
        · exact .inr ⟨hx, hn⟩
    · rename_i h
      rw [ih, List.mem_append, List.mem_singleton, List.mem_cons, or_assoc]
      constructor
      · rintro (hx | rfl | ⟨hx, hn⟩)
        · exact .inl hx
        · exact .inr ⟨.inl rfl, fun e => h (.inl e)⟩
        · exact .inr ⟨.inr hx, hn⟩
      · rintro (hx | ⟨rfl | hx, hn⟩)
        · exact .inl hx
        · exact .inr (.inl rfl)
        · exact .inr (.inr ⟨hx, hn⟩)

def known? (g : Graph) (memo : Memo) (id : TypeId) : Option (List TypeId) :=
  (memo.interfaces? id).or ((g.get? id).bind (·.flattened))

/-- The steps of a walk, with the list it ends with: an id is skipped, or added together with the answer
that is known for it, or added and replaced by the interfaces it lists. -/
inductive Walks (g : Graph) (memo : Memo) (self : TypeId) : List TypeId → List TypeId → List TypeId → Prop
  | done {found} : Walks g memo self found [] found
  | skip {found next rest all} : next = self ∨ next ∈ found → Walks g memo self found rest all →
      Walks g memo self found (next :: rest) all
  | splice {found next rest known all} : ¬(next = self ∨ next ∈ found) → g.known? memo next = some known →
      Walks g memo self (splice self (found ++ [next]) known) rest all →
      Walks g memo self found (next :: rest) all
  | expand {found next rest all} : ¬(next = self ∨ next ∈ found) → g.known? memo next = none →
      Walks g memo self (found ++ [next]) (g.listedAt next ++ rest) all →
      Walks g memo self found (next :: rest) all

theorem walks_walk (g : Graph) (memo : Memo) (self : TypeId) (found stack : List TypeId) :
    Walks g memo self found stack (g.walk memo self found stack) := by
  fun_induction walk g memo self found stack with
  | case1 found => exact .done
  | case2 found next rest hn ih => exact .skip hn ih
  | case3 found next rest hn known hk ih => exact .splice hn (by simp [known?, hk]) ih
  | case4 found next rest hn hk hd ih => exact .expand hn (by simp [known?, hk, hd]) (by simpa [listedAt, hd])
  | case5 found next rest hn hk d hd known hh ih => exact .splice hn (by simp [known?, hk, hd, hh]) ih
  | case6 found next rest hn hk d hd hh ih =>
    exact .expand hn (by simp [known?, hk, hd, hh]) (by simpa [listedAt, hd])

theorem Walks.eq {memo : Memo} {self : TypeId} {found stack all all' : List TypeId}
    (h : Walks g memo self found stack all) (h' : Walks g memo self found stack all') : all = all' := by
  induction h with
  | done => cases h'; rfl
  | skip hn _ ih =>
    cases h' with
    | skip _ h' => exact ih h'
    | splice hn' => exact absurd hn hn'
    | expand hn' => exact absurd hn hn'
  | splice hn hk _ ih =>
    cases h' with
    | skip hn' => exact absurd hn' hn
    | splice _ hk' h' => rw [hk, Option.some.injEq] at hk'; subst hk'; exact ih h'
    | expand _ hk' => rw [hk] at hk'; cases hk'
  | expand hn hk _ ih =>
    cases h' with
    | skip hn' => exact absurd hn' hn
    | splice _ hk' => rw [hk] at hk'; cases hk'
    | expand _ _ h' => exact ih h'

section
variable {memo : Memo} {self : TypeId} {found stack all : List TypeId}

theorem Walks.subset (h : Walks g memo self found stack all) : ∀ x ∈ found, x ∈ all := by
  induction h with
  | done => exact fun x hx => hx
  | skip _ _ ih => exact ih
  | splice _ _ _ ih => exact fun x hx => ih x (mem_splice.mpr (.inl (List.mem_append_left _ hx)))
  | expand _ _ _ ih => exact fun x hx => ih x (List.mem_append_left _ hx)

theorem Walks.stack_subset (h : Walks g memo self found stack all) : ∀ x ∈ stack, x = self ∨ x ∈ all := by
  induction h with
  | done => intro x hx; cases hx
  | skip hn h ih =>
    intro x hx
    rcases List.mem_cons.mp hx with rfl | hx
    · exact hn.imp_right (h.subset x)
    · exact ih x hx
  | splice _ _ h ih =>
    intro x hx
    rcases List.mem_cons.mp hx with rfl | hx
    · exact .inr (h.subset _ (mem_splice.mpr (.inl (by simp))))
    · exact ih x hx
  | expand _ _ h ih =>
    intro x hx
    rcases List.mem_cons.mp hx with rfl | hx
    · exact .inr (h.subset _ (by simp))
    · exact ih x (List.mem_append_right _ hx)

end

/-! ## The walk finds what is inherited -/

theorem WellFormed.flat_of_known? (hg : g.WellFormed) {memo : Memo}
    (hm : ∀ {id all}, memo.interfaces? id = some all → g.Flat id all) {id : TypeId} {known : List TypeId}
    (hk : g.known? memo id = some known) : g.Flat id known := by
  unfold known? at hk
  cases hi : memo.interfaces? id with
  | some all => rw [hi] at hk; cases hk; exact hm hi
  | none =>
    rw [hi, Option.none_or] at hk
    obtain ⟨d, hd, hh⟩ := Option.bind_eq_some_iff.mp hk
    exact hg.faithful hd hh

section
variable {memo : Memo} (hg : g.WellFormed) (hm : ∀ {id all}, memo.interfaces? id = some all → g.Flat id all)
  {self : TypeId} {found stack all : List TypeId}
include hg hm

theorem Walks.sound (h : Walks g memo self found stack all)
    (hf : ∀ x ∈ found, x ≠ self ∧ g.Inherits self x) (hs : ∀ x ∈ stack, g.Inherits self x) :
    ∀ x ∈ all, x ≠ self ∧ g.Inherits self x := by
  have hadd : ∀ {found rest next}, (∀ x ∈ found, x ≠ self ∧ g.Inherits self x) →
      (∀ x ∈ next :: rest, g.Inherits self x) → ¬(next = self ∨ next ∈ found) →
      ∀ x ∈ found ++ [next], x ≠ self ∧ g.Inherits self x := by
    intro found rest next hf hs hn x hx
    rcases List.mem_append.mp hx with hx | hx
    · exact hf x hx
    · rw [List.mem_singleton] at hx
      subst hx
      exact ⟨fun e => hn (.inl e), hs _ List.mem_cons_self⟩
  induction h with
  | done => exact hf
  | skip _ _ ih => exact ih hf fun x hx => hs x (List.mem_cons_of_mem _ hx)
  | @splice found next rest known _ hn hk _ ih =>
    refine ih (fun x hx => ?_) fun x hx => hs x (List.mem_cons_of_mem _ hx)
    rcases mem_splice.mp hx with hx | ⟨hx, hne⟩
    · exact hadd hf hs hn x hx
    · -- an interface has no base type, so what it inherits is reached from it
      have hnext := hs next List.mem_cons_self
      obtain ⟨a, ha⟩ := hnext.listed
      have hreach := (hg.inherits_iff ha x).mp ((hg.flat_of_known? hm hk x).mp hx).2
      exact ⟨hne, hnext.trans hreach.to_reflTransGen⟩
  | @expand found next rest _ hn _ _ ih =>
    refine ih (hadd hf hs hn) fun x hx => ?_
    rcases List.mem_append.mp hx with hx | hx
    · exact (hs next List.mem_cons_self).tail (mem_listedAt.mp hx)
    · exact hs x (List.mem_cons_of_mem _ hx)

/-- If whatever a found id extends is found or still to be visited, then at the end it is found. -/
theorem Walks.closed (h : Walks g memo self found stack all)
    (hf : ∀ f ∈ found, ∀ x, g.Extends f x → x = self ∨ x ∈ found ∨ x ∈ stack) :
    ∀ f ∈ all, ∀ x, g.Extends f x → x = self ∨ x ∈ all := by
  induction h with
  | done =>
    intro f hfa x hx
    simpa using hf f hfa x hx
  | @skip found next rest _ hn _ ih =>
    refine ih fun f hff x hx => ?_
    rcases hf f hff x hx with hx | hx | hx
    · exact .inl hx
    · exact .inr (.inl hx)
    · rcases List.mem_cons.mp hx with rfl | hx
      · exact hn.imp_right .inl
      · exact .inr (.inr hx)
  | @splice found next rest known _ hn hk _ ih =>
    have hflat := hg.flat_of_known? hm hk
    -- an inherited id is `next` itself or in the list that is spliced in
    have hin : ∀ x, g.Inherits next x → x = self ∨ x ∈ Graph.splice self (found ++ [next]) known := by
      intro x hx
      by_cases hxs : x = self
      · exact .inl hxs
      · refine .inr (mem_splice.mpr ?_)
        by_cases hxn : x = next
        · exact .inl (by simp [hxn])
        · exact .inr ⟨(hflat x).mpr ⟨hxn, hx⟩, hxs⟩
    refine ih fun f hff x hx => ?_
    rcases mem_splice.mp hff with hff | ⟨hff, _⟩
    · rcases List.mem_append.mp hff with hff | hff
      · rcases hf f hff x hx with hx | hx | hx
        · exact .inl hx
        · exact .inr (.inl (mem_splice.mpr (.inl (List.mem_append_left _ hx))))
        · rcases List.mem_cons.mp hx with rfl | hx
          · exact .inr (.inl (mem_splice.mpr (.inl (by simp))))
          · exact .inr (.inr hx)
      · rw [List.mem_singleton] at hff
        subst hff
        exact (hin x (.of_extends hx)).imp_right .inl
    · exact (hin x (((hflat f).mp hff).2.tail hx)).imp_right .inl
  | @expand found next rest _ hn _ _ ih =>
    refine ih fun f hff x hx => ?_
    rcases List.mem_append.mp hff with hff | hff
    · rcases hf f hff x hx with hx | hx | hx
      · exact .inl hx
      · exact .inr (.inl (List.mem_append_left _ hx))
      · rcases List.mem_cons.mp hx with rfl | hx
        · exact .inr (.inl (by simp))
        · exact .inr (.inr (List.mem_append_right _ hx))
    · rw [List.mem_singleton] at hff
      subst hff
      exact .inr (.inr (List.mem_append_left _ (mem_listedAt.mpr hx)))

end

/-! ## Flattening -/

theorem flatten_eq (g : Graph) (memo : Memo) (id : TypeId) :
    g.flatten memo id = ((g.get? id).bind (·.flattened)).getD (g.walk memo id [] (g.starts id)) := by
  unfold flatten starts
  cases hd : g.get? id with
  | none =>
    simp only [lineage, hd, List.flatMap_nil, Option.bind_none, Option.getD_none]
    rw [walk]
  | some d =>
    simp only [Option.bind_some]
    cases d.flattened <;> rfl

theorem WellFormed.flat_flatten (hg : g.WellFormed) {memo : Memo}
    (hm : ∀ {id all}, memo.interfaces? id = some all → g.Flat id all) (id : TypeId) :
    g.Flat id (g.flatten memo id) := by
  rw [flatten_eq]
  cases hh : (g.get? id).bind (·.flattened) with
  | some all =>
    obtain ⟨d, hd, hh⟩ := Option.bind_eq_some_iff.mp hh
    exact hg.faithful hd hh
  | none =>
    have hw := walks_walk g memo id [] (g.starts id)
    rw [Option.getD_none]
    intro x
    constructor
    · exact hw.sound hg hm (by simp) (fun y hy => ⟨y, hy, .refl⟩) x
    · rintro ⟨hne, i, hi, hr⟩
      refine Or.resolve_left ?_ hne
      clear hne
      induction hr with
      | refl => exact hw.stack_subset i hi
      | @tail y z _ hyz ih =>
        rcases ih with rfl | hy
        · -- the walk does not expand the type itself: it has started from its interfaces
          exact hw.stack_subset z (mem_starts_of_extends hyz)
        · exact hw.closed hg hm (by simp) y hy z hyz

theorem WellFormed.flat_fresh (hg : g.WellFormed) (id : TypeId) : g.Flat id (g.flatten .empty id) :=
  hg.flat_flatten (by intro id all h; cases h) id

/-! ## A graph with a cycle -/

theorem mem_types_of_get? {id : TypeId} {d : TypeSymbol} (h : g.get? id = some d) : d ∈ g.types.toList := by
  unfold get? at h
  exact Array.mem_toList_iff.mpr (Array.mem_of_getElem? h)

/-- The marker; two contracts that extend each other and one further contract each, the one also an id that
points nowhere; an actor that has the first of them from its base class. The further contracts, one of which
the host has flattened, ask for the same method. -/
def ring : Graph where
  types := #[
    { name := "IActor", inNamespace := some "Dapr.Actors", kind := .interfaceType },
    { name := "ILeftActor", kind := .interfaceType, interfaces := [⟨2⟩, ⟨5⟩] },
    { name := "IRightActor", kind := .interfaceType, interfaces := [⟨1⟩, ⟨9⟩, ⟨6⟩] },
    { name := "Actor", inNamespace := some "Dapr.Actors.Runtime", kind := .classType, interfaces := [⟨1⟩],
      methods := [{ name := "Send", parameters := [⟨"mail", ⟨7⟩, some ⟨"Actor.cs", 3, 5⟩⟩] }] },
    { name := "RingActor", kind := .classType, baseType := some ⟨3⟩ },
    { name := "IFlatActor", kind := .interfaceType, interfaces := [⟨0⟩], flattened := some [⟨0⟩],
      methods := [{ name := "Send", parameters := [⟨"mail", ⟨7⟩, none⟩] }] },
    { name := "IPlainActor", kind := .interfaceType, interfaces := [⟨0⟩],
      methods := [{ name := "Send", parameters := [⟨"mail", ⟨7⟩, none⟩] }] },
    { name := "Mail", kind := .classType }]
  declarations := [⟨4⟩, ⟨2⟩, ⟨5⟩]

theorem ring_wellFormed : ring.WellFormed where
  rootless := by
    rintro a i d ⟨e, he, hi⟩ hd
    have h : ∀ e ∈ ring.types.toList, ∀ i ∈ e.interfaces, (ring.get? i).all (·.baseType.isNone) = true := by
      decide
    have := h e (mem_types_of_get? he) i hi
    rw [hd] at this
    simpa using this
  faithful := by
    intro id d all hd hh x
    have h : ∀ e ∈ ring.types.toList, e.flattened = none ∨
        e.baseType = none ∧ e.interfaces = [⟨0⟩] ∧ e.flattened = some [⟨0⟩] := by decide
    obtain hn | ⟨hb, hi, hf⟩ := h d (mem_types_of_get? hd)
    · rw [hn] at hh; cases hh
    · rw [hf, Option.some.injEq] at hh
      subst hh
      have hstarts : ring.starts id = [⟨0⟩] := by
        rw [starts_of_rootless (by rintro e he; rw [hd] at he; cases he; exact hb), listedAt, hd, ← hi]
      have hne : (⟨0⟩ : TypeId) ≠ id := by
        rintro rfl
        have : (ring.get? ⟨0⟩).bind (·.flattened) = none := by decide
        rw [hd, Option.bind_some, hf] at this
        cases this
      have hleaf : ∀ y, ¬ring.Extends ⟨0⟩ y := by
        intro y hy
        have : ring.listedAt ⟨0⟩ = [] := by decide
        rw [← mem_listedAt, this] at hy
        cases hy
      rw [List.mem_singleton, Inherits, hstarts]
      constructor
      · rintro rfl
        exact ⟨hne, _, List.mem_singleton_self _, .refl⟩
      · rintro ⟨_, i, hi, hr⟩
        rw [List.mem_singleton] at hi
        subst hi
        rcases Relation.ReflTransGen.cases_head hr with rfl | ⟨y, hy, _⟩
        · rfl
        · exact absurd hy (hleaf y)

end ActorAudit.Graph
