import ActorAudit.Proofs.Reachability
import Mathlib.Data.Fintype.Order

/-!
# Flattening without cycles

On a well-formed graph whose interfaces have no cycle, a visit of an interface adds the interface and the
list that flattening it from scratch gives, first occurrences only. A remembered list is thus as good as
a walk, and flattening gives one and the same list from every memo that holds lists from scratch. A plain
graph is one of these on which the host has flattened nothing.
-/

namespace ActorAudit

instance : Finite TypeId :=
  Finite.of_injective (fun id => (⟨id.toNat, id.toNat_lt⟩ : Fin UInt32.size)) fun a b h => by
    rw [← TypeId.ofNat_toNat a, ← TypeId.ofNat_toNat b, Fin.mk.inj h]

namespace Graph

/-- No interface is reached from itself. -/
def Acyclic (g : Graph) : Prop := ∀ x, ¬Relation.TransGen g.Extends x x

variable {g : Graph}

theorem Acyclic.wellFounded (h : g.Acyclic) : WellFounded fun b a => g.Extends a b := by
  have : IsTrans TypeId fun b a => Relation.TransGen g.Extends a b := ⟨fun _ _ _ hab hbc => hbc.trans hab⟩
  have : Std.Irrefl fun b a => Relation.TransGen g.Extends a b := ⟨h⟩
  exact Subrelation.wf (fun h => Relation.TransGen.single h)
    (Finite.wellFounded_of_trans_of_irrefl fun b a => Relation.TransGen g.Extends a b)

/-! ## Splicing -/

theorem splice_append (self : TypeId) (found xs ys : List TypeId) :
    splice self found (xs ++ ys) = splice self (splice self found xs) ys := by
  induction xs generalizing found with
  | nil => rfl
  | cons x xs ih =>
    rw [List.cons_append, splice, splice]
    split <;> exact ih _

theorem splice_of_subset {self : TypeId} {found ids : List TypeId} (h : ∀ x ∈ ids, x = self ∨ x ∈ found) :
    splice self found ids = found := by
  induction ids with
  | nil => rfl
  | cons id ids ih =>
    rw [splice, if_pos (h id List.mem_cons_self)]
    exact ih fun x hx => h x (List.mem_cons_of_mem _ hx)

theorem splice_cons_of_new {self id : TypeId} {found ids : List TypeId} (h : ¬(id = self ∨ id ∈ found)) :
    splice self found (id :: ids) = splice self (found ++ [id]) ids := by
  rw [splice, if_neg h]

theorem splice_splice {self a : TypeId} {found : List TypeId} (ha : a ∈ found) (start ids : List TypeId) :
    splice self found (splice a start ids) = splice self found (start ++ ids) := by
  induction ids generalizing start with
  | nil => rw [splice, List.append_nil]
  | cons id ids ih =>
    rw [splice]
    split
    · rename_i h
      rw [ih, splice_append, splice_append, splice, if_pos]
      by_cases hid : id = self
      · exact .inl hid
      · refine .inr (mem_splice.mpr ?_)
        rcases h with rfl | h
        · exact .inl ha
        · exact .inr ⟨h, hid⟩
    · rw [ih, List.append_assoc]
      rfl

/-! ## Walking along a list -/

theorem Walks.append {memo : Memo} {self : TypeId} {found xs ys mid all : List TypeId}
    (h : Walks g memo self found xs mid) (h' : Walks g memo self mid ys all) :
    Walks g memo self found (xs ++ ys) all := by
  induction h with
  | done => exact h'
  | skip hn _ ih => exact .skip hn (ih h')
  | splice hn hk _ ih => exact .splice hn hk (ih h')
  | expand hn hk _ ih =>
    rw [List.cons_append]
    refine .expand hn hk ?_
    rw [← List.append_assoc]
    exact ih h'

theorem walk_cons (g : Graph) (memo : Memo) (self : TypeId) (found : List TypeId) (x : TypeId)
    (xs : List TypeId) :
    g.walk memo self found (x :: xs) = g.walk memo self (g.walk memo self found [x]) xs := by
  have h := (walks_walk g memo self found [x]).append (walks_walk g memo self _ xs)
  exact (walks_walk g memo self found (x :: xs)).eq h

/-! ## A visit adds the list from scratch -/

/-- Everything that can be reached from a found id below `a` is found. -/
def DoneBelow (g : Graph) (found : List TypeId) (a : TypeId) : Prop :=
  ∀ f ∈ found, Relation.ReflTransGen g.Extends a f → ∀ x, Relation.TransGen g.Extends f x → x ∈ found

/-- The lists of a memo are those from scratch. -/
def Fresh (g : Graph) (memo : Memo) : Prop :=
  ∀ {id all}, memo.interfaces? id = some all → all = g.flatten .empty id

theorem fresh_empty : g.Fresh .empty := by
  intro id all h
  cases h

theorem Fresh.known?_eq {memo : Memo} (h : g.Fresh memo) {id : TypeId} {known : List TypeId}
    (hk : g.known? memo id = some known) : known = g.flatten .empty id := by
  unfold known? at hk
  cases hi : memo.interfaces? id with
  | some all => rw [hi] at hk; cases hk; exact h hi
  | none =>
    rw [hi, Option.none_or] at hk
    rw [flatten_eq, hk, Option.getD_some]

section
variable (hg : g.WellFormed) (ha : g.Acyclic)
include hg ha

theorem mem_fresh_iff {a i x : TypeId} (hi : g.Extends a i) :
    x ∈ g.flatten .empty i ↔ Relation.TransGen g.Extends i x := by
  rw [hg.flat_fresh i x, hg.inherits_iff hi]
  constructor
  · exact And.right
  · intro h
    exact ⟨fun e => ha i (e ▸ h), h⟩

theorem DoneBelow.splice {a i c self : TypeId} {found : List TypeId} (hi : g.Extends a i)
    (hself : ¬Relation.ReflTransGen g.Extends i self) (h : g.DoneBelow found c) :
    g.DoneBelow (splice self found (i :: g.flatten .empty i)) c := by
  intro f hf hcf x hx
  rcases mem_splice.mp hf with hf | ⟨hf, _⟩
  · exact mem_splice.mpr (.inl (h f hf hcf x hx))
  · have hix : Relation.TransGen g.Extends i x := by
      rcases List.mem_cons.mp hf with rfl | hf
      · exact hx
      · exact ((mem_fresh_iff hg ha hi).mp hf).trans hx
    refine mem_splice.mpr (.inr ⟨List.mem_cons_of_mem _ ((mem_fresh_iff hg ha hi).mpr hix), ?_⟩)
    rintro rfl
    exact hself hix.to_reflTransGen

theorem walk_list {memo : Memo} {self : TypeId} {is : List TypeId} {found : List TypeId}
    (hl : ∀ i ∈ is, ∃ a, g.Extends a i) (hs : ∀ i ∈ is, ¬Relation.ReflTransGen g.Extends i self)
    (hd : ∀ i ∈ is, g.DoneBelow found i)
    (hv : ∀ i ∈ is, ∀ found, g.DoneBelow found i →
      g.walk memo self found [i] = splice self found (i :: g.flatten .empty i)) :
    g.walk memo self found is = splice self found (is.flatMap fun i => i :: g.flatten .empty i) := by
  induction is generalizing found with
  | nil => rw [walk, List.flatMap_nil, splice]
  | cons i is ih =>
    have hi := List.mem_cons_self (a := i) (l := is)
    obtain ⟨a, hai⟩ := hl i hi
    rw [walk_cons, hv i hi found (hd i hi), List.flatMap_cons, splice_append]
    refine ih (fun j hj => hl j (List.mem_cons_of_mem _ hj)) (fun j hj => hs j (List.mem_cons_of_mem _ hj))
      (fun j hj => ?_) fun j hj => hv j (List.mem_cons_of_mem _ hj)
    exact (hd j (List.mem_cons_of_mem _ hj)).splice hg ha hai (hs i hi)

theorem walk_visit (i : TypeId) : ∀ {a : TypeId} {memo : Memo} {self : TypeId} {found : List TypeId},
    g.Extends a i → g.Fresh memo → ¬Relation.ReflTransGen g.Extends i self → g.DoneBelow found i →
    g.walk memo self found [i] = splice self found (i :: g.flatten .empty i) := by
  induction i using ha.wellFounded.induction with
  | _ i ih =>
    intro a memo self found hai hm hself hdone
    have hne : i ≠ self := fun e => hself (e ▸ .refl)
    refine (walks_walk g memo self found [i]).eq ?_
    by_cases hf : i ∈ found
    · -- nothing below a found interface is left to find
      rw [splice_of_subset]
      · exact .skip (.inr hf) .done
      · intro x hx
        rcases List.mem_cons.mp hx with rfl | hx
        · exact .inr hf
        · exact .inr (hdone i hf .refl x ((mem_fresh_iff hg ha hai).mp hx))
    · have hnew : ¬(i = self ∨ i ∈ found) := fun h => h.elim hne hf
      rw [splice_cons_of_new hnew]
      cases hk : g.known? memo i with
      | some known =>
        refine .splice hnew hk ?_
        rw [hm.known?_eq hk]
        exact .done
      | none =>
        refine .expand hnew hk ?_
        rw [List.append_nil]
        have hbelow : ∀ {self' : TypeId} {memo' : Memo} {found' : List TypeId}, g.Fresh memo' →
            ¬Relation.TransGen g.Extends i self' → (∀ c ∈ g.listedAt i, g.DoneBelow found' c) →
            g.walk memo' self' found' (g.listedAt i) =
              splice self' found' ((g.listedAt i).flatMap fun c => c :: g.flatten .empty c) := by
          intro self' memo' found' hm' hself' hd'
          have hs : ∀ c ∈ g.listedAt i, ¬Relation.ReflTransGen g.Extends c self' :=
            fun c hc hr => hself' (.head' (mem_listedAt.mp hc) hr)
          exact walk_list hg ha (fun c hc => ⟨i, mem_listedAt.mp hc⟩) hs hd'
            fun c hc f hf => ih c (mem_listedAt.mp hc) (mem_listedAt.mp hc) hm' (hs c hc) hf
        -- the list from scratch is the same walk, started with nothing found
        have hfresh : g.flatten .empty i =
            splice i [] ((g.listedAt i).flatMap fun c => c :: g.flatten .empty c) := by
          have hno : (g.get? i).bind (·.flattened) = none := by
            unfold known? at hk
            exact (Option.or_eq_none_iff.mp hk).2
          rw [flatten_eq, hno, Option.getD_none, starts_of_rootless fun d hd => hg.rootless hai hd]
          exact hbelow fresh_empty (ha i) fun c _ f hf => by cases hf
        rw [hfresh, splice_splice (List.mem_append_right _ (List.mem_singleton_self i)), List.nil_append,
          ← hbelow hm (fun h => hself h.to_reflTransGen) ?_]
        · exact walks_walk g memo self (found ++ [i]) (g.listedAt i)
        · intro c hc f hf hcf x hx
          rcases List.mem_append.mp hf with hf | hf
          · exact List.mem_append_left _ (hdone f hf (.head (mem_listedAt.mp hc) hcf) x hx)
          · rw [List.mem_singleton] at hf
            subst hf
            exact absurd (Relation.TransGen.head' (mem_listedAt.mp hc) hcf) (ha f)

theorem not_reaches_of_mem_starts {id i : TypeId} (hi : i ∈ g.starts id) :
    ¬Relation.ReflTransGen g.Extends i id := by
  -- a type that is reached is an interface, so that it starts from its own interfaces only
  intro hr
  obtain ⟨b, hb⟩ := Inherits.listed ⟨i, hi, hr⟩
  rw [starts_of_rootless fun d hd => hg.rootless hb hd] at hi
  exact ha id (.head' (mem_listedAt.mp hi) hr)

theorem walk_starts {memo : Memo} (hm : g.Fresh memo) (id : TypeId) :
    g.walk memo id [] (g.starts id) =
      splice id [] ((g.starts id).flatMap fun i => i :: g.flatten .empty i) := by
  have hs : ∀ i ∈ g.starts id, ¬Relation.ReflTransGen g.Extends i id :=
    fun i hi => not_reaches_of_mem_starts hg ha hi
  refine walk_list hg ha (fun i hi => extends_of_mem_starts hi) hs (fun i _ f hf => by cases hf) ?_
  intro i hi found hd
  obtain ⟨a, hai⟩ := extends_of_mem_starts hi
  exact walk_visit hg ha i hai hm (hs i hi) hd

theorem flatten_eq_fresh {memo : Memo} (hm : g.Fresh memo) (id : TypeId) :
    g.flatten memo id = g.flatten .empty id := by
  rw [flatten_eq, flatten_eq, walk_starts hg ha hm, walk_starts hg ha fresh_empty]

end

/-! ## Plain graphs -/

/-- The host has flattened nothing, interfaces have no base types, and none is reached from itself. -/
structure Plain (g : Graph) : Prop where
  unflattened : ∀ {id d}, g.get? id = some d → d.flattened = none
  rootless : ∀ {a i d}, g.Extends a i → g.get? i = some d → d.baseType = none
  acyclic : g.Acyclic

theorem Plain.wellFormed (h : g.Plain) : g.WellFormed where
  rootless := h.rootless
  faithful hd hf := by
    rw [h.unflattened hd] at hf
    cases hf

/-- A graph is plain if the host has flattened nothing and every type lists only ids that point nowhere and
types before it that have no base type. -/
theorem plain_of_types (h : ∀ p ∈ g.types.toList.zipIdx, p.1.flattened = none ∧
    ∀ i ∈ p.1.interfaces, ∀ e ∈ g.get? i, e.baseType = none ∧ i.toNat < p.2) : g.Plain := by
  have hget : ∀ {id d}, g.get? id = some d → d.flattened = none ∧
      ∀ i ∈ d.interfaces, ∀ e ∈ g.get? i, e.baseType = none ∧ i.toNat < id.toNat := by
    intro id d hd
    refine h (d, id.toNat) (List.mem_zipIdx_iff_getElem?.mpr ?_)
    rw [Array.getElem?_toList]
    exact hd
  have hlt : ∀ {a b e}, g.Extends a b → g.get? b = some e → b.toNat < a.toNat := by
    rintro a b e ⟨d, hd, hb⟩ he
    exact ((hget hd).2 b hb e he).2
  have hdown : ∀ {x y e}, Relation.TransGen g.Extends x y → g.get? y = some e → y.toNat < x.toNat := by
    intro x y e hxy
    induction hxy generalizing e with
    | single h => exact hlt h
    | tail _ hzy ih =>
      intro he
      obtain ⟨d, hd, _⟩ := id hzy
      exact (hlt hzy he).trans (ih hd)
  refine ⟨fun hd => (hget hd).1, ?_, ?_⟩
  · rintro a i e ⟨d, hd, hi⟩ he
    exact ((hget hd).2 i hi e he).1
  · intro x hx
    obtain ⟨d, hd⟩ : ∃ d, g.get? x = some d := by
      obtain ⟨y, ⟨d, hd, _⟩, _⟩ := Relation.TransGen.head'_iff.mp hx
      exact ⟨d, hd⟩
    exact absurd (hdown hx hd) (Nat.lt_irrefl _)

/-- The marker, two contracts one above the other, and a class that has the upper one. -/
def ladder : Graph where
  types := #[
    { name := "IActor", inNamespace := some "Dapr.Actors", kind := .interfaceType },
    { name := "ILowActor", kind := .interfaceType, interfaces := [⟨0⟩] },
    { name := "IHighActor", kind := .interfaceType, interfaces := [⟨1⟩] },
    { name := "High", kind := .classType, interfaces := [⟨2⟩] }]
  declarations := [⟨1⟩, ⟨2⟩, ⟨3⟩]

theorem ladder_plain : ladder.Plain := plain_of_types (by decide)

end Graph

end ActorAudit
