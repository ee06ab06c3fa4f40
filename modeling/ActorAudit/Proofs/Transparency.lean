import ActorAudit.Proofs.History
import ActorAudit.Proofs.Preorder
import Mathlib

/-!
# When remembering makes no difference

A graph is transparent if no earlier question changes the interfaces of a type. Not every graph is: a
remembered list holds what an interface has from a base type, and it is spliced in where a walk would not
look at base types. `Consistent` is the exact condition and can be computed: whichever lists from scratch
are remembered, the list of a type that is not among them comes out as from scratch.
-/

namespace ActorAudit

theorem Query.each_append {α β : Type} (f : α → Query β) (xs ys : List α) (memo : Memo) :
    (each f (xs ++ ys) memo).2 = (each f ys (each f xs memo).2).2 := by
  induction xs generalizing memo with
  | nil => rfl
  | cons x xs ih => exact ih _

theorem Model.after_concat (m : Model) (qs : List Question) (q : Question) :
    m.after (qs ++ [q]) = (m.ask q (m.after qs)).2 := Query.each_append _ _ _ _

namespace Graph

/-- Whatever is asked before, and about whatever framework, the interfaces of a type are those that are
found from scratch. -/
def Transparent (g : Graph) : Prop :=
  ∀ (f : Framework) (qs : List Question) (id : TypeId),
    (g.interfacesOf id (Model.after ⟨g, f⟩ qs)).1 = (g.interfacesOf id .empty).1

def ids (g : Graph) : List TypeId := (List.range g.size).map TypeId.ofNat

def remembering (g : Graph) (known : List TypeId) : Memo where
  interfaces := known.map fun id => (id, g.flatten .empty id)

/-- Whichever lists from scratch are remembered, the list of any other type is the one from scratch. -/
def Consistent (g : Graph) : Prop :=
  ∀ known ∈ g.ids.sublists, ∀ id ∈ g.ids, id ∉ known →
    g.flatten (g.remembering known) id = g.flatten .empty id

instance (g : Graph) : Decidable g.Consistent :=
  inferInstanceAs (Decidable (∀ known ∈ g.ids.sublists, ∀ id ∈ g.ids, id ∉ known →
    g.flatten (g.remembering known) id = g.flatten .empty id))

variable {g : Graph}

theorem mem_ids {id : TypeId} {d : TypeSymbol} (h : g.get? id = some d) : id ∈ g.ids :=
  List.mem_map.mpr ⟨id.toNat, List.mem_range.mpr (lt_size_of_get? h), TypeId.ofNat_toNat id⟩

theorem interfaces?_remembering (known : List TypeId) (x : TypeId) :
    (g.remembering known).interfaces? x = if x ∈ known then some (g.flatten .empty x) else none := by
  unfold remembering Memo.interfaces?
  induction known with
  | nil => rfl
  | cons id known ih =>
    rw [List.map_cons, List.lookup_cons]
    by_cases h : x = id
    · simp [h]
    · rw [beq_false_of_ne h]
      simpa [h] using ih

theorem interfacesOf_fst (memo : Memo) (id : TypeId) :
    (g.interfacesOf id memo).1 = (memo.interfaces? id).getD (g.flatten memo id) := by
  cases h : memo.interfaces? id with
  | some all => rw [interfacesOf_of_known h]; rfl
  | none => rw [interfacesOf_of_unknown h]; rfl

theorem interfacesOf_empty (id : TypeId) : (g.interfacesOf id .empty).1 = g.flatten .empty id := by
  rw [interfacesOf_fst]
  rfl

/-! ## Memos that a walk cannot tell apart -/

/-- The memos hold the same lists for types, and nothing for ids that point nowhere. -/
structure Alike (g : Graph) (memo memo' : Memo) : Prop where
  types : ∀ {id d}, g.get? id = some d → memo.interfaces? id = memo'.interfaces? id
  left : ∀ {id all}, g.get? id = none → memo.interfaces? id = some all → all = []
  right : ∀ {id all}, g.get? id = none → memo'.interfaces? id = some all → all = []

theorem Walks.dangling {memo : Memo} {self next : TypeId} {found rest all : List TypeId}
    (hd : g.get? next = none) (hm : ∀ {l}, memo.interfaces? next = some l → l = [])
    (hn : ¬(next = self ∨ next ∈ found)) (h : Walks g memo self (found ++ [next]) rest all) :
    Walks g memo self found (next :: rest) all := by
  cases hk : memo.interfaces? next with
  | some known =>
    refine .splice hn (show g.known? memo next = some known by simp [known?, hk]) ?_
    rw [hm hk]
    exact h
  | none => exact .expand hn (by simp [known?, hk, hd]) (by simpa [listedAt, hd] using h)

theorem Alike.walks {memo memo' : Memo} (ha : g.Alike memo memo') {self : TypeId}
    {found stack all : List TypeId} (h : Walks g memo self found stack all) :
    Walks g memo' self found stack all := by
  have hknown : ∀ {id d}, g.get? id = some d → g.known? memo' id = g.known? memo id := by
    intro id d hd
    rw [known?, known?, ha.types hd]
  induction h with
  | done => exact .done
  | skip hn _ ih => exact .skip hn ih
  | @splice found next rest known all hn hk _ ih =>
    cases hd : g.get? next with
    | some d => exact .splice hn ((hknown hd).trans hk) ih
    | none =>
      have : known = [] := by
        rw [known?, hd, Option.bind_none, Option.or_none] at hk
        exact ha.left hd hk
      subst this
      exact .dangling hd (ha.right hd) hn ih
  | @expand found next rest all hn hk _ ih =>
    cases hd : g.get? next with
    | some d => exact .expand hn ((hknown hd).trans hk) ih
    | none =>
      rw [listedAt, hd] at ih
      exact .dangling hd (ha.right hd) hn ih

theorem Alike.flatten_eq {memo memo' : Memo} (ha : g.Alike memo memo') (id : TypeId) :
    g.flatten memo id = g.flatten memo' id := by
  rw [Graph.flatten_eq, Graph.flatten_eq,
    (ha.walks (walks_walk g memo id [] (g.starts id))).eq (walks_walk g memo' id [] (g.starts id))]

theorem flatten_of_dangling {memo : Memo} {id : TypeId} (h : g.get? id = none) : g.flatten memo id = [] := by
  unfold flatten
  rw [h]

/-! ## The exact condition -/

theorem Transparent.interfaces?_after (h : g.Transparent) (f : Framework) (ids : List TypeId) (x : TypeId) :
    (Model.after ⟨g, f⟩ (ids.map .interfaces)).interfaces? x =
      if x ∈ ids then some (g.flatten .empty x) else none := by
  induction ids using List.reverseRecOn with
  | nil => rfl
  | append_singleton ids id ih =>
    have hid := h f (ids.map .interfaces) id
    rw [interfacesOf_fst, interfacesOf_fst] at hid
    rw [List.map_append, List.map_singleton, Model.after_concat]
    show (g.interfacesOf id (Model.after ⟨g, f⟩ (ids.map .interfaces))).2.interfaces? x = _
    cases hk : (Model.after ⟨g, f⟩ (ids.map .interfaces)).interfaces? id with
    | some all =>
      rw [interfacesOf_of_known hk, ih]
      by_cases hx : x = id
      · subst hx
        rw [ih] at hk
        by_cases hm : x ∈ ids
        · simp [hm]
        · rw [if_neg hm] at hk; cases hk
      · simp [hx]
    | none =>
      rw [hk, Option.getD_none] at hid
      rw [interfacesOf_of_unknown hk, Memo.interfaces?_recordInterfaces, hid, ih]
      by_cases hx : x = id
      · subst hx
        simp [Memo.empty, Memo.interfaces?]
      · simp [hx]

theorem Transparent.consistent (h : g.Transparent) : g.Consistent := by
  intro known _ id _ hid
  have hmemo := h.interfaces?_after {} known
  have hfresh := h {} (known.map .interfaces) id
  rw [interfacesOf_fst, hmemo, if_neg hid, interfacesOf_fst] at hfresh
  have halike : g.Alike (g.remembering known) (Model.after ⟨g, {}⟩ (known.map .interfaces)) := by
    refine ⟨fun _ => by rw [interfaces?_remembering, hmemo], ?_, ?_⟩
    · intro x all hd hx
      rw [interfaces?_remembering] at hx
      split at hx
      · cases hx; exact flatten_of_dangling hd
      · cases hx
    · intro x all hd hx
      rw [hmemo] at hx
      split at hx
      · cases hx; exact flatten_of_dangling hd
      · cases hx
  rw [halike.flatten_eq]
  exact hfresh

theorem Consistent.flatten_eq (h : g.Consistent) {memo : Memo} (hm : g.Fresh memo) {id : TypeId}
    (hid : memo.interfaces? id = none) : g.flatten memo id = g.flatten .empty id := by
  cases hd : g.get? id with
  | none => rw [flatten_of_dangling hd, flatten_of_dangling hd]
  | some d =>
    have halike : g.Alike memo (g.remembering (g.ids.filter fun x => (memo.interfaces? x).isSome)) := by
      refine ⟨?_, ?_, ?_⟩
      · intro x e he
        rw [interfaces?_remembering]
        cases hx : memo.interfaces? x with
        | some all => simp [mem_ids he, hx, hm hx]
        | none => simp [hx]
      · intro x all he hx
        rw [hm hx, flatten_of_dangling he]
      · intro x all he hx
        rw [interfaces?_remembering] at hx
        split at hx
        · cases hx; exact flatten_of_dangling he
        · cases hx
    rw [halike.flatten_eq]
    refine h _ (List.mem_sublists.mpr List.filter_sublist) id (mem_ids hd) ?_
    rw [List.mem_filter, hid]
    simp

theorem transparent_of_flatten_eq
    (h : ∀ memo id, g.Fresh memo → memo.interfaces? id = none → g.flatten memo id = g.flatten .empty id) :
    g.Transparent := by
  intro f qs id
  have hi : ∀ id, Query.Keeps (Memo.Holds (fun id all => all = g.flatten .empty id) fun _ _ => True)
      (g.interfacesOf id) fun all => all = g.flatten .empty id :=
    Model.keeps_interfacesOf fun memo id hI hid => h memo id hI.interfaces hid
  have hc := Model.keeps_classify (m := ⟨g, f⟩) hi fun _ _ _ => trivial
  have hI := Model.after_induction (m := ⟨g, f⟩) Memo.holds_empty
    (fun id => (hi id).mono fun _ _ => trivial) hc qs
  rw [(hi id _ hI).1, interfacesOf_empty]

theorem WellFormed.transparent (hg : g.WellFormed) (ha : g.Acyclic) : g.Transparent :=
  transparent_of_flatten_eq fun _ id hm _ => flatten_eq_fresh hg ha hm id

/-- Remembering makes no difference exactly on the consistent graphs. The well-formed graphs without a
cycle are among them. -/
theorem transparent_iff_consistent (g : Graph) :
    (g.Transparent ↔ g.Consistent) ∧ (g.WellFormed → g.Acyclic → g.Transparent) := by
  refine ⟨⟨Transparent.consistent, fun h => ?_⟩, WellFormed.transparent⟩
  exact transparent_of_flatten_eq fun _ _ hm hid => h.flatten_eq hm hid

theorem ladder_transparent : ladder.WellFormed ∧ ladder.Acyclic ∧ ladder.Transparent :=
  ⟨ladder_plain.wellFormed, ladder_plain.acyclic,
    (transparent_iff_consistent ladder).2 ladder_plain.wellFormed ladder_plain.acyclic⟩

/-- An interface with a base class that has another interface, and a class that has the first. -/
def detour : Graph where
  types := #[
    { name := "IOther", kind := .interfaceType },
    { name := "Base", kind := .classType, interfaces := [⟨0⟩] },
    { name := "IOne", kind := .interfaceType, baseType := some ⟨1⟩ },
    { name := "One", kind := .classType, interfaces := [⟨2⟩] }]

theorem detour_not_transparent : ¬detour.Transparent := by
  intro h
  have hwarm : (detour.interfacesOf ⟨3⟩ (Model.after ⟨detour, {}⟩ [.interfaces ⟨2⟩])).1 = [⟨2⟩, ⟨0⟩] := by
    cbv
  have hcold : (detour.interfacesOf ⟨3⟩ .empty).1 = [⟨2⟩] := by cbv
  have heq := h {} [.interfaces ⟨2⟩] ⟨3⟩
  rw [hwarm, hcold] at heq
  cases heq

end Graph

end ActorAudit
