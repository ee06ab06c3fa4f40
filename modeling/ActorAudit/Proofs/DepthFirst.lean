import ActorAudit.Proofs.Transparency

/-!
# Interfaces in depth-first order

`preorder` unfolds an interface: the interface, then one after the other the unfoldings of the interfaces it
lists, however often they come up. Where interfaces have no cycle this ends. On a plain graph the flattened
interfaces of a type are the unfoldings of what the type and its ancestors list, each id where it comes up
first, and it makes no difference which lists are remembered.
-/

namespace ActorAudit

namespace Graph

/-- An interface followed by the unfoldings of its own interfaces. -/
def preorder (g : Graph) (h : g.Acyclic) (i : TypeId) : List TypeId :=
  i :: (g.listedAt i).attach.flatMap fun c => g.preorder h c.1
termination_by h.wellFounded.wrap i
decreasing_by exact mem_listedAt.mp c.2

variable {g : Graph}

theorem preorder_eq (h : g.Acyclic) (i : TypeId) :
    g.preorder h i = i :: (g.listedAt i).flatMap (g.preorder h) := by
  rw [preorder]
  simp

theorem mem_preorder (h : g.Acyclic) {i x : TypeId} :
    x ∈ g.preorder h i ↔ Relation.ReflTransGen g.Extends i x := by
  constructor
  · induction i using h.wellFounded.induction with
    | _ i ih =>
      intro hx
      rw [preorder_eq, List.mem_cons, List.mem_flatMap] at hx
      rcases hx with rfl | ⟨c, hc, hx⟩
      · exact .refl
      · exact .head (mem_listedAt.mp hc) (ih c (mem_listedAt.mp hc) hx)
  · intro hr
    induction hr using Relation.ReflTransGen.head_induction_on with
    | refl =>
      rw [preorder_eq]
      exact List.mem_cons_self
    | head hic _ ih =>
      rw [preorder_eq, List.mem_cons, List.mem_flatMap]
      exact .inr ⟨_, mem_listedAt.mpr hic, ih⟩

/-! ## Splicing unfoldings -/

theorem splice_eq_append {self : TypeId} {ids : List TypeId} (h : self ∉ ids) (found : List TypeId) :
    splice self found ids = found ++ (ids.filter (· ∉ found)).eraseDups := by
  induction ids generalizing found with
  | nil => simp [splice]
  | cons id ids ih =>
    obtain ⟨hid, hids⟩ := List.ne_and_not_mem_of_not_mem_cons h
    by_cases hf : id ∈ found
    · simp [splice, hf, ih hids]
    · rw [splice_cons_of_new fun hn => hn.elim (Ne.symm hid) hf, ih hids, List.filter_cons_of_pos (by simpa using hf),
        List.eraseDups_cons, List.filter_filter, List.append_assoc]
      simp [and_comm, beq_eq_decide]

theorem splice_flatMap_congr {self : TypeId} {l : List TypeId} {f f' : TypeId → List TypeId}
    (h : ∀ i ∈ l, ∀ found, splice self found (f i) = splice self found (f' i)) (found : List TypeId) :
    splice self found (l.flatMap f) = splice self found (l.flatMap f') := by
  induction l generalizing found with
  | nil => rfl
  | cons i l ih =>
    rw [List.flatMap_cons, List.flatMap_cons, splice_append, splice_append, h i List.mem_cons_self]
    exact ih (fun j hj => h j (List.mem_cons_of_mem _ hj)) _

section
variable (hg : g.Plain)
include hg

theorem Plain.flatten_fresh (id : TypeId) : g.flatten .empty id =
    splice id [] ((g.starts id).flatMap fun i => i :: g.flatten .empty i) := by
  have hno : (g.get? id).bind (·.flattened) = none := by
    cases hd : g.get? id with
    | none => rfl
    | some d => exact hg.unflattened hd
  rw [flatten_eq, hno, Option.getD_none]
  exact walk_starts hg.wellFormed hg.acyclic fresh_empty id

/-- The step: where an interface and its list from scratch are added, its unfolding may be added instead. -/
theorem Plain.splice_preorder {a i self : TypeId} (hai : g.Extends a i)
    (hself : ¬Relation.ReflTransGen g.Extends i self) (found : List TypeId) :
    splice self found (i :: g.flatten .empty i) = splice self found (g.preorder hg.acyclic i) := by
  -- along the interfaces; the list from scratch leaves out repetitions, which splicing would leave out anyway
  induction i using hg.acyclic.wellFounded.induction generalizing a found with
  | _ i ih =>
    have hi : i ∈ splice self found [i] :=
      mem_splice.mpr (.inr ⟨List.mem_singleton_self i, fun e => hself (e ▸ .refl)⟩)
    have hstarts : g.starts i = g.listedAt i := starts_of_rootless fun d hd => hg.rootless hai hd
    calc splice self found (i :: g.flatten .empty i)
        = splice self (splice self found [i]) (g.flatten .empty i) := splice_append self found [i] _
      _ = splice self (splice self found [i]) ((g.listedAt i).flatMap fun c => c :: g.flatten .empty c) := by
        rw [hg.flatten_fresh i, splice_splice hi, List.nil_append, hstarts]
      _ = splice self (splice self found [i]) ((g.listedAt i).flatMap (g.preorder hg.acyclic)) := by
        refine splice_flatMap_congr (fun c hc found' => ?_) _
        have hic := mem_listedAt.mp hc
        exact ih c hic hic (fun hr => hself (.head hic hr)) found'
      _ = splice self found (g.preorder hg.acyclic i) := by
        rw [preorder_eq]
        exact (splice_append self found [i] _).symm

theorem Plain.flatten_eq_preorder (id : TypeId) :
    g.flatten .empty id = ((g.starts id).flatMap (g.preorder hg.acyclic)).eraseDups := by
  have hs : ∀ i ∈ g.starts id, ¬Relation.ReflTransGen g.Extends i id :=
    fun i hi => not_reaches_of_mem_starts hg.wellFormed hg.acyclic hi
  have hid : id ∉ (g.starts id).flatMap (g.preorder hg.acyclic) := by
    intro hmem
    obtain ⟨i, hi, hx⟩ := List.mem_flatMap.mp hmem
    exact hs i hi ((mem_preorder hg.acyclic).mp hx)
  have hunfold : splice id [] ((g.starts id).flatMap fun i => i :: g.flatten .empty i) =
      splice id [] ((g.starts id).flatMap (g.preorder hg.acyclic)) := by
    refine splice_flatMap_congr (fun i hi found => ?_) []
    obtain ⟨a, hai⟩ := extends_of_mem_starts hi
    exact hg.splice_preorder hai (hs i hi) found
  rw [hg.flatten_fresh, hunfold, splice_eq_append hid]
  simp

end

/-- Two interfaces over one that a host knows for enumerable, the one with an id that points nowhere; a record that
has the one itself and the other from the record below it. -/
def pantry : Graph where
  types := #[
    { name := "IEnumerable", inNamespace := some "System.Collections.Generic", kind := .interfaceType },
    { name := "IShelf", kind := .interfaceType, interfaces := [⟨0⟩] },
    { name := "IStore", kind := .interfaceType, interfaces := [⟨0⟩, ⟨9⟩] },
    { name := "Jar", kind := .recordType },
    { name := "Cupboard", kind := .recordType, interfaces := [⟨1⟩] },
    { name := "Pantry", kind := .recordType, baseType := some ⟨4⟩, interfaces := [⟨2⟩], typeArguments := [⟨3⟩] }]

theorem pantry_plain : pantry.Plain := plain_of_types (by decide)

end Graph

namespace Model

/-- On a plain graph the interfaces of a type, after any questions, are those that a depth-first visit meets, in the
order in which it meets them first. The visit goes through what the type lists and then what its ancestors list,
nearest first; each interface is followed by the visit of its own. -/
theorem interfacesOf_after_eq_preorder {m : Model} (hg : m.graph.Plain) (qs : List Question) (id : TypeId) :
    (m.graph.interfacesOf id (m.after qs)).1 =
      ((m.graph.lineage id).flatMap fun (_, owner) =>
        owner.interfaces.flatMap (m.graph.preorder hg.acyclic)).eraseDups := by
  have htransparent := Graph.WellFormed.transparent hg.wellFormed hg.acyclic m.framework qs id
  rw [Graph.interfacesOf_empty, hg.flatten_eq_preorder, Graph.starts, List.flatMap_assoc] at htransparent
  exact htransparent

/-- The shelf is remembered when the pantry is asked about; its list is spliced in after the store's. -/
theorem interfacesOf_after_pantry :
    let m : Model := ⟨Graph.pantry, {}⟩
    let found := (m.graph.interfacesOf ⟨5⟩ (m.after [.interfaces ⟨1⟩, .classification ⟨4⟩])).1
    m.graph.Plain ∧ found = [⟨2⟩, ⟨0⟩, ⟨9⟩, ⟨1⟩] ∧
    found = ((m.graph.lineage ⟨5⟩).flatMap fun (_, owner) =>
      owner.interfaces.flatMap (m.graph.preorder Graph.pantry_plain.acyclic)).eraseDups :=
  ⟨Graph.pantry_plain, by cbv, interfacesOf_after_eq_preorder (m := ⟨Graph.pantry, {}⟩) Graph.pantry_plain _ _⟩

end Model

end ActorAudit
