import ActorAudit.Proofs.History
import Mathlib

/-!
# The turns of a walk

A walk takes one id off its stack in every turn. An id that is new may put the interfaces it lists on the stack, but
only once, since from then on it is found. So the ids on the stack and those that are listed by types not yet found
are fewer after every turn, on every graph and from every memo. What the walk finds has no id twice and not the type
itself, and nothing but ids to which base types, interfaces and flattened lists lead from the type.
-/

namespace ActorAudit.Graph

variable {g : Graph} {memo : Memo} {self id : TypeId} {found stack all : List TypeId}

/-! ## Turns -/

/-- One turn of the loop on what is found and what is still to visit. -/
def turn? (g : Graph) (memo : Memo) (self : TypeId) :
    List TypeId × List TypeId → Option (List TypeId × List TypeId)
  | (_, []) => none
  | (found, next :: rest) =>
    if next = self ∨ next ∈ found then some (found, rest)
    else
      match g.known? memo next with
      | some known => some (splice self (found ++ [next]) known, rest)
      | none => some (found ++ [next], g.listedAt next ++ rest)

/-- The walk is made of turns. -/
theorem Walks.turns (h : Walks g memo self found stack all) :
    Relation.ReflTransGen (fun s t => g.turn? memo self s = some t) (found, stack) (all, []) := by
  induction h with
  | done => exact .refl
  | skip hn _ ih => exact .head (by simp [turn?, hn]) ih
  | splice hn hk _ ih => exact .head (by simp [turn?, hn, hk]) ih
  | expand hn hk _ ih => exact .head (by simp [turn?, hn, hk]) ih

/-! ## What is left to do -/

/-- How many interfaces are listed by those of a list of types, each with its position, that are not found. -/
def unlistedIn (found : List TypeId) : List (TypeSymbol × Nat) → Nat
  | [] => 0
  | (d, i) :: rest => (if TypeId.ofNat i ∈ found then 0 else d.interfaces.length) + unlistedIn found rest

theorem unlistedIn_mono {found' : List TypeId} (h : ∀ x ∈ found, x ∈ found') (types : List (TypeSymbol × Nat)) :
    unlistedIn found' types ≤ unlistedIn found types := by
  induction types with
  | nil => exact Nat.le_refl _
  | cons p rest ih =>
    obtain ⟨d, i⟩ := p
    by_cases hi : TypeId.ofNat i ∈ found
    · simp only [unlistedIn, hi, h _ hi, if_true]
      omega
    · simp only [unlistedIn, hi, if_false]
      split <;> omega

/-- A type that is found takes the interfaces it lists with it. -/
theorem unlistedIn_concat {types : List (TypeSymbol × Nat)} {d : TypeSymbol} (hmem : (d, id.toNat) ∈ types)
    (hn : id ∉ found) : unlistedIn (found ++ [id]) types + d.interfaces.length ≤ unlistedIn found types := by
  induction types with
  | nil => cases hmem
  | cons p rest ih =>
    obtain ⟨e, i⟩ := p
    have hsub : ∀ x ∈ found, x ∈ found ++ [id] := fun x hx => List.mem_append_left _ hx
    have hmono := unlistedIn_mono hsub rest
    rcases List.mem_cons.mp hmem with heq | hmem
    · obtain ⟨rfl, rfl⟩ := Prod.mk.inj heq
      simp only [unlistedIn, TypeId.ofNat_toNat, hn, if_false, List.mem_append, List.mem_singleton, or_true, if_true]
      omega
    · have hrest := ih hmem
      by_cases hi : TypeId.ofNat i ∈ found
      · simp only [unlistedIn, hi, List.mem_append, true_or, if_true]
        omega
      · simp only [unlistedIn, hi, if_false]
        split <;> omega

theorem unlistedIn_listedAt (g : Graph) (hn : id ∉ found) :
    unlistedIn (found ++ [id]) g.types.toList.zipIdx + (g.listedAt id).length ≤
      unlistedIn found g.types.toList.zipIdx := by
  cases hd : g.get? id with
  | none =>
    simp only [listedAt, hd, List.length_nil, Nat.add_zero]
    exact unlistedIn_mono (fun x hx => List.mem_append_left _ hx) _
  | some d =>
    have hmem : (d, id.toNat) ∈ g.types.toList.zipIdx :=
      List.mem_zipIdx_iff_getElem?.mpr (by simpa [get?] using hd)
    simpa only [listedAt, hd] using unlistedIn_concat hmem hn

theorem unlistedIn_nil_zipIdx (types : List TypeSymbol) (i : Nat) :
    unlistedIn [] (types.zipIdx i) = (types.flatMap (·.interfaces)).length := by
  induction types generalizing i with
  | nil => rfl
  | cons d types ih => simp [unlistedIn, ih]

/-- The ids on the stack and those that can still come to it. -/
def pending (g : Graph) (s : List TypeId × List TypeId) : Nat :=
  s.2.length + unlistedIn s.1 g.types.toList.zipIdx

theorem pending_le (g : Graph) (s : List TypeId × List TypeId) :
    g.pending s ≤ s.2.length + (g.types.toList.flatMap (·.interfaces)).length := by
  have hsub : ∀ x ∈ [], x ∈ s.1 := by simp
  have hmono := unlistedIn_mono hsub g.types.toList.zipIdx
  rw [unlistedIn_nil_zipIdx] at hmono
  exact Nat.add_le_add_left hmono _

/-- Every turn leaves less to do. -/
theorem pending_lt_of_turn? {s t : List TypeId × List TypeId} (h : g.turn? memo self s = some t) :
    g.pending t < g.pending s := by
  obtain ⟨found, stack⟩ := s
  unfold pending
  cases stack with
  | nil => simp [turn?] at h
  | cons next rest =>
    rw [turn?] at h
    split at h
    · cases h
      simp
    · rename_i hn
      split at h
      · rename_i known _
        cases h
        have hsub : ∀ x ∈ found, x ∈ splice self (found ++ [next]) known :=
          fun x hx => subset_splice _ _ _ x (List.mem_append_left _ hx)
        have hmono := unlistedIn_mono hsub g.types.toList.zipIdx
        simp only [List.length_cons]
        omega
      · cases h
        have hnew : next ∉ found := fun hf => hn (.inr hf)
        have hfewer := g.unlistedIn_listedAt hnew
        simp only [List.length_append, List.length_cons]
        omega

/-- A run of turns is no longer than what is left to do at its start. -/
theorem length_le_of_turns {s : List TypeId × List TypeId} {run : List (List TypeId × List TypeId)}
    (h : List.IsChain (fun s t => g.turn? memo self s = some t) (s :: run)) : run.length ≤ g.pending s := by
  induction run generalizing s with
  | nil => simp
  | cons t run ih =>
    rw [List.isChain_cons_cons] at h
    have hlt := pending_lt_of_turn? h.1
    have hle := ih h.2
    simp only [List.length_cons]
    omega

/-! ## No id twice -/

theorem nodup_concat {next : TypeId} (hf : found.Nodup ∧ self ∉ found) (hn : ¬(next = self ∨ next ∈ found)) :
    (found ++ [next]).Nodup ∧ self ∉ found ++ [next] := by
  rw [not_or] at hn
  refine ⟨List.nodup_append.mpr ⟨hf.1, by simp, ?_⟩, ?_⟩
  · rintro x hx y hy rfl
    exact hn.2 (List.mem_singleton.mp hy ▸ hx)
  · simp [hf.2, Ne.symm hn.1]

theorem nodup_splice (hf : found.Nodup ∧ self ∉ found) (ids : List TypeId) :
    (splice self found ids).Nodup ∧ self ∉ splice self found ids := by
  induction ids generalizing found with
  | nil => exact hf
  | cons id ids ih =>
    unfold splice
    split
    · exact ih hf
    · rename_i hn
      exact ih (nodup_concat hf hn)

theorem Walks.nodup (h : Walks g memo self found stack all) (hf : found.Nodup ∧ self ∉ found) :
    all.Nodup ∧ self ∉ all := by
  induction h with
  | done => exact hf
  | skip _ _ ih => exact ih hf
  | splice hn _ _ ih => exact ih (nodup_splice (nodup_concat hf hn) _)
  | expand hn _ _ ih => exact ih (nodup_concat hf hn)

/-! ## What leads to what is found -/

/-- The second id is the base type, an interface or a flattened interface of the first. -/
def Leads (g : Graph) (a b : TypeId) : Prop :=
  ∃ d, g.get? a = some d ∧ (d.baseType = some b ∨ b ∈ d.interfaces ∨ ∃ all, d.flattened = some all ∧ b ∈ all)

theorem leads_of_extends {a b : TypeId} (h : g.Extends a b) : g.Leads a b := by
  obtain ⟨d, hd, hb⟩ := h
  exact ⟨d, hd, .inr (.inl hb)⟩

theorem leads_of_climb {seen : List TypeId} {next : Option TypeId} {p : TypeId × TypeSymbol}
    (h : p ∈ g.climb seen next) (hnext : ∀ x, next = some x → Relation.ReflTransGen g.Leads self x) :
    Relation.ReflTransGen g.Leads self p.1 := by
  fun_induction climb g seen next with
  | case1 => cases h
  | case2 => cases h
  | case3 => cases h
  | case4 seen x hs d hd ih =>
    have hx := hnext x rfl
    rcases List.mem_cons.mp h with rfl | h
    · exact hx
    · exact ih h fun y hy => hx.tail ⟨d, hd, .inl hy⟩

theorem leads_of_mem_starts {x : TypeId} (h : x ∈ g.starts id) : Relation.ReflTransGen g.Leads id x := by
  obtain ⟨p, hp, hx⟩ := List.mem_flatMap.mp h
  have hd := get?_of_mem_lineage hp
  have howner : Relation.ReflTransGen g.Leads id p.1 := by
    unfold lineage at hp
    split at hp
    · rename_i e he
      rcases List.mem_cons.mp hp with rfl | hp
      · exact .refl
      · exact leads_of_climb hp fun y hy => .single ⟨e, he, .inl hy⟩
    · cases hp
  exact howner.tail ⟨p.2, hd, .inr (.inl hx)⟩

section
variable (hm : ∀ {id all}, memo.interfaces? id = some all → ∀ x ∈ all, Relation.ReflTransGen g.Leads id x)
include hm

theorem leads_of_known? {known : List TypeId} (hk : g.known? memo id = some known) :
    ∀ x ∈ known, Relation.ReflTransGen g.Leads id x := by
  rcases Option.or_eq_some_iff.mp hk with hi | ⟨_, hh⟩
  · exact hm hi
  · obtain ⟨d, hd, hh⟩ := Option.bind_eq_some_iff.mp hh
    exact fun x hx => .single ⟨d, hd, .inr (.inr ⟨known, hh, hx⟩)⟩

theorem Walks.leads (h : Walks g memo self found stack all)
    (hf : ∀ x ∈ found, Relation.ReflTransGen g.Leads self x) (hs : ∀ x ∈ stack, Relation.ReflTransGen g.Leads self x) :
    ∀ x ∈ all, Relation.ReflTransGen g.Leads self x := by
  induction h with
  | done => exact hf
  | skip _ _ ih => exact ih hf (List.forall_mem_cons.mp hs).2
  | splice _ hk _ ih =>
    obtain ⟨hnext, hrest⟩ := List.forall_mem_cons.mp hs
    refine ih (fun x hx => ?_) hrest
    rcases mem_splice.mp hx with hx | ⟨hx, _⟩
    · exact List.forall_mem_append.mpr ⟨hf, List.forall_mem_singleton.mpr hnext⟩ x hx
    · exact hnext.trans (leads_of_known? hm hk x hx)
  | expand _ _ _ ih =>
    obtain ⟨hnext, hrest⟩ := List.forall_mem_cons.mp hs
    refine ih (List.forall_mem_append.mpr ⟨hf, List.forall_mem_singleton.mpr hnext⟩)
      (List.forall_mem_append.mpr ⟨fun x hx => ?_, hrest⟩)
    exact hnext.tail (leads_of_extends (mem_listedAt.mp hx))

end

/-! ## Lists for a type -/

/-- A list for a type holds only ids that the type leads to; and unless the host has given it, no id twice and not the
type itself. -/
structure Tidy (g : Graph) (id : TypeId) (all : List TypeId) : Prop where
  leads : ∀ x ∈ all, Relation.ReflTransGen g.Leads id x
  nodup : (g.get? id).bind (·.flattened) = none → all.Nodup ∧ id ∉ all

theorem tidy_flatten (hm : ∀ {id all}, memo.interfaces? id = some all → g.Tidy id all) (id : TypeId) :
    g.Tidy id (g.flatten memo id) := by
  rw [flatten_eq]
  cases hh : (g.get? id).bind (·.flattened) with
  | some all =>
    obtain ⟨d, hd, hflat⟩ := Option.bind_eq_some_iff.mp hh
    refine ⟨fun x hx => .single ⟨d, hd, .inr (.inr ⟨all, hflat, hx⟩)⟩, fun hnone => ?_⟩
    rw [hh] at hnone
    cases hnone
  | none =>
    have hw := walks_walk g memo id [] (g.starts id)
    exact ⟨hw.leads (fun hi => (hm hi).leads) (by simp) fun x => leads_of_mem_starts, fun _ => hw.nodup (by simp)⟩

end ActorAudit.Graph

namespace ActorAudit.Model

theorem keeps_interfacesOf_tidy (m : Model) (id : TypeId) :
    Query.Keeps (Memo.Holds m.graph.Tidy fun _ _ => True) (m.graph.interfacesOf id) (m.graph.Tidy id) :=
  keeps_interfacesOf (fun _ id hI _ => Graph.tidy_flatten hI.interfaces id) id

theorem tidy_after (m : Model) (qs : List Question) : Memo.Holds m.graph.Tidy (fun _ _ => True) (m.after qs) :=
  after_induction Memo.holds_empty (fun id => (keeps_interfacesOf_tidy m id).mono fun _ _ => trivial)
    (fun id => keeps_classify (keeps_interfacesOf_tidy m) (fun _ _ _ => trivial) id) qs

/-- The walk for the interfaces of a type ends on every graph and after any questions: whatever is found and on the
stack, there are no more turns than ids on the stack and in the lists of interfaces, and the turns from the start lead
to the answer and an empty stack. Where the host has given no list, the answer has no id twice and not the type itself,
and base types, interfaces and flattened lists lead from the type to everything in it. -/
theorem interfacesOf_after_safe (m : Model) (qs : List Question) (id : TypeId) :
    (∀ found stack run,
      List.IsChain (fun s t => m.graph.turn? (m.after qs) id s = some t) ((found, stack) :: run) →
        run.length ≤ stack.length + (m.graph.types.toList.flatMap (·.interfaces)).length) ∧
    ((∀ d, m.graph.get? id = some d → d.flattened = none) →
      Relation.ReflTransGen (fun s t => m.graph.turn? (m.after qs) id s = some t)
        ([], m.graph.starts id) (m.graph.flatten (m.after qs) id, []) ∧
      (m.graph.interfacesOf id (m.after qs)).1.Nodup ∧
      id ∉ (m.graph.interfacesOf id (m.after qs)).1 ∧
      ∀ x ∈ (m.graph.interfacesOf id (m.after qs)).1, Relation.ReflTransGen m.graph.Leads id x) := by
  refine ⟨fun found stack run hrun => ?_, fun hhost => ?_⟩
  · exact Nat.le_trans (Graph.length_le_of_turns hrun) (Graph.pending_le m.graph (found, stack))
  · replace hhost : (m.graph.get? id).bind (·.flattened) = none := Option.bind_eq_none_iff.mpr hhost
    have htidy := (keeps_interfacesOf_tidy m id _ (tidy_after m qs)).1
    obtain ⟨hnodup, hself⟩ := htidy.nodup hhost
    refine ⟨?_, hnodup, hself, htidy.leads⟩
    rw [Graph.flatten_eq, hhost]
    exact (Graph.walks_walk m.graph (m.after qs) id [] (m.graph.starts id)).turns

/-- Interfaces that go round, one of them listed twice and one that points nowhere; a list of the host that holds its
owner and an id twice; base types that go round. -/
def tangle : Graph where
  types := #[
    { name := "ILoop", kind := .interfaceType, interfaces := [⟨1⟩, ⟨1⟩, ⟨7⟩] },
    { name := "IBack", kind := .interfaceType, interfaces := [⟨0⟩, ⟨2⟩] },
    { name := "IFlat", kind := .interfaceType, flattened := some [⟨2⟩, ⟨0⟩, ⟨0⟩, ⟨3⟩] },
    { name := "Base", kind := .classType, interfaces := [⟨1⟩], baseType := some ⟨4⟩ },
    { name := "Knot", kind := .classType, interfaces := [⟨2⟩], baseType := some ⟨3⟩ }]

theorem interfacesOf_after_safe_tangle :
    let m : Model := ⟨tangle, {}⟩
    let all := (tangle.interfacesOf ⟨3⟩ (m.after [.interfaces ⟨1⟩, .marked ⟨4⟩])).1
    (∀ d, tangle.get? ⟨3⟩ = some d → d.flattened = none) ∧ all = [⟨1⟩, ⟨0⟩, ⟨7⟩, ⟨2⟩] ∧
      all.Nodup ∧ ⟨3⟩ ∉ all ∧ ∀ x ∈ all, Relation.ReflTransGen tangle.Leads ⟨3⟩ x := by
  intro m all
  have hhost : ∀ d, tangle.get? ⟨3⟩ = some d → d.flattened = none := by
    rintro d hd
    cases hd
    rfl
  have hall : (tangle.interfacesOf ⟨3⟩ (m.after [.interfaces ⟨1⟩, .marked ⟨4⟩])).1 = [⟨1⟩, ⟨0⟩, ⟨7⟩, ⟨2⟩] := by
    cbv
  obtain ⟨-, hnodup, hself, hleads⟩ :=
    (interfacesOf_after_safe m [.interfaces ⟨1⟩, .marked ⟨4⟩] ⟨3⟩).2 hhost
  exact ⟨hhost, hall, hnodup, hself, hleads⟩

end ActorAudit.Model
