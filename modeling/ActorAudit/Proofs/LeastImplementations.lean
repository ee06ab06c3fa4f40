import ActorAudit.Proofs.Ancestry
import Mathlib.Data.Nat.Find
import Mathlib.Data.Prod.Lex

/-!
# The method that is chosen

A contract method is implemented by a method of the class or of an ancestor. Where several methods would do, one
that is tied to the contract comes before one that is tied to nothing, then the nearer owner, then the earlier
position. The lookup goes twice through a list that is in the order of owners and positions, first for methods that
are tied; so what it finds is least.
-/

namespace ActorAudit

/-- The method can stand for a method of an interface: it has its signature, in which the names of parameters do not
count, and it is tied to the interface or to nothing. -/
structure Method.Fits (m : Method) (interface : TypeId) (contract : Method) : Prop where
  name : m.name = contract.name
  returnType : m.returnType = contract.returnType
  parameters : m.parameters.map (·.type) = contract.parameters.map (·.type)
  tie : m.definingInterface = some interface ∨ m.definingInterface = none

theorem Method.fits_iff {m contract : Method} {interface : TypeId} : m.Fits interface contract ↔
    m.hasSignatureOf contract = true ∧ (m.definingInterface = some interface ∨ m.definingInterface = none) := by
  simp only [hasSignatureOf, Bool.and_eq_true, decide_eq_true_eq]
  constructor
  · intro h
    exact ⟨⟨⟨h.name, h.returnType⟩, h.parameters⟩, h.tie⟩
  · rintro ⟨⟨⟨hname, hreturn⟩, hparameters⟩, htie⟩
    exact ⟨hname, hreturn, hparameters, htie⟩

namespace Graph

variable {g : Graph} {cls interface owner : TypeId} {contract : Method} {d : TypeSymbol} {steps : Nat}
  {c : Implementation}

/-! ## Owners by nearness -/

theorem lineage_of_get? (hd : g.get? cls = some d) : g.lineage cls = (cls, d) :: g.ancestors cls := by
  simp [lineage, ancestors, hd]

theorem getElem?_ancestors_iff : (g.ancestors cls)[steps]? = some (owner, d) ↔
    (g.ancestorIds cls)[steps]? = some owner ∧ g.get? owner = some d := by
  unfold ancestorIds
  rw [List.getElem?_map, Option.map_eq_some_iff]
  constructor
  · intro h
    exact ⟨⟨_, h, rfl⟩, get?_of_mem_ancestors (List.mem_of_getElem? h)⟩
  · rintro ⟨⟨p, hp, rfl⟩, hd⟩
    rw [get?_of_mem_ancestors (List.mem_of_getElem? hp), Option.some.injEq] at hd
    rw [hp, ← hd]

/-- In the lineage of a class a type stands where the least number of steps leads to it. -/
theorem getElem?_lineage_iff : (g.lineage cls)[steps]? = some (owner, d) ↔ g.get? owner = some d ∧
    g.baseAfter cls steps = some owner ∧ ∀ j < steps, g.baseAfter cls j ≠ some owner := by
  cases he : g.get? cls with
  | none =>
    have hstop : ∀ n, g.baseAfter cls (n + 1) = none := fun n => by simp [baseAfter_succ', base?, he]
    cases steps with
    | zero => simp only [lineage, he, baseAfter]; grind
    | succ n => simp [lineage, he, hstop]
  | some e =>
    rw [lineage_of_get? he]
    cases steps with
    | zero =>
      simp only [List.getElem?_cons_zero, Option.some.injEq, Prod.mk.injEq, baseAfter]
      constructor
      · rintro ⟨rfl, rfl⟩
        simp [he]
      · rintro ⟨hd, rfl, -⟩
        exact ⟨rfl, by simpa [he] using hd⟩
    | succ n =>
      rw [List.getElem?_cons_succ, getElem?_ancestors_iff, getElem?_ancestorIds_iff, resolves]
      simp only [Nat.lt_succ_iff]
      grind

theorem exists_getElem?_lineage (hd : g.get? owner = some d) (h : g.baseAfter cls steps = some owner) :
    ∃ n ≤ steps, (g.lineage cls)[n]? = some (owner, d) := by
  have hex : ∃ n, g.baseAfter cls n = some owner := ⟨steps, h⟩
  refine ⟨Nat.find hex, Nat.find_min' hex h, getElem?_lineage_iff.mpr ⟨hd, Nat.find_spec hex, fun j hj => ?_⟩⟩
  exact Nat.find_min hex hj

/-! ## Methods by their places -/

/-- The methods of a class and its ancestors, each with the number of steps to its owner. -/
def slots (g : Graph) (cls : TypeId) : List (Nat × Implementation) :=
  (g.lineage cls).zipIdx.flatMap fun p =>
    p.1.2.methods.zipIdx.map fun q => (p.2, ⟨p.1.1, q.2, q.1⟩)

theorem map_snd_slots (g : Graph) (cls : TypeId) : (g.slots cls).map Prod.snd = g.inheritedMethods cls := by
  unfold slots inheritedMethods
  rw [List.map_flatMap]
  simp only [List.map_map]
  conv_rhs => rw [← List.zipIdx_map_fst 0 (g.lineage cls), List.flatMap_map]
  rfl

theorem mem_slots : (steps, c) ∈ g.slots cls ↔
    ∃ d, (g.lineage cls)[steps]? = some (c.owner, d) ∧ d.methods[c.position]? = some c.method := by
  unfold slots
  simp only [List.mem_flatMap, List.mem_map, Prod.exists, List.mem_zipIdx_iff_getElem?]
  constructor
  · rintro ⟨owner, d, n, hp, m, i, hm, hc⟩
    obtain ⟨rfl, rfl⟩ := Prod.mk.inj hc
    exact ⟨d, hp, hm⟩
  · rintro ⟨d, hp, hm⟩
    exact ⟨c.owner, d, steps, hp, c.method, c.position, hm, rfl⟩

theorem pairwise_zipIdx {α : Type} (l : List α) : l.zipIdx.Pairwise fun p q => p.2 < q.2 := by
  rw [← List.pairwise_map, List.zipIdx_map_snd]
  exact List.pairwise_lt_range'

theorem pairwise_slots (g : Graph) (cls : TypeId) :
    (g.slots cls).Pairwise fun s t => toLex (s.1, s.2.position) < toLex (t.1, t.2.position) := by
  unfold slots
  rw [List.pairwise_flatMap]
  constructor
  · intro p _
    rw [List.pairwise_map]
    refine (pairwise_zipIdx _).imp fun hlt => ?_
    simp [Prod.Lex.toLex_lt_toLex, hlt]
  · refine (pairwise_zipIdx _).imp fun hlt s hs t ht => ?_
    obtain ⟨q, _, rfl⟩ := List.mem_map.mp hs
    obtain ⟨r, _, rfl⟩ := List.mem_map.mp ht
    simp [Prod.Lex.toLex_lt_toLex, hlt]

/-- The first method of a class with a signature and a tie. -/
def firstTied (g : Graph) (cls : TypeId) (contract : Method) (tie : Option TypeId) : Option Implementation :=
  (g.inheritedMethods cls).find? fun c => c.method.hasSignatureOf contract && c.method.definingInterface = tie

theorem firstTied_eq_none_iff {tie : Option TypeId} : g.firstTied cls contract tie = none ↔
    ∀ n c, (n, c) ∈ g.slots cls → c.method.hasSignatureOf contract = true → c.method.definingInterface ≠ tie := by
  unfold firstTied
  rw [← map_snd_slots, List.find?_map, Option.map_eq_none_iff, List.find?_eq_none, Prod.forall]
  simp

/-- What is found has the least place of all that would have done. -/
theorem least_of_firstTied {tie : Option TypeId} (h : g.firstTied cls contract tie = some c) :
    ∃ steps, (steps, c) ∈ g.slots cls ∧ c.method.hasSignatureOf contract = true ∧ c.method.definingInterface = tie ∧
      ∀ n c', (n, c') ∈ g.slots cls → c'.method.hasSignatureOf contract = true →
        c'.method.definingInterface = tie → toLex (steps, c.position) ≤ toLex (n, c'.position) := by
  unfold firstTied at h
  rw [← map_snd_slots, List.find?_map, Option.map_eq_some_iff] at h
  obtain ⟨⟨steps, c⟩, hfound, rfl⟩ := h
  have hpass := List.find?_some hfound
  simp only [Function.comp_apply, Bool.and_eq_true, decide_eq_true_eq] at hpass
  refine ⟨steps, List.mem_of_find?_eq_some hfound, hpass.1, hpass.2, fun n c' hmem hsig htie => ?_⟩
  -- it is the first of those that pass, and they stand in the order of their places
  rw [← List.head?_filter] at hfound
  obtain ⟨rest, hrest⟩ := List.head?_eq_some_iff.mp hfound
  have hsub : ((steps, c) :: rest).Sublist (g.slots cls) := hrest ▸ List.filter_sublist
  obtain ⟨hfirst, -⟩ := List.pairwise_cons.mp ((pairwise_slots g cls).sublist hsub)
  have hmem : (n, c') ∈ (steps, c) :: rest := by
    rw [← hrest]
    exact List.mem_filter.mpr ⟨hmem, by simp [hsig, htie]⟩
  rcases List.mem_cons.mp hmem with heq | hlater
  · obtain ⟨rfl, rfl⟩ := Prod.mk.inj heq
    exact le_refl _
  · exact (hfirst _ hlater).le

/-! ## Candidates -/

/-- A method that fits, listed by a type to which a number of steps from base type to base type leads. -/
structure Candidate (g : Graph) (cls interface : TypeId) (contract : Method) (steps : Nat) (c : Implementation) :
    Prop where
  owner : g.baseAfter cls steps = some c.owner
  listed : ∃ d, g.get? c.owner = some d ∧ d.methods[c.position]? = some c.method
  fits : c.method.Fits interface contract

/-- Tied before untied, then fewer steps, then the earlier position. -/
def Implementation.rank (c : Implementation) (steps : Nat) : Bool ×ₗ ℕ ×ₗ ℕ :=
  toLex (c.method.definingInterface.isNone, toLex (steps, c.position))

theorem candidate_of_mem_slots (h : (steps, c) ∈ g.slots cls) (hfits : c.method.Fits interface contract) :
    g.Candidate cls interface contract steps c := by
  obtain ⟨d, hd, hm⟩ := mem_slots.mp h
  obtain ⟨hget, howner, -⟩ := getElem?_lineage_iff.mp hd
  exact ⟨howner, ⟨d, hget, hm⟩, hfits⟩

/-- A candidate that is met again behind a cycle of base types has a slot nearer to the class. -/
theorem Candidate.exists_slot (h : g.Candidate cls interface contract steps c) :
    ∃ n ≤ steps, (n, c) ∈ g.slots cls := by
  obtain ⟨d, hd, hm⟩ := h.listed
  obtain ⟨n, hn, hl⟩ := exists_getElem?_lineage hd h.owner
  exact ⟨n, hn, mem_slots.mpr ⟨d, hl, hm⟩⟩

theorem implementationOf_eq (g : Graph) (cls interface : TypeId) (contract : Method) :
    g.implementationOf cls interface contract =
      (g.firstTied cls contract (some interface)).or (g.firstTied cls contract none) := by
  simp [implementationOf, firstTied, List.find?_filter]

theorem implementationOf_eq_none_iff : g.implementationOf cls interface contract = none ↔
    ∀ steps c, ¬g.Candidate cls interface contract steps c := by
  rw [implementationOf_eq, Option.or_eq_none_iff, firstTied_eq_none_iff, firstTied_eq_none_iff]
  constructor
  · rintro ⟨htied, huntied⟩ steps c hc
    obtain ⟨n, _, hslot⟩ := hc.exists_slot
    obtain ⟨hsig, htie⟩ := Method.fits_iff.mp hc.fits
    rcases htie with htie | htie
    · exact htied n c hslot hsig htie
    · exact huntied n c hslot hsig htie
  · intro h
    refine ⟨fun n c hslot hsig htie => ?_, fun n c hslot hsig htie => ?_⟩
    · exact h n c (candidate_of_mem_slots hslot (Method.fits_iff.mpr ⟨hsig, .inl htie⟩))
    · exact h n c (candidate_of_mem_slots hslot (Method.fits_iff.mpr ⟨hsig, .inr htie⟩))

theorem rank_le_of_tie_eq {c' : Implementation} {n : Nat}
    (htie : c.method.definingInterface = c'.method.definingInterface)
    (h : toLex (steps, c.position) ≤ toLex (n, c'.position)) : c.rank steps ≤ c'.rank n := by
  rw [Implementation.rank, Implementation.rank, Prod.Lex.toLex_le_toLex, htie]
  exact .inr ⟨rfl, h⟩

theorem rank_le_of_steps_le {n : Nat} (h : steps ≤ n) : c.rank steps ≤ c.rank n := by
  refine rank_le_of_tie_eq rfl ?_
  rw [Prod.Lex.toLex_le_toLex]
  rcases Nat.lt_or_eq_of_le h with hlt | heq
  · exact .inl hlt
  · exact .inr ⟨heq, le_refl _⟩

/-- A tied method comes before every untied one. -/
theorem rank_lt_of_tied {c' : Implementation} {n : Nat} (h : c.method.definingInterface = some interface)
    (h' : c'.method.definingInterface = none) : c.rank steps < c'.rank n := by
  rw [Implementation.rank, Implementation.rank, Prod.Lex.toLex_lt_toLex, h, h']
  exact .inl Bool.false_lt_true

/-- What is found with a tie is a candidate of the least rank among those with the tie. -/
theorem least_candidate_of_firstTied {tie : Option TypeId} (htie : tie = some interface ∨ tie = none)
    (h : g.firstTied cls contract tie = some c) : c.method.definingInterface = tie ∧
      ∃ steps, g.Candidate cls interface contract steps c ∧
        ∀ steps' c', g.Candidate cls interface contract steps' c' → c'.method.definingInterface = tie →
          c.rank steps ≤ c'.rank steps' := by
  obtain ⟨steps, hslot, hsig, rfl, hleast⟩ := least_of_firstTied h
  refine ⟨rfl, steps, candidate_of_mem_slots hslot (Method.fits_iff.mpr ⟨hsig, htie⟩), fun steps' c' hc' htie' => ?_⟩
  obtain ⟨n, hn, hslot'⟩ := hc'.exists_slot
  have hplace := hleast n c' hslot' (Method.fits_iff.mp hc'.fits).1 htie'
  exact (rank_le_of_tie_eq htie'.symm hplace).trans (rank_le_of_steps_le hn)

/-- What the lookup gives is a candidate of the least rank. -/
theorem least_of_implementationOf (h : g.implementationOf cls interface contract = some c) :
    ∃ steps, g.Candidate cls interface contract steps c ∧
      ∀ steps' c', g.Candidate cls interface contract steps' c' → c.rank steps ≤ c'.rank steps' := by
  rw [implementationOf_eq] at h
  rcases Option.or_eq_some_iff.mp h with htied | ⟨hnone, huntied⟩
  · obtain ⟨htie, steps, hc, hleast⟩ := least_candidate_of_firstTied (.inl rfl) htied
    refine ⟨steps, hc, fun steps' c' hc' => ?_⟩
    rcases hc'.fits.tie with htie' | htie'
    · exact hleast steps' c' hc' htie'
    · exact (rank_lt_of_tied htie htie').le
  · obtain ⟨-, steps, hc, hleast⟩ := least_candidate_of_firstTied (.inr rfl) huntied
    refine ⟨steps, hc, fun steps' c' hc' => ?_⟩
    rcases hc'.fits.tie with htie' | htie'
    · obtain ⟨n, -, hslot'⟩ := hc'.exists_slot
      exact absurd htie' (firstTied_eq_none_iff.mp hnone n c' hslot' (Method.fits_iff.mp hc'.fits).1)
    · exact hleast steps' c' hc' htie'

/-- A rank tells candidates apart. -/
theorem Candidate.eq_of_rank_eq {c' : Implementation} {steps' : Nat}
    (h : g.Candidate cls interface contract steps c) (h' : g.Candidate cls interface contract steps' c')
    (hrank : c.rank steps = c'.rank steps') : c = c' := by
  obtain ⟨-, hplace⟩ := Prod.mk.inj (toLex_inj.mp hrank)
  obtain ⟨rfl, hposition⟩ := Prod.mk.inj (toLex_inj.mp hplace)
  have howner : c.owner = c'.owner := by
    have := h.owner
    rwa [h'.owner, Option.some.injEq, eq_comm] at this
  obtain ⟨d, hd, hm⟩ := h.listed
  obtain ⟨d', hd', hm'⟩ := h'.listed
  rw [howner, hd', Option.some.injEq] at hd
  rw [← hd, hposition, hm', Option.some.injEq] at hm
  cases c; cases c'
  simp_all

/-- The owners of candidates are the class and its ancestors. -/
theorem exists_candidate_iff : (∃ steps c, g.Candidate cls interface contract steps c) ↔
    ∃ owner d, (owner = cls ∨ owner ∈ g.ancestorIds cls) ∧ g.get? owner = some d ∧
      ∃ m ∈ d.methods, m.Fits interface contract := by
  constructor
  · rintro ⟨steps, c, hc⟩
    obtain ⟨d, hd, hm⟩ := hc.listed
    have howner := mem_ancestorIds_of_baseAfter hc.owner (by simp [resolves, hd])
    exact ⟨c.owner, d, howner, hd, c.method, List.mem_of_getElem? hm, hc.fits⟩
  · rintro ⟨owner, d, howner, hd, m, hm, hfits⟩
    obtain ⟨position, hposition⟩ := List.mem_iff_getElem?.mp hm
    obtain ⟨steps, hsteps⟩ : ∃ steps, g.baseAfter cls steps = some owner := by
      rcases howner with rfl | hancestor
      · exact ⟨0, rfl⟩
      · obtain ⟨-, -, k, hk⟩ := mem_ancestorIds_iff.mp hancestor
        exact ⟨k + 1, hk⟩
    exact ⟨steps, ⟨owner, position, m⟩, hsteps, ⟨d, hd, hposition⟩, hfits⟩

/-- There is no implementation exactly if no method of the class or of an ancestor fits. Otherwise it is the candidate
of the least rank: one that is tied wins over one that is not, however near that is; then fewer steps to the owner
decide, then the earlier position. A method that is tied to another interface is never chosen. -/
theorem implementationOf_least (g : Graph) (cls interface : TypeId) (contract : Method) :
    (g.implementationOf cls interface contract = none ↔ ∀ owner d, owner = cls ∨ owner ∈ g.ancestorIds cls →
      g.get? owner = some d → ∀ m ∈ d.methods, ¬m.Fits interface contract) ∧
    (∀ c, g.implementationOf cls interface contract = some c ↔
      ∃ steps, g.Candidate cls interface contract steps c ∧
        ∀ steps' c', g.Candidate cls interface contract steps' c' → c.rank steps ≤ c'.rank steps') ∧
    ∀ c, g.implementationOf cls interface contract = some c →
      (∀ steps' c', g.Candidate cls interface contract steps' c' →
        c'.method.definingInterface = some interface → c.method.definingInterface = some interface) ∧
      ∀ other, c.method.definingInterface = some other → other = interface := by
  refine ⟨?_, fun c => ⟨least_of_implementationOf, ?_⟩, fun c h => ?_⟩
  · rw [implementationOf_eq_none_iff]
    constructor
    · intro h owner d howner hd m hm hfits
      obtain ⟨steps, c, hc⟩ := exists_candidate_iff.mpr ⟨owner, d, howner, hd, m, hm, hfits⟩
      exact h steps c hc
    · intro h steps c hc
      obtain ⟨owner, d, howner, hd, m, hm, hfits⟩ := exists_candidate_iff.mp ⟨steps, c, hc⟩
      exact h owner d howner hd m hm hfits
  · rintro ⟨steps, hc, hleast⟩
    cases himp : g.implementationOf cls interface contract with
    | none => exact absurd hc (implementationOf_eq_none_iff.mp himp steps c)
    | some c' =>
      -- two candidates of the least rank are one
      obtain ⟨steps', hc', hleast'⟩ := least_of_implementationOf himp
      have hrank := le_antisymm (hleast steps' c' hc') (hleast' steps c hc)
      rw [hc.eq_of_rank_eq hc' hrank]
  · obtain ⟨steps, hc, hleast⟩ := least_of_implementationOf h
    refine ⟨fun steps' c' hc' htie => ?_, fun other hother => ?_⟩
    · rcases hc.fits.tie with htied | huntied
      · exact htied
      · exact absurd (hleast steps' c' hc') (not_le_of_gt (rank_lt_of_tied htie huntied))
    · rcases hc.fits.tie with htied | huntied
      · rw [htied, Option.some.injEq] at hother
        exact hother.symm
      · rw [huntied] at hother
        cases hother

/-- Base types that go round, a method for two contracts on both sides, and one tied to the first of them behind. -/
def carousel : Graph where
  types := #[
    { name := "IRideActor", kind := .interfaceType },
    { name := "IStopActor", kind := .interfaceType },
    { name := "Front", kind := .classType, baseType := some ⟨3⟩,
      methods := [{ name := "Turn", definingInterface := some ⟨9⟩ }, { name := "Turn" }] },
    { name := "Back", kind := .classType, baseType := some ⟨2⟩,
      methods := [{ name := "Turn" }, { name := "Turn", definingInterface := some ⟨0⟩ }] }]

example : carousel.implementationOf ⟨2⟩ ⟨0⟩ { name := "Turn" } =
    some ⟨⟨3⟩, 1, { name := "Turn", definingInterface := some ⟨0⟩ }⟩ := by decide +kernel

example : carousel.implementationOf ⟨2⟩ ⟨1⟩ { name := "Turn" } = some ⟨⟨2⟩, 1, { name := "Turn" }⟩ := by decide +kernel

end Graph

end ActorAudit
