import ActorAudit.Proofs.Repetition
import ActorAudit.Proofs.Surfaces

/-!
# The methods on a surface

The contracts of a class are scanned in order, and in each the methods it asks for. What implements them is
found in this order, some methods more than once; the surface has the signature of each method where it is
found first. A method is known by its place, the owner and the position among the methods of the owner, and
two methods found for one class at one place are the same.
-/

namespace ActorAudit

/-! ## First occurrences -/

theorem eraseDups_filter {α : Type} [DecidableEq α] (p : α → Bool) (l : List α) :
    (l.filter p).eraseDups = l.eraseDups.filter p := by
  cases l with
  | nil => rfl
  | cons a l =>
    have hrest := eraseDups_filter p (l.filter fun b => !b == a)
    rw [List.filter_filter] at hrest
    rw [List.eraseDups_cons, List.filter_cons, List.filter_cons]
    by_cases hp : p a = true
    · rw [if_pos hp, if_pos hp, List.eraseDups_cons, List.filter_filter, ← hrest]
      simp only [Bool.and_comm]
    · rw [if_neg hp, if_neg hp, ← hrest]
      -- what passes is not `a`
      congr 1
      refine List.filter_congr fun b _ => ?_
      by_cases hb : b = a
      · simp [hb, hp]
      · simp [hb]
termination_by l.length
decreasing_by
  have := List.length_filter_le (fun b => !b == a) l
  simp only [List.length_cons]
  omega

namespace Graph

variable {g : Graph}

/-- What implements the methods of a list of contracts, in the order of the contracts and of their
methods. -/
def discoveries (g : Graph) (cls : TypeId) (contracts : List TypeId) : List Implementation :=
  contracts.flatMap fun i =>
    ((g.get? i).elim [] (·.methods)).filterMap fun c => g.implementationOf cls i c

theorem map_snd_contractMethods (cls : TypeId) (cs : List TypeId) :
    (g.contractMethods cls cs).map Prod.snd = g.discoveries cls cs := by
  unfold contractMethods discoveries
  rw [List.map_flatMap]
  refine List.flatMap_congr fun i _ => ?_
  cases g.get? i with
  | none => rfl
  | some d =>
    simp only [Option.elim_some, List.map_filterMap]
    refine List.filterMap_congr fun c _ => ?_
    cases g.implementationOf cls i c <;> rfl

theorem mem_discoveries {cls : TypeId} {cs : List TypeId} {c : Implementation} :
    c ∈ g.discoveries cls cs ↔ ∃ i ∈ cs, ∃ d, g.get? i = some d ∧
      ∃ contract ∈ d.methods, g.implementationOf cls i contract = some c := by
  unfold discoveries
  simp only [List.mem_flatMap, List.mem_filterMap]
  constructor
  · rintro ⟨i, hi, contract, hc, himp⟩
    cases hd : g.get? i with
    | none => simp [hd] at hc
    | some d => exact ⟨i, hi, d, hd, contract, by simpa [hd] using hc, himp⟩
  · rintro ⟨i, hi, d, hd, contract, hc, himp⟩
    exact ⟨i, hi, contract, by simpa [hd] using hc, himp⟩

theorem mem_inheritedMethods_iff {cls : TypeId} {c : Implementation} : c ∈ g.inheritedMethods cls ↔
    ∃ d, (c.owner, d) ∈ g.lineage cls ∧ d.methods[c.position]? = some c.method := by
  unfold inheritedMethods
  simp only [List.mem_flatMap, List.mem_map, List.mem_zipIdx_iff_getElem?]
  constructor
  · rintro ⟨⟨owner, d⟩, hp, ⟨method, i⟩, hm, rfl⟩
    exact ⟨d, hp, hm⟩
  · rintro ⟨d, hp, hm⟩
    exact ⟨(c.owner, d), hp, (c.method, c.position), hm, rfl⟩

theorem eq_of_sameSlot {cls : TypeId} {a b : Implementation} (ha : a ∈ g.inheritedMethods cls)
    (hb : b ∈ g.inheritedMethods cls) (h : a.sameSlot b = true) : a = b := by
  have hm := method_eq_of_sameSlot ha hb h
  obtain ⟨ho, hp⟩ := Implementation.sameSlot_iff.mp h
  cases a; cases b
  simp_all

theorem pairwise_firstPerSlot (l : List (TypeId × Implementation)) :
    (firstPerSlot l).Pairwise fun e e' => ¬e.2.sameSlot e'.2 = true := by
  induction l with
  | nil => exact .nil
  | cons e l ih =>
    refine List.pairwise_cons.mpr ⟨fun e' he' => ?_, ih.filter _⟩
    simpa using (List.mem_filter.mp he').2

/-- Where places tell methods apart, keeping the first of each place is keeping first occurrences. -/
theorem map_snd_firstPerSlot {l : List (TypeId × Implementation)}
    (h : ∀ e ∈ l, ∀ e' ∈ l, e.2.sameSlot e'.2 = true → e.2 = e'.2) :
    (firstPerSlot l).map Prod.snd = (l.map Prod.snd).eraseDups := by
  induction l with
  | nil => rfl
  | cons e l ih =>
    have hl := ih fun a ha b hb => h a (List.mem_cons_of_mem _ ha) b (List.mem_cons_of_mem _ hb)
    have hmap : ∀ r : List (TypeId × Implementation),
        (r.filter fun e' => !e.2.sameSlot e'.2).map Prod.snd =
          (r.map Prod.snd).filter fun c => !e.2.sameSlot c := by
      intro r
      rw [List.filter_map]
      rfl
    rw [firstPerSlot, List.map_cons, List.map_cons, List.eraseDups_cons, eraseDups_filter, ← hl]
    congr 1
    rw [hmap]
    refine List.filter_congr fun c hc => ?_
    obtain ⟨e', he', rfl⟩ := List.mem_map.mp hc
    have hmem := mem_of_mem_firstPerSlot he'
    by_cases hs : e.2.sameSlot e'.2 = true
    · have he := h e List.mem_cons_self e' (List.mem_cons_of_mem _ hmem) hs
      rw [hs, he]
      simp
    · have hne : e'.2 ≠ e.2 := by
        intro he
        rw [he] at hs
        exact hs (Implementation.sameSlot_iff.mpr ⟨rfl, rfl⟩)
      simp [hs, hne]

/-- A method as callers see it: its result unless that is void, then its parameters, each with the name of
the method, the declared type and its place in the source. -/
def signature (g : Graph) (m : Method) : List (String × Site × TypeId × Option Location) :=
  (match m.returnType with
    | some t => if (g.get? t).any (·.kind = .voidType) then [] else [(m.name, .result, t, m.location)]
    | none => []) ++
  m.parameters.map fun p => (m.name, .parameter p.name, p.type, p.location)

end Graph

/-- What an exposure has from the signature it comes from. -/
def Exposure.written (u : Exposure) : String × Site × TypeId × Option Location :=
  (u.method, u.site, u.declared, u.location)

def Occurrence.written (o : Occurrence) : String × Site × TypeId × Option Location :=
  (o.method, o.site, o.declared, o.location)

theorem Graph.map_written_occurrences (g : Graph) (i : TypeId) (m : Method) :
    (g.occurrences i m).map Occurrence.written = g.signature m := by
  unfold occurrences signature isValueType
  rw [List.map_append, List.map_map, List.map_map]
  congr 1
  cases m.returnType with
  | none => rfl
  | some t =>
    simp only [Option.filter_some]
    cases hd : g.get? t with
    | none => rfl
    | some d =>
      by_cases hk : d.kind = .voidType
      · simp [hk]
      · simp [hk, Occurrence.written]

/-! ## What was asked on the way -/

namespace Query

variable {α β : Type}

theorem Repeats.filter_eq {p : α → Query Bool} (hp : ∀ a, Repeats (p a)) {memo' : Memo} :
    ∀ (l : List α) (memo : Memo), (Query.filter p l memo).2.Sub memo' →
      (Query.filter p l memo).1 = l.filter fun a => (p a memo').1
  | [], _, _ => rfl
  | a :: l, memo, h => by
    obtain ⟨_, hk⟩ := hp a memo
    obtain ⟨hs, _⟩ := Repeats.filter hp l (p a memo).2
    have hlater : (p a memo').1 = (p a memo).1 := by rw [hk memo' (hs.trans h)]
    have hrest := Repeats.filter_eq hp l (p a memo).2 h
    rw [List.filter_cons, hlater, ← hrest]
    rfl

theorem map_each {γ : Type} {f : α → Query β} {v : β → γ} {w : α → γ} (h : ∀ a memo, v (f a memo).1 = w a) :
    ∀ (l : List α) (memo : Memo), (each f l memo).1.map v = l.map w
  | [], _ => rfl
  | a :: l, memo => by
    rw [each_cons, List.map_cons, List.map_cons, h, map_each h l]

end Query

namespace Model

theorem written_exposureOf (m : Model) (o : Occurrence) (memo : Memo) :
    (m.exposureOf o memo).1.written = o.written := by
  have h : Query.Keeps (fun _ => True) (m.exposureOf o) fun u => u.written = o.written := by
    have hany : ∀ {α : Type} (q : Query α), Query.Keeps (fun _ => True) q fun _ => True :=
      fun _ _ _ => ⟨trivial, trivial⟩
    refine (hany _).bind fun type _ => (hany _).bind fun c _ => ?_
    cases c.element? with
    | none => exact .pure rfl
    | some e => exact (hany _).bind fun ec _ => .pure rfl
  exact (h memo trivial).1

theorem contracts_eq_filter (m : Model) (cls : TypeId) (memo : Memo) : (m.contracts cls memo).1 =
    (m.graph.interfacesOf cls memo).1.filter fun i => (m.isMarked i (m.surface cls memo).2).1 := by
  have h := Query.compositional_repeats m
  have hlater : (m.contracts cls memo).2.Sub (m.surface cls memo).2 :=
    (h.each h.exposureOf (m.surfaceOccurrences cls (m.contracts cls memo).1) (m.contracts cls memo).2).1
  exact Query.Repeats.filter_eq h.isMarked _ _ hlater

/-- The surface of a class, from any memo, is made up of the signatures of the methods that implement a method
of a contract, each taken once, where it is found first. The contracts are the interfaces of the class that
are marked. No two of the methods have one place, and each stands at its place in the class or an ancestor. -/
theorem surface_eq_signatures (m : Model) (cls : TypeId) (memo : Memo) :
    let contracts := (m.graph.interfacesOf cls memo).1.filter fun i => (m.isMarked i (m.surface cls memo).2).1
    let methods := (m.graph.discoveries cls contracts).eraseDups
    (m.contracts cls memo).1 = contracts ∧
    (m.surface cls memo).1.map Exposure.written = methods.flatMap (fun c => m.graph.signature c.method) ∧
    (∀ c, c ∈ methods ↔ ∃ i ∈ contracts, ∃ d, m.graph.get? i = some d ∧
      ∃ contract ∈ d.methods, m.graph.implementationOf cls i contract = some c) ∧
    methods.Pairwise (fun c c' => ¬(c.owner = c'.owner ∧ c.position = c'.position)) ∧
    ∀ c ∈ methods, ∃ d, (c.owner, d) ∈ m.graph.lineage cls ∧ d.methods[c.position]? = some c.method := by
  intro contracts methods
  have hcontracts : (m.contracts cls memo).1 = contracts := m.contracts_eq_filter cls memo
  have hmem : ∀ e ∈ m.graph.contractMethods cls contracts, e.2 ∈ m.graph.inheritedMethods cls :=
    fun e he => Graph.mem_inheritedMethods_of_mem_contractMethods he
  have hmethods : (Graph.firstPerSlot (m.graph.contractMethods cls contracts)).map Prod.snd = methods := by
    rw [Graph.map_snd_firstPerSlot fun e he e' he' hs => Graph.eq_of_sameSlot (hmem e he) (hmem e' he') hs,
      Graph.map_snd_contractMethods]
  refine ⟨hcontracts, ?_, fun c => ?_, ?_, fun c hc => ?_⟩
  · have hwritten := Query.map_each m.written_exposureOf (m.surfaceOccurrences cls contracts)
      (m.contracts cls memo).2
    have hsurface : (m.surface cls memo).1 =
        (Query.each m.exposureOf (m.surfaceOccurrences cls contracts) (m.contracts cls memo).2).1 := by
      rw [← hcontracts]
      rfl
    rw [hsurface, hwritten, ← hmethods, surfaceOccurrences, List.map_flatMap, List.flatMap_map]
    refine List.flatMap_congr fun e _ => ?_
    exact m.graph.map_written_occurrences e.1 e.2.method
  · rw [List.mem_eraseDups, Graph.mem_discoveries]
  · rw [← hmethods, List.pairwise_map]
    refine (Graph.pairwise_firstPerSlot _).imp fun {e e'} h => ?_
    rwa [← Graph.Implementation.sameSlot_iff]
  · rw [← hmethods] at hc
    obtain ⟨e, he, rfl⟩ := List.mem_map.mp hc
    exact Graph.mem_inheritedMethods_iff.mp (hmem e (Graph.mem_of_mem_firstPerSlot he))

end Model

end ActorAudit
