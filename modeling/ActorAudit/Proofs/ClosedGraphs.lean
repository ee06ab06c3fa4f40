import ActorAudit.Proofs.Ancestry
import ActorAudit.Proofs.DanglingIds
import ActorAudit.Proofs.Surfaces

/-!
# Graphs without dangling ids

Every walk of an audit goes from a type to ids that the type holds, and a memo holds what earlier walks have come
to. So where nothing dangles, nothing that is asked for dangles. The field that `danglingMentions` leaves out does
no harm: the interface a method is tied to is compared with others and never looked up.
-/

namespace ActorAudit

theorem Query.Keeps.filter_forall {α : Type} {I : Memo → Prop} {p : α → Query Bool} {P : α → Prop}
    (hp : ∀ a, Keeps I (p a) fun _ => True) : ∀ {l : List α}, (∀ a ∈ l, P a) →
      Keeps I (Query.filter p l) fun r => ∀ a ∈ r, P a
  | [], _ => .pure (by simp)
  | a :: l, h => by
    refine (hp a).bind fun keep _ => (Keeps.filter_forall hp (List.forall_mem_cons.mp h).2).bind fun r hr => .pure ?_
    cases keep with
    | true => exact List.forall_mem_cons.mpr ⟨(List.forall_mem_cons.mp h).1, hr⟩
    | false => exact hr

namespace Graph

variable {g : Graph} {id t : TypeId}

/-- The ids in the fields of the types, `definingInterface` apart, are types. -/
def Closed (g : Graph) : Prop :=
  ∀ id d, g.get? id = some d → ∀ t f, f ≠ .definingInterface → d.Holds t f → g.resolves t = true

theorem closed_of_danglingMentions (h : g.danglingMentions = []) : g.Closed := by
  intro id d hd t f hf ht
  by_contra hdangling
  have hmem : (id, t) ∈ g.danglingMentions := by
    refine mem_danglingMentions.mpr ⟨by simpa [resolves] using hdangling, .inl ⟨id.toNat, d, ?_⟩⟩
    exact ⟨by simpa [get?] using hd, TypeId.ofNat_toNat id, f, hf, ht⟩
  simp [h] at hmem

theorem resolves_of_declared (h : g.danglingMentions = []) (hid : id ∈ g.declarations) : g.resolves id = true := by
  by_contra hdangling
  have hmem : (id, id) ∈ g.danglingMentions :=
    mem_danglingMentions.mpr ⟨by simpa [resolves] using hdangling, .inr ⟨rfl, hid⟩⟩
  simp [h] at hmem

theorem mem_contracts_of_mem_contractMethods {cls : TypeId} {cs : List TypeId} {e : TypeId × Implementation}
    (h : e ∈ g.contractMethods cls cs) : e.1 ∈ cs := by
  obtain ⟨i, hi, h⟩ := List.mem_flatMap.mp h
  split at h
  · cases h
  · obtain ⟨c, _, hc⟩ := List.mem_filterMap.mp h
    obtain ⟨_, _, rfl⟩ := Option.map_eq_some_iff.mp hc
    exact hi

/-! ## Walks -/

section
variable (hg : g.Closed)
include hg

theorem Closed.listedAt : ∀ x ∈ g.listedAt id, g.resolves x = true := by
  intro x hx
  obtain ⟨d, hd, hx⟩ := mem_listedAt.mp hx
  exact hg id d hd x .interfaces (by decide) hx

theorem Closed.starts : ∀ x ∈ g.starts id, g.resolves x = true := by
  intro x hx
  obtain ⟨a, ha⟩ := extends_of_mem_starts hx
  exact hg.listedAt x (mem_listedAt.mpr ha)

theorem Closed.inheritedMethods {cls : TypeId} {c : Implementation} (hc : c ∈ g.inheritedMethods cls) :
    (∀ t, c.method.returnType = some t → g.resolves t = true) ∧
      ∀ p ∈ c.method.parameters, g.resolves p.type = true := by
  obtain ⟨⟨owner, d⟩, hp, hc⟩ := List.mem_flatMap.mp hc
  obtain ⟨⟨m, i⟩, hm, rfl⟩ := List.mem_map.mp hc
  have hd := get?_of_mem_lineage hp
  have hmem : m ∈ d.methods := List.mem_of_getElem? (List.mem_zipIdx_iff_getElem?.mp hm)
  exact ⟨fun t ht => hg owner d hd t .returnType (by decide) ⟨m, hmem, ht⟩,
    fun p hp => hg owner d hd p.type .parameterType (by decide) ⟨m, hmem, p, hp, rfl⟩⟩

variable {memo : Memo} (hm : ∀ {id all}, memo.interfaces? id = some all → ∀ x ∈ all, g.resolves x = true)
include hm

theorem Closed.known? {known : List TypeId} (hk : g.known? memo id = some known) :
    ∀ x ∈ known, g.resolves x = true := by
  rcases Option.or_eq_some_iff.mp hk with hi | ⟨_, hh⟩
  · exact hm hi
  · obtain ⟨d, hd, hh⟩ := Option.bind_eq_some_iff.mp hh
    exact fun x hx => hg id d hd x .flattened (by decide) ⟨known, hh, hx⟩

theorem Closed.walks {self : TypeId} {found stack all : List TypeId} (h : Walks g memo self found stack all)
    (hf : ∀ x ∈ found, g.resolves x = true) (hs : ∀ x ∈ stack, g.resolves x = true) :
    ∀ x ∈ all, g.resolves x = true := by
  induction h with
  | done => exact hf
  | skip _ _ ih => exact ih hf (List.forall_mem_cons.mp hs).2
  | @splice found next rest known all _ hk _ ih =>
    obtain ⟨hnext, hrest⟩ := List.forall_mem_cons.mp hs
    have hadd : ∀ x ∈ found ++ [next], g.resolves x = true :=
      List.forall_mem_append.mpr ⟨hf, List.forall_mem_singleton.mpr hnext⟩
    refine ih (fun x hx => ?_) hrest
    rcases mem_splice.mp hx with hx | ⟨hx, _⟩
    · exact hadd x hx
    · exact hg.known? hm hk x hx
  | expand _ _ _ ih =>
    obtain ⟨hnext, hrest⟩ := List.forall_mem_cons.mp hs
    exact ih (List.forall_mem_append.mpr ⟨hf, List.forall_mem_singleton.mpr hnext⟩)
      (List.forall_mem_append.mpr ⟨hg.listedAt, hrest⟩)

theorem Closed.flatten (id : TypeId) : ∀ x ∈ g.flatten memo id, g.resolves x = true := by
  rw [flatten_eq]
  cases hh : (g.get? id).bind (·.flattened) with
  | some all =>
    obtain ⟨d, hd, hh⟩ := Option.bind_eq_some_iff.mp hh
    exact fun x hx => hg id d hd x .flattened (by decide) ⟨all, hh, hx⟩
  | none => exact hg.walks hm (walks_walk g memo id [] (g.starts id)) (by simp) hg.starts

end

end Graph

/-! ## Queries -/

def Exposure.Resolves (g : Graph) (u : Exposure) : Prop :=
  g.resolves u.interface = true ∧ g.resolves u.declared = true ∧ g.resolves u.type = true ∧
    ∀ e ∈ u.element, g.resolves e.1 = true

namespace Model

variable {m : Model}

/-- What the memo holds are types. -/
def Resolving (m : Model) : Memo → Prop :=
  Memo.Holds (fun _ all => ∀ x ∈ all, m.graph.resolves x = true)
    fun _ c => ∀ t, c.inner? = some t → m.graph.resolves t = true

theorem inner?_ofElement (e : Option TypeId) : (ofElement e).inner? = e := by cases e <;> rfl

theorem inner?_plainClassification (d : TypeSymbol) : d.plainClassification.inner? = none := by
  unfold TypeSymbol.plainClassification
  split <;> rfl

/-- What a type wraps or collects, it holds. -/
theorem holds_of_inner? {id t : TypeId} {all : List TypeId} (h : (m.classWith id all).inner? = some t) :
    ∃ d, m.graph.get? id = some d ∧ (d.Holds t .typeArguments ∨ d.Holds t .elementType) := by
  unfold classWith at h
  cases hd : m.graph.get? id with
  | none => simp [hd, Classification.inner?] at h
  | some d =>
    refine ⟨d, rfl, ?_⟩
    simp only [hd] at h
    split_ifs at h
    · simp [Classification.inner?] at h
    · simp [Classification.inner?] at h
    · split at h
      · simp [Classification.inner?] at h
      · rename_i inner hargs
        obtain rfl : inner = t := by simpa [Classification.inner?] using h
        exact .inl (by simp [TypeSymbol.Holds, hargs])
      · simp [Classification.inner?] at h
    · exact .inr (by rwa [inner?_ofElement] at h)
    · rw [inner?_ofElement] at h
      exact .inl (List.mem_of_mem_head? h)
    · simp [inner?_plainClassification] at h

section
variable (hg : m.graph.Closed)
include hg

theorem keeps_interfacesOf_resolving (id : TypeId) :
    Query.Keeps m.Resolving (m.graph.interfacesOf id) fun all => ∀ x ∈ all, m.graph.resolves x = true :=
  keeps_interfacesOf (fun _ id hI _ => hg.flatten hI.interfaces id) id

theorem keeps_classify_resolving (id : TypeId) :
    Query.Keeps m.Resolving (m.classify id) fun c => ∀ t, c.inner? = some t → m.graph.resolves t = true := by
  refine keeps_classify (keeps_interfacesOf_resolving hg) (fun id all _ t ht => ?_) id
  obtain ⟨d, hd, hargs | helement⟩ := holds_of_inner? ht
  · exact hg id d hd t .typeArguments (by decide) hargs
  · exact hg id d hd t .elementType (by decide) helement

theorem compositional_resolving : Query.Compositional m fun q => Query.Keeps m.Resolving q fun _ => True :=
  Query.compositional_keeps (fun id => (keeps_interfacesOf_resolving hg id).mono fun _ _ => trivial)
    fun id => (keeps_classify_resolving hg id).mono fun _ _ => trivial

theorem resolving_after (qs : List Question) : m.Resolving (m.after qs) := by
  have h := compositional_resolving hg
  exact after_induction Memo.holds_empty h.interfacesOf h.classify qs

theorem keeps_awaitedWithin_resolving (steps : Nat) {id : TypeId} (hid : m.graph.resolves id = true) :
    Query.Keeps m.Resolving (m.awaitedWithin steps id) fun t => m.graph.resolves t = true := by
  induction steps generalizing id with
  | zero => exact .pure hid
  | succ steps ih =>
    refine (keeps_classify_resolving hg id).bind fun c hc => ?_
    cases c with
    | asyncWrapper inner => exact ih (hc inner rfl)
    | _ => exact .pure hid

theorem keeps_exposureOf_resolving {o : Occurrence} (hi : m.graph.resolves o.interface = true)
    (hd : m.graph.resolves o.declared = true) :
    Query.Keeps m.Resolving (m.exposureOf o) (Exposure.Resolves m.graph) := by
  refine (keeps_awaitedWithin_resolving hg _ hd).bind fun type htype => ?_
  refine (keeps_classify_resolving hg type).bind fun c hc => ?_
  cases c with
  | collection e =>
    refine (keeps_classify_resolving hg e).bind fun ec _ => .pure ⟨hi, hd, htype, fun p hp => ?_⟩
    cases hp
    exact hc e rfl
  | _ => exact .pure ⟨hi, hd, htype, by simp⟩

theorem resolves_surfaceOccurrences {cls : TypeId} {cs : List TypeId}
    (hcs : ∀ i ∈ cs, m.graph.resolves i = true) : ∀ o ∈ m.surfaceOccurrences cls cs,
      m.graph.resolves o.interface = true ∧ m.graph.resolves o.declared = true := by
  intro o ho
  obtain ⟨⟨i, c⟩, he, ho⟩ := List.mem_flatMap.mp ho
  replace he := Graph.mem_of_mem_firstPerSlot he
  obtain ⟨hret, hparams⟩ := hg.inheritedMethods (Graph.mem_inheritedMethods_of_mem_contractMethods he)
  have hi := hcs i (Graph.mem_contracts_of_mem_contractMethods he)
  rcases List.mem_append.mp ho with ho | ho
  · obtain ⟨t, ht, rfl⟩ := List.mem_map.mp ho
    obtain ⟨ht, _⟩ := Option.filter_eq_some_iff.mp (Option.mem_toList.mp ht)
    exact ⟨hi, hret t ht⟩
  · obtain ⟨p, hp, rfl⟩ := List.mem_map.mp ho
    exact ⟨hi, hparams p hp⟩

theorem keeps_surface_resolving (cls : TypeId) :
    Query.Keeps m.Resolving (m.surface cls) fun s => ∀ u ∈ s, u.Resolves m.graph := by
  have h := compositional_resolving hg
  have hcontracts : Query.Keeps m.Resolving (m.contracts cls) fun cs => ∀ i ∈ cs, m.graph.resolves i = true :=
    (keeps_interfacesOf_resolving hg cls).bind fun _ hall => .filter_forall h.isMarked hall
  refine hcontracts.bind fun cs hcs => .each_forall fun o ho => ?_
  obtain ⟨hi, hd⟩ := resolves_surfaceOccurrences hg hcs o ho
  exact keeps_exposureOf_resolving hg hi hd

end

/-- In a graph without dangling mentions nothing dangles, whatever was asked before: the declarations are types, and
so are the interfaces and the ancestors of a type, what is left of it without wrappers, and the ids in the
exposures of a class. -/
theorem resolves_after (h : m.graph.danglingMentions = []) (qs : List Question) :
    (∀ id ∈ m.graph.declarations, m.graph.resolves id = true) ∧
    (∀ id, m.graph.resolves id = true →
      (∀ x ∈ (m.graph.interfacesOf id (m.after qs)).1, m.graph.resolves x = true) ∧
      (∀ x ∈ m.graph.ancestorIds id, m.graph.resolves x = true) ∧
      m.graph.resolves (m.awaited id (m.after qs)).1 = true) ∧
    ∀ cls, ∀ u ∈ (m.surface cls (m.after qs)).1, m.graph.resolves u.interface = true ∧
      m.graph.resolves u.declared = true ∧ m.graph.resolves u.type = true ∧
      ∀ e ∈ u.element, m.graph.resolves e.1 = true := by
  have hg := Graph.closed_of_danglingMentions h
  have hI := resolving_after hg qs
  refine ⟨fun id => Graph.resolves_of_declared h, fun id hid => ⟨?_, ?_, ?_⟩, fun cls => ?_⟩
  · exact (keeps_interfacesOf_resolving hg id _ hI).1
  · exact fun x => Graph.resolves_of_mem_ancestorIds
  · exact (keeps_awaitedWithin_resolving hg _ hid _ hI).1
  · exact (keeps_surface_resolving hg cls _ hI).1

/-- An actor with a result in a wrapper and a collection, and a method tied to an interface that is not there. -/
def ward : Graph where
  types := #[
    { name := "IActor", inNamespace := some "Dapr.Actors", kind := .interfaceType },
    { name := "Actor", inNamespace := some "Dapr.Actors.Runtime", kind := .classType },
    { name := "IWardActor", kind := .interfaceType, interfaces := [⟨0⟩],
      methods := [{ name := "Admit", parameters := [⟨"patient", ⟨4⟩, none⟩], returnType := some ⟨5⟩ }] },
    { name := "WardActor", kind := .classType, baseType := some ⟨1⟩, interfaces := [⟨2⟩],
      methods := [
        { name := "Admit", parameters := [⟨"guest", ⟨4⟩, none⟩], returnType := some ⟨5⟩,
          definingInterface := some ⟨99⟩ },
        { name := "Admit", parameters := [⟨"guest", ⟨4⟩, none⟩], returnType := some ⟨5⟩ }] },
    { name := "Patient", kind := .classType },
    { name := "Task", inNamespace := some "System.Threading.Tasks", kind := .classType, typeArguments := [⟨6⟩] },
    { name := "List", kind := .classType, typeArguments := [⟨4⟩] }]
  declarations := [⟨3⟩]

theorem resolves_after_ward :
    let m : Model := ⟨ward, {}⟩
    let asked := m.after [.interfaces ⟨2⟩, .awaited ⟨5⟩]
    ward.danglingMentions = [] ∧ ward.resolves ⟨5⟩ = true ∧ ward.resolves (m.awaited ⟨5⟩ asked).1 = true ∧
    ∀ u ∈ (m.surface ⟨3⟩ asked).1, ward.resolves u.interface = true ∧ ward.resolves u.declared = true ∧
      ward.resolves u.type = true ∧ ∀ e ∈ u.element, ward.resolves e.1 = true := by
  intro m asked
  have hnone : ward.danglingMentions = [] := by decide
  have hfifth : ward.resolves ⟨5⟩ = true := by decide
  obtain ⟨_, htypes, hsurface⟩ := resolves_after (m := m) hnone [.interfaces ⟨2⟩, .awaited ⟨5⟩]
  exact ⟨hnone, hfifth, (htypes ⟨5⟩ hfifth).2.2, hsurface ⟨3⟩⟩

end Model

end ActorAudit
