import ActorAudit.Proofs.Reachability
import ActorAudit.Role
import ActorAudit.Surface
import Mathlib.Data.List.Forall2

/-!
# Graphs that mirror each other

A relation between the ids of two graphs under which related ids lead to types of the same shape: the same
names and kinds, related ids in the same places. What a type says beside its shape, its attributes,
constructors and members, is left open, and so is everything that no related id leads to. Walks, climbs and
look-ups that start at related ids stay at related ids.
-/

namespace ActorAudit

open List (Forall₂)

/-! ## Related options and lists -/

section
variable {α β : Type} {P : α → β → Prop}

theorem rel_cases {a : Option α} {a' : Option β} (h : Option.Rel P a a') :
    a = none ∧ a' = none ∨ ∃ x x', a = some x ∧ a' = some x' ∧ P x x' := by
  cases h with
  | none => exact .inl ⟨rfl, rfl⟩
  | some h => exact .inr ⟨_, _, rfl, rfl, h⟩

theorem rel_mono {Q : α → β → Prop} (hPQ : ∀ {x y}, P x y → Q x y) {a : Option α} {b : Option β}
    (h : Option.Rel P a b) : Option.Rel Q a b := by
  cases h with
  | none => exact .none
  | some h => exact .some (hPQ h)

theorem rel_and {Q : α → β → Prop} {a : Option α} {b : Option β} (h : Option.Rel P a b)
    (h' : Option.Rel Q a b) : Option.Rel (fun x y => P x y ∧ Q x y) a b := by
  cases h with
  | none => exact .none
  | some h => cases h' with | some h' => exact .some ⟨h, h'⟩

theorem rel_refl {P : α → α → Prop} (hP : ∀ a, P a a) (a : Option α) : Option.Rel P a a := by
  cases a with
  | none => exact .none
  | some a => exact .some (hP a)

theorem rel_flip {a : Option α} {b : Option β} (h : Option.Rel P a b) : Option.Rel (flip P) b a := by
  cases h with
  | none => exact .none
  | some h => exact .some h

theorem rel_getElem? {l : List α} {l' : List β} (h : Forall₂ P l l') (i : Nat) :
    Option.Rel P l[i]? l'[i]? := by
  induction h generalizing i with
  | nil => exact .none
  | cons hab _ ih =>
    cases i with
    | zero => exact .some hab
    | succ i => simpa using ih i

theorem rel_or {a b : Option α} {a' b' : Option β} (ha : Option.Rel P a a') (hb : Option.Rel P b b') :
    Option.Rel P (a.or b) (a'.or b') := by
  cases ha with
  | none => exact hb
  | some h => exact .some h

theorem rel_toList {a : Option α} {a' : Option β} (h : Option.Rel P a a') : Forall₂ P a.toList a'.toList := by
  cases h with
  | none => exact .nil
  | some h => exact .cons h .nil

theorem rel_find? {p : α → Bool} {q : β → Bool} (hpq : ∀ {a b}, P a b → p a = q b) {l : List α} {l' : List β}
    (h : Forall₂ P l l') : Option.Rel P (l.find? p) (l'.find? q) := by
  induction h with
  | nil => exact .none
  | @cons a b l l' hab _ ih =>
    rw [List.find?_cons, List.find?_cons, ← hpq hab]
    cases p a with
    | true => exact .some hab
    | false => exact ih

theorem rel_any {p : α → Bool} {q : β → Bool} (hpq : ∀ {a b}, P a b → p a = q b) {l : List α} {l' : List β}
    (h : Forall₂ P l l') : l.any p = l'.any q := by
  induction h with
  | nil => rfl
  | cons hab _ ih => rw [List.any_cons, List.any_cons, hpq hab, ih]

theorem rel_filter {p : α → Bool} {q : β → Bool} (hpq : ∀ {a b}, P a b → p a = q b) {l : List α} {l' : List β}
    (h : Forall₂ P l l') : Forall₂ P (l.filter p) (l'.filter q) :=
  List.rel_filter (fun _ _ hab => Bool.eq_iff_iff.mp (hpq hab)) h

theorem rel_zipIdx {l : List α} {l' : List β} (h : Forall₂ P l l') (n : Nat) :
    Forall₂ (fun x y => P x.1 y.1 ∧ x.2 = y.2) (l.zipIdx n) (l'.zipIdx n) := by
  induction h generalizing n with
  | nil => exact .nil
  | cons hab _ ih => exact .cons ⟨hab, rfl⟩ (ih (n + 1))

theorem biUnique_rel (h : Relator.BiUnique P) : Relator.BiUnique (Option.Rel P) := by
  constructor
  · intro a b c hac hbc
    cases hac with
    | none => cases hbc; rfl
    | some hac => cases hbc with | some hbc => rw [h.1 hac hbc]
  · intro a b c hab hac
    cases hab with
    | none => cases hac; rfl
    | some hab => cases hac with | some hac => rw [h.2 hab hac]

end

/-! ## The shape of a type -/

section
variable (R : TypeId → TypeId → Prop)

structure Parameter.Mirrors (p p' : Parameter) : Prop where
  name : p.name = p'.name
  type : R p.type p'.type
  location : p.location = p'.location

structure Method.Mirrors (m m' : Method) : Prop where
  name : m.name = m'.name
  parameters : Forall₂ (Parameter.Mirrors R) m.parameters m'.parameters
  returnType : Option.Rel R m.returnType m'.returnType
  definingInterface : Option.Rel R m.definingInterface m'.definingInterface
  location : m.location = m'.location

/-- The types agree in everything but attributes, constructors and members, with related ids. -/
structure TypeSymbol.Mirrors (d d' : TypeSymbol) : Prop where
  name : d.name = d'.name
  inNamespace : d.inNamespace = d'.inNamespace
  kind : d.kind = d'.kind
  baseType : Option.Rel R d.baseType d'.baseType
  interfaces : Forall₂ R d.interfaces d'.interfaces
  flattened : Option.Rel (Forall₂ R) d.flattened d'.flattened
  methods : Forall₂ (Method.Mirrors R) d.methods d'.methods
  typeArguments : Forall₂ R d.typeArguments d'.typeArguments
  elementType : Option.Rel R d.elementType d'.elementType
  location : d.location = d'.location
  isGenerated : d.isGenerated = d'.isGenerated

structure Graph.Mirrors (g g' : Graph) : Prop where
  biUnique : Relator.BiUnique R
  get? : ∀ {id id'}, R id id' → Option.Rel (TypeSymbol.Mirrors R) (g.get? id) (g'.get? id')
  declarations : Forall₂ R g.declarations g'.declarations

end

variable {R : TypeId → TypeId → Prop}

theorem Method.Mirrors.flip {m m' : Method} (h : m.Mirrors R m') : m'.Mirrors (flip R) m where
  name := h.name.symm
  parameters := .flip (h.parameters.imp fun _ _ hp => ⟨hp.name.symm, hp.type, hp.location.symm⟩)
  returnType := rel_flip h.returnType
  definingInterface := rel_flip h.definingInterface
  location := h.location.symm

theorem TypeSymbol.Mirrors.flip {d d' : TypeSymbol} (h : d.Mirrors R d') : d'.Mirrors (flip R) d where
  name := h.name.symm
  inNamespace := h.inNamespace.symm
  kind := h.kind.symm
  baseType := rel_flip h.baseType
  interfaces := .flip h.interfaces
  flattened := rel_flip (rel_mono (fun hl => .flip hl) h.flattened)
  methods := .flip (h.methods.imp fun _ _ hm => hm.flip)
  typeArguments := .flip h.typeArguments
  elementType := rel_flip h.elementType
  location := h.location.symm
  isGenerated := h.isGenerated.symm

theorem Graph.Mirrors.flip {g g' : Graph} (h : g.Mirrors R g') : g'.Mirrors (flip R) g where
  biUnique := ⟨fun _ _ _ ha hb => h.biUnique.2 ha hb, fun _ _ _ ha hb => h.biUnique.1 ha hb⟩
  get? hid := rel_flip (rel_mono (fun hd => hd.flip) (h.get? hid))
  declarations := .flip h.declarations

theorem Method.Mirrors.hasSignatureOf {a a' b b' : Method} (hR : Relator.BiUnique R) (ha : a.Mirrors R a')
    (hb : b.Mirrors R b') : a.hasSignatureOf b = a'.hasSignatureOf b' := by
  have hret : a.returnType = b.returnType ↔ a'.returnType = b'.returnType :=
    Relator.rel_eq (biUnique_rel hR) ha.returnType hb.returnType
  have htypes : ∀ {m m' : Method}, m.Mirrors R m' →
      Forall₂ R (m.parameters.map (·.type)) (m'.parameters.map (·.type)) :=
    fun h => List.rel_map (fun _ _ hp => hp.type) h.parameters
  have hparams : a.parameters.map (·.type) = b.parameters.map (·.type) ↔
      a'.parameters.map (·.type) = b'.parameters.map (·.type) :=
    Relator.rel_eq hR.forall₂ (htypes ha) (htypes hb)
  unfold Method.hasSignatureOf
  simp only [ha.name, hb.name, hret, hparams]

namespace TypeSymbol.Mirrors

variable {d d' : TypeSymbol} (h : d.Mirrors R d')
include h

theorem is (t : QualifiedName) : d.is t = d'.is t := by
  unfold TypeSymbol.is
  rw [h.name, h.inNamespace]

theorem isScalar : d.isScalar = d'.isScalar := by
  unfold TypeSymbol.isScalar
  rw [h.name, h.inNamespace]

theorem hasCollectionName : d.hasCollectionName = d'.hasCollectionName := by
  unfold TypeSymbol.hasCollectionName
  rw [h.name]

theorem mayBeCollection : d.mayBeCollection = d'.mayBeCollection := by
  unfold TypeSymbol.mayBeCollection
  rw [h.kind]

theorem plainClassification : d.plainClassification = d'.plainClassification := by
  unfold TypeSymbol.plainClassification
  rw [h.kind]

end TypeSymbol.Mirrors

namespace Graph

/-- A type and its id, and their mirror. -/
def EntryMirrors (R : TypeId → TypeId → Prop) (p p' : TypeId × TypeSymbol) : Prop :=
  R p.1 p'.1 ∧ p.2.Mirrors R p'.2

structure Implementation.Mirrors (R : TypeId → TypeId → Prop) (c c' : Implementation) : Prop where
  owner : R c.owner c'.owner
  position : c.position = c'.position
  method : c.method.Mirrors R c'.method

end Graph

structure Occurrence.Mirrors (R : TypeId → TypeId → Prop) (o o' : Occurrence) : Prop where
  method : o.method = o'.method
  site : o.site = o'.site
  declared : R o.declared o'.declared
  location : o.location = o'.location

namespace Graph.Mirrors

variable {g g' : Graph} (h : g.Mirrors R g')
include h

theorem eq_iff {a b a' b' : TypeId} (ha : R a a') (hb : R b b') : a = b ↔ a' = b' :=
  Relator.rel_eq h.biUnique ha hb

theorem mem_iff {a a' : TypeId} {l l' : List TypeId} (ha : R a a') (hl : Forall₂ R l l') :
    a ∈ l ↔ a' ∈ l' :=
  List.rel_mem h.biUnique ha hl

/-- A check that sees the shape of a type only has the same outcome at related ids. -/
theorem any_get? {p : TypeSymbol → Bool} (hp : ∀ {d d'}, d.Mirrors R d' → p d = p d') {id id' : TypeId}
    (hid : R id id') : (g.get? id).any p = (g'.get? id').any p := by
  obtain ⟨hd, hd'⟩ | ⟨d, d', hd, hd', hdd⟩ := rel_cases (h.get? hid)
  · rw [hd, hd']
  · simp [hd, hd', hp hdd]

/-! ## Climbing -/

theorem climb {seen seen' : List TypeId} {next next' : Option TypeId} (hs : Forall₂ R seen seen')
    (hn : Option.Rel R next next') :
    Forall₂ (EntryMirrors R) (g.climb seen next) (g'.climb seen' next') := by
  fun_induction Graph.climb g seen next generalizing seen' next' with
  | case1 seen =>
    cases hn
    rw [Graph.climb]
    exact .nil
  | case2 seen id hid =>
    cases hn with | some hn =>
    rw [Graph.climb, dif_pos ((h.mem_iff hn hs).mp hid)]
    exact .nil
  | case3 seen id hid hd =>
    cases hn with | some hn =>
    have hget := h.get? hn
    rw [Graph.climb, dif_neg (fun hm => hid ((h.mem_iff hn hs).mpr hm))]
    split
    · exact .nil
    · rename_i hd'
      rw [hd, hd'] at hget
      cases hget
  | case4 seen id hid d hd ih =>
    cases hn with | some hn =>
    have hget := h.get? hn
    rw [Graph.climb, dif_neg (fun hm => hid ((h.mem_iff hn hs).mpr hm))]
    split
    · rename_i hd'
      rw [hd, hd'] at hget
      cases hget
    · rename_i hd'
      rw [hd, hd'] at hget
      cases hget with | some hdd =>
      exact .cons ⟨hn, hdd⟩ (ih (.cons hn hs) hdd.baseType)

theorem lineage {id id' : TypeId} (hid : R id id') :
    Forall₂ (EntryMirrors R) (g.lineage id) (g'.lineage id') := by
  unfold Graph.lineage
  obtain ⟨hd, hd'⟩ | ⟨d, d', hd, hd', hdd⟩ := rel_cases (h.get? hid)
  · simp [hd, hd']
  · simp only [hd, hd']
    exact .cons ⟨hid, hdd⟩ (h.climb (.cons hid .nil) hdd.baseType)

theorem ancestors {id id' : TypeId} (hid : R id id') :
    Forall₂ (EntryMirrors R) (g.ancestors id) (g'.ancestors id') := by
  unfold Graph.ancestors
  obtain ⟨hd, hd'⟩ | ⟨d, d', hd, hd', hdd⟩ := rel_cases (h.get? hid)
  · simp [hd, hd']
  · simp only [hd, hd']
    exact h.climb (.cons hid .nil) hdd.baseType

theorem starts {id id' : TypeId} (hid : R id id') : Forall₂ R (g.starts id) (g'.starts id') :=
  List.rel_flatMap (h.lineage hid) fun _ _ hp => hp.2.interfaces

theorem listedAt {id id' : TypeId} (hid : R id id') : Forall₂ R (g.listedAt id) (g'.listedAt id') := by
  unfold Graph.listedAt
  obtain ⟨hd, hd'⟩ | ⟨d, d', hd, hd', hdd⟩ := rel_cases (h.get? hid)
  · simp [hd, hd']
  · simpa only [hd, hd'] using hdd.interfaces

/-! ## Walking -/

theorem splice {self self' : TypeId} {found found' ids ids' : List TypeId} (hself : R self self')
    (hf : Forall₂ R found found') (hids : Forall₂ R ids ids') :
    Forall₂ R (Graph.splice self found ids) (Graph.splice self' found' ids') := by
  induction hids generalizing found found' with
  | nil => exact hf
  | @cons a a' ids ids' ha _ ih =>
    have hcond : (a = self ∨ a ∈ found) ↔ (a' = self' ∨ a' ∈ found') :=
      or_congr (h.eq_iff ha hself) (h.mem_iff ha hf)
    unfold Graph.splice
    by_cases hc : a = self ∨ a ∈ found
    · rw [if_pos hc, if_pos (hcond.mp hc)]
      exact ih hf
    · rw [if_neg hc, if_neg (fun hc' => hc (hcond.mpr hc'))]
      exact ih (List.rel_append hf (.cons ha .nil))

theorem walks {memo memo' : Memo} {self self' : TypeId} {found stack all found' stack' : List TypeId}
    (hk : ∀ {id id'}, R id id' → Option.Rel (Forall₂ R) (g.known? memo id) (g'.known? memo' id'))
    (hself : R self self') (hw : Walks g memo self found stack all) (hf : Forall₂ R found found')
    (hs : Forall₂ R stack stack') : ∃ all', Walks g' memo' self' found' stack' all' ∧ Forall₂ R all all' := by
  have hcond : ∀ {a a' : TypeId} {l l' : List TypeId}, R a a' → Forall₂ R l l' →
      ((a = self ∨ a ∈ l) ↔ (a' = self' ∨ a' ∈ l')) :=
    fun ha hl => or_congr (h.eq_iff ha hself) (h.mem_iff ha hl)
  induction hw generalizing found' stack' with
  | done =>
    cases hs
    exact ⟨_, .done, hf⟩
  | skip hn _ ih =>
    cases hs with | cons ha hs =>
    obtain ⟨all', hw', hall⟩ := ih hf hs
    exact ⟨all', .skip ((hcond ha hf).mp hn) hw', hall⟩
  | @splice found next rest known _ hn hknown _ ih =>
    cases hs with | cons ha hs =>
    obtain ⟨hnone, _⟩ | ⟨l, l', hl, hk', hlist⟩ := rel_cases (hk ha)
    · rw [hknown] at hnone
      cases hnone
    · rw [hknown] at hl
      cases hl
      obtain ⟨all', hw', hall⟩ := ih (h.splice hself (List.rel_append hf (.cons ha .nil)) hlist) hs
      exact ⟨all', .splice (fun hn' => hn ((hcond ha hf).mpr hn')) hk' hw', hall⟩
  | @expand found next rest _ hn hknown _ ih =>
    cases hs with | cons ha hs =>
    obtain ⟨_, hk'⟩ | ⟨l, l', hl, _⟩ := rel_cases (hk ha)
    · obtain ⟨all', hw', hall⟩ := ih (List.rel_append hf (.cons ha .nil)) (List.rel_append (h.listedAt ha) hs)
      exact ⟨all', .expand (fun hn' => hn ((hcond ha hf).mpr hn')) hk' hw', hall⟩
    · rw [hknown] at hl
      cases hl

theorem flattened {id id' : TypeId} (hid : R id id') : Option.Rel (Forall₂ R)
    ((g.get? id).bind (·.flattened)) ((g'.get? id').bind (·.flattened)) := by
  obtain ⟨hd, hd'⟩ | ⟨d, d', hd, hd', hdd⟩ := rel_cases (h.get? hid)
  · rw [hd, hd']
    exact .none
  · rw [hd, hd']
    exact hdd.flattened

theorem flatten {memo memo' : Memo}
    (hm : ∀ {id id'}, R id id' → Option.Rel (Forall₂ R) (memo.interfaces? id) (memo'.interfaces? id'))
    {id id' : TypeId} (hid : R id id') : Forall₂ R (g.flatten memo id) (g'.flatten memo' id') := by
  have hknown : ∀ {x x'}, R x x' → Option.Rel (Forall₂ R) (g.known? memo x) (g'.known? memo' x') :=
    fun hx => rel_or (hm hx) (h.flattened hx)
  obtain ⟨all', hw', hall⟩ :=
    h.walks hknown hid (walks_walk g memo id [] (g.starts id)) .nil (h.starts hid)
  rw [hw'.eq (walks_walk g' memo' id' [] (g'.starts id'))] at hall
  rw [flatten_eq, flatten_eq]
  obtain ⟨hd, hd'⟩ | ⟨l, l', hd, hd', hl⟩ := rel_cases (h.flattened hid)
  · rw [hd, hd']
    exact hall
  · rw [hd, hd']
    exact hl

/-! ## Implementations -/

theorem inheritedMethods {cls cls' : TypeId} (hcls : R cls cls') :
    Forall₂ (Implementation.Mirrors R) (g.inheritedMethods cls) (g'.inheritedMethods cls') := by
  refine List.rel_flatMap (h.lineage hcls) fun p p' hp => ?_
  refine List.rel_map ?_ (rel_zipIdx hp.2.methods 0)
  rintro ⟨m, i⟩ ⟨m', i'⟩ ⟨hm, hi⟩
  exact ⟨hp.1, hi, hm⟩

theorem implementationOf {cls cls' i i' : TypeId} {m m' : Method} (hcls : R cls cls') (hi : R i i')
    (hm : m.Mirrors R m') : Option.Rel (Implementation.Mirrors R) (g.implementationOf cls i m)
      (g'.implementationOf cls' i' m') := by
  have hcandidates := rel_filter (p := fun c => c.method.hasSignatureOf m)
    (q := fun c => c.method.hasSignatureOf m') (fun hc => hc.method.hasSignatureOf h.biUnique hm)
    (h.inheritedMethods hcls)
  have htied : ∀ {o o' : Option TypeId}, Option.Rel R o o' → Option.Rel (Implementation.Mirrors R)
      (((g.inheritedMethods cls).filter fun c => c.method.hasSignatureOf m).find?
        fun c => c.method.definingInterface = o)
      (((g'.inheritedMethods cls').filter fun c => c.method.hasSignatureOf m').find?
        fun c => c.method.definingInterface = o') := by
    intro o o' ho
    refine rel_find? (fun {c c'} hc => ?_) hcandidates
    exact decide_eq_decide.mpr (Relator.rel_eq (biUnique_rel h.biUnique) hc.method.definingInterface ho)
  exact rel_or (htied (.some hi)) (htied .none)

/-- A contract and what implements a method of it. -/
theorem contractMethods {cls cls' : TypeId} {cs cs' : List TypeId} (hcls : R cls cls') (hcs : Forall₂ R cs cs') :
    Forall₂ (fun e e' => R e.1 e'.1 ∧ e.2.Mirrors R e'.2) (g.contractMethods cls cs)
      (g'.contractMethods cls' cs') := by
  refine List.rel_flatMap hcs fun i i' hi => ?_
  obtain ⟨hd, hd'⟩ | ⟨d, d', hd, hd', hdd⟩ := rel_cases (h.get? hi)
  · simp [hd, hd']
  · simp only [hd, hd']
    refine List.rel_filterMap (fun c c' hc => ?_) hdd.methods
    obtain ⟨hn, hn'⟩ | ⟨x, x', hx, hx', hxx⟩ := rel_cases (h.implementationOf hcls hi hc)
    · rw [hn, hn']
      exact .none
    · rw [hx, hx']
      exact .some ⟨hi, hxx⟩

theorem sameSlot {a b a' b' : Implementation} (ha : a.Mirrors R a') (hb : b.Mirrors R b') :
    a.sameSlot b = a'.sameSlot b' := by
  unfold Implementation.sameSlot
  simp only [h.eq_iff ha.owner hb.owner, ha.position, hb.position]

theorem firstPerSlot {l l' : List (TypeId × Implementation)}
    (hl : Forall₂ (fun e e' => R e.1 e'.1 ∧ e.2.Mirrors R e'.2) l l') :
    Forall₂ (fun e e' => R e.1 e'.1 ∧ e.2.Mirrors R e'.2) (Graph.firstPerSlot l) (Graph.firstPerSlot l') := by
  induction hl with
  | nil => exact .nil
  | @cons e e' l l' he _ ih =>
    refine .cons he (rel_filter ?_ ih)
    intro x x' hx
    simp only [h.sameSlot he.2 hx.2]

theorem isValueType {t t' : TypeId} (ht : R t t') : g.isValueType t = g'.isValueType t' := by
  unfold Graph.isValueType
  obtain ⟨hd, hd'⟩ | ⟨d, d', hd, hd', hdd⟩ := rel_cases (h.get? ht)
  · rw [hd, hd']
  · simp only [hd, hd', hdd.kind]

theorem occurrences (i i' : TypeId) {m m' : Method} (hm : m.Mirrors R m') :
    Forall₂ (Occurrence.Mirrors R) (g.occurrences i m) (g'.occurrences i' m') := by
  refine List.rel_append (List.rel_map (fun t t' ht => ⟨hm.name, rfl, ht, hm.location⟩) (rel_toList ?_))
    (List.rel_map (fun p p' hp => ⟨hm.name, by rw [hp.name], hp.type, hp.location⟩) hm.parameters)
  obtain ⟨hr, hr'⟩ | ⟨t, t', hr, hr', ht⟩ := rel_cases hm.returnType
  · rw [hr, hr']
    exact .none
  · rw [hr, hr', Option.filter_some, Option.filter_some, h.isValueType ht]
    split
    · exact .some ht
    · exact .none

end Graph.Mirrors

end ActorAudit
