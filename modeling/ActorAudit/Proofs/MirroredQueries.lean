import ActorAudit.Proofs.MirroredGraphs
import ActorAudit.Proofs.Wrappers

/-!
# Queries on mirrored graphs

Two runs on graphs that mirror each other, from memos that agree, give answers that mirror each other and
leave memos that agree. The runs are aligned step by step, except where wrappers wrap each other in a cycle:
there each run stops after as many steps as its own graph has types. In both the type that is left is a
wrapper, and wrappers are the one kind of entry that memos need not agree on.
-/

namespace ActorAudit

open List (Forall₂)

namespace Query

variable {α α' β β' : Type} {J : Memo → Memo → Prop}

/-- Asked from memos related by `J`, the queries give answers related by `P` and leave memos related by
`J`. -/
def Related (J : Memo → Memo → Prop) (q : Query α) (q' : Query α') (P : α → α' → Prop) : Prop :=
  ∀ memo memo', J memo memo' → P (q memo).1 (q' memo').1 ∧ J (q memo).2 (q' memo').2

theorem Related.mono {q : Query α} {q' : Query α'} {P Q : α → α' → Prop} (h : Related J q q' P)
    (hPQ : ∀ a a', P a a' → Q a a') : Related J q q' Q := by
  intro memo memo' hJ
  obtain ⟨hP, hJ'⟩ := h memo memo' hJ
  exact ⟨hPQ _ _ hP, hJ'⟩

theorem Related.pure {P : α → α' → Prop} {a : α} {a' : α'} (h : P a a') :
    Related J (Pure.pure a) (Pure.pure a') P :=
  fun _ _ hJ => ⟨h, hJ⟩

theorem Related.bind {q : Query α} {q' : Query α'} {f : α → Query β} {f' : α' → Query β'}
    {P : α → α' → Prop} {Q : β → β' → Prop} (h : Related J q q' P)
    (hf : ∀ a a', P a a' → Related J (f a) (f' a') Q) : Related J (q >>= f) (q' >>= f') Q := by
  intro memo memo' hJ
  obtain ⟨hP, hJ'⟩ := h memo memo' hJ
  exact hf _ _ hP _ _ hJ'

theorem Related.each {f : α → Query β} {f' : α' → Query β'} {P : α → α' → Prop} {Q : β → β' → Prop}
    (hf : ∀ a a', P a a' → Related J (f a) (f' a') Q) {l : List α} {l' : List α'} (h : Forall₂ P l l') :
    Related J (Query.each f l) (Query.each f' l') (Forall₂ Q) := by
  induction h with
  | nil => exact .pure .nil
  | cons ha _ ih => exact (hf _ _ ha).bind fun b b' hb => ih.bind fun bs bs' hbs => .pure (.cons hb hbs)

theorem Related.filter {p : α → Query Bool} {p' : α' → Query Bool} {P : α → α' → Prop}
    (hp : ∀ a a', P a a' → Related J (p a) (p' a') Eq) {l : List α} {l' : List α'} (h : Forall₂ P l l') :
    Related J (Query.filter p l) (Query.filter p' l') (Forall₂ P) := by
  induction h with
  | nil => exact .pure .nil
  | cons ha _ ih =>
    refine (hp _ _ ha).bind fun b b' hb => ih.bind fun rest rest' hrest => .pure ?_
    subst hb
    cases b with
    | true => exact .cons ha hrest
    | false => exact hrest

theorem Related.any {p : α → Query Bool} {p' : α' → Query Bool} {P : α → α' → Prop}
    (hp : ∀ a a', P a a' → Related J (p a) (p' a') Eq) {l : List α} {l' : List α'} (h : Forall₂ P l l') :
    Related J (Query.any p l) (Query.any p' l') Eq := by
  induction h with
  | nil => exact .pure rfl
  | cons ha _ ih =>
    refine (hp _ _ ha).bind fun b b' hb => ?_
    subst hb
    cases b with
    | true => exact .pure rfl
    | false => exact ih

end Query

/-! ## Classifications -/

inductive Classification.Mirrors (R : TypeId → TypeId → Prop) : Classification → Classification → Prop
  | primitive : Mirrors R .primitive .primitive
  | enumeration : Mirrors R .enumeration .enumeration
  | collection {e e'} : R e e' → Mirrors R (.collection e) (.collection e')
  | asyncWrapper {i i'} : R i i' → Mirrors R (.asyncWrapper i) (.asyncWrapper i')
  | record : Mirrors R .record .record
  | complexObject : Mirrors R .complexObject .complexObject
  | interface : Mirrors R .interface .interface
  | unknown : Mirrors R .unknown .unknown

theorem Classification.Mirrors.flip {R : TypeId → TypeId → Prop} {c c' : Classification} (h : c.Mirrors R c') :
    c'.Mirrors (flip R) c := by
  cases h <;> constructor <;> assumption

structure Model.Mirrors (R : TypeId → TypeId → Prop) (m m' : Model) : Prop where
  graph : m.graph.Mirrors R m'.graph
  framework : m.framework = m'.framework

namespace Model

/-- Whether classifying a type takes its interfaces. -/
def asksInterfaces (m : Model) (id : TypeId) : Bool :=
  (m.graph.get? id).any fun d =>
    d.mayBeCollection && !d.isScalar && !d.is m.framework.asyncWrapper && !d.hasCollectionName

theorem computeClass_eq (m : Model) (id : TypeId) : m.computeClass id =
    if m.asksInterfaces id then m.graph.interfacesOf id >>= fun all => pure (m.classWith id all)
    else pure (m.classWith id []) := by
  unfold computeClass asksInterfaces classWith
  cases m.graph.get? id with
  | none => rfl
  | some d =>
    simp only [Option.any_some]
    by_cases henum : d.kind = .enumType
    · simp [henum, TypeSymbol.mayBeCollection]
    by_cases hvoid : d.kind = .voidType
    · simp [hvoid, TypeSymbol.mayBeCollection]
    cases hscalar : d.isScalar with
    | true => simp [henum]
    | false =>
      cases hwrap : d.is m.framework.asyncWrapper with
      | true =>
        simp only [henum, hvoid]
        cases d.typeArguments with
        | nil => simp
        | cons _ rest => cases rest <;> simp
      | false =>
        by_cases harray : d.kind = .arrayType
        · simp [harray, TypeSymbol.mayBeCollection]
        cases hmay : d.mayBeCollection with
        | false => simp [henum, hvoid, harray, isCollection, isCollectionWith, hmay]
        | true =>
          cases hname : d.hasCollectionName with
          | true => simp [henum, hvoid, harray, isCollection, isCollectionWith, hmay, hname]
          | false => simp [henum, hvoid, harray, isCollection, isCollectionWith, hmay, hname, apply_ite]

end Model

variable {R : TypeId → TypeId → Prop}

theorem Model.ofElement_mirrors {e e' : Option TypeId} (he : Option.Rel R e e') :
    (Model.ofElement e).Mirrors R (Model.ofElement e') := by
  cases he with
  | none => exact .unknown
  | some he => exact .collection he

theorem TypeSymbol.plainClassification_mirrors (d : TypeSymbol) :
    d.plainClassification.Mirrors R d.plainClassification := by
  unfold TypeSymbol.plainClassification
  split
  · exact .record
  · exact .complexObject
  · exact .complexObject
  · exact .interface
  · exact .unknown

namespace Model.Mirrors

variable {m m' : Model} (h : m.Mirrors R m')
include h

theorem flip : m'.Mirrors (flip R) m := ⟨h.graph.flip, h.framework.symm⟩

theorem classWith {id id' : TypeId} {all all' : List TypeId} (hid : R id id') (hall : Forall₂ R all all') :
    (m.classWith id all).Mirrors R (m'.classWith id' all') := by
  have hname : all.any (fun i => (m.graph.get? i).any TypeSymbol.hasCollectionName) =
      all'.any fun i => (m'.graph.get? i).any TypeSymbol.hasCollectionName :=
    rel_any (fun hi => h.graph.any_get? (fun hd => hd.hasCollectionName) hi) hall
  unfold Model.classWith Model.isCollectionWith
  obtain ⟨hd, hd'⟩ | ⟨d, d', hd, hd', hdd⟩ := rel_cases (h.graph.get? hid)
  · simp only [hd, hd']
    exact .unknown
  · simp only [hd, hd', ← hdd.kind, ← hdd.isScalar, ← hdd.is, ← h.framework, ← hdd.mayBeCollection,
      ← hdd.hasCollectionName, ← hname, ← hdd.plainClassification]
    have hargs := hdd.typeArguments
    generalize d.typeArguments = args, d'.typeArguments = args' at hargs ⊢
    split_ifs
    · exact .enumeration
    · exact .primitive
    · cases hargs with
      | nil => exact .primitive
      | cons ha hrest =>
        cases hrest with
        | nil => exact .asyncWrapper ha
        | cons _ _ => exact .unknown
    · exact ofElement_mirrors hdd.elementType
    · cases hargs with
      | nil => exact .unknown
      | cons ha _ => exact .collection ha
    · exact d.plainClassification_mirrors

theorem asksInterfaces {id id' : TypeId} (hid : R id id') : m.asksInterfaces id = m'.asksInterfaces id' := by
  unfold Model.asksInterfaces
  rw [h.framework]
  refine h.graph.any_get? (fun hd => ?_) hid
  rw [hd.mayBeCollection, hd.isScalar, hd.is, hd.hasCollectionName]

theorem wrapped? {id id' : TypeId} (hid : R id id') : Option.Rel R (m.wrapped? id) (m'.wrapped? id') := by
  unfold Model.wrapped?
  have hc := h.classWith hid .nil
  generalize m.classWith id [] = c, m'.classWith id' [] = c' at hc ⊢
  cases hc with
  | asyncWrapper hi => exact .some hi
  | _ => exact .none

end Model.Mirrors

/-! ## Memos -/

/-- The memos hold the same about related ids, except that either may lack the classification of a
wrapper. -/
structure Model.Agree (R : TypeId → TypeId → Prop) (m m' : Model) (memo memo' : Memo) : Prop where
  interfaces : ∀ {id id'}, R id id' → Option.Rel (Forall₂ R) (memo.interfaces? id) (memo'.interfaces? id')
  classes : ∀ {id id'}, R id id' → m.wrapped? id = none →
    Option.Rel (Classification.Mirrors R) (memo.class? id) (memo'.class? id')
  left : m.Sound memo
  right : m'.Sound memo'

namespace Model.Agree

variable {m m' : Model} {memo memo' : Memo} {id id' : TypeId}

theorem empty : Model.Agree R m m' .empty .empty :=
  ⟨fun _ => .none, fun _ _ => .none, sound_empty, sound_empty⟩

variable (h : m.Mirrors R m') (hJ : Model.Agree R m m' memo memo')
include h hJ

theorem flip : Model.Agree (flip R) m' m memo' memo where
  interfaces hid := rel_flip (rel_mono (fun hl => .flip hl) (hJ.interfaces hid))
  classes := by
    intro x' x hx hn
    have hw : m.wrapped? x = none := by
      obtain ⟨hw, _⟩ | ⟨_, _, _, hw', _⟩ := rel_cases (h.wrapped? hx)
      · exact hw
      · rw [hn] at hw'
        cases hw'
    exact rel_flip (rel_mono (fun hc => hc.flip) (hJ.classes hx hw))
  left := hJ.right
  right := hJ.left

theorem recordInterfaces {all all' : List TypeId} (hid : R id id') (hall : Forall₂ R all all') :
    Model.Agree R m m' (memo.recordInterfaces id all) (memo'.recordInterfaces id' all') where
  interfaces := by
    intro x x' hx
    rw [Memo.interfaces?_recordInterfaces, Memo.interfaces?_recordInterfaces]
    simp only [h.graph.eq_iff hx hid]
    split
    · exact .some hall
    · exact hJ.interfaces hx
  classes := hJ.classes
  left := hJ.left.recordInterfaces trivial
  right := hJ.right.recordInterfaces trivial

theorem recordClass {c c' : Classification} (hid : R id id') (hc : c.Mirrors R c')
    (hl : ∃ all, c = m.classWith id all) (hr : ∃ all, c' = m'.classWith id' all) :
    Model.Agree R m m' (memo.recordClass id c) (memo'.recordClass id' c') where
  interfaces := hJ.interfaces
  classes := by
    intro x x' hx hw
    rw [Memo.class?_recordClass, Memo.class?_recordClass]
    simp only [h.graph.eq_iff hx hid]
    split
    · exact .some hc
    · exact hJ.classes hx hw
  left := hJ.left.recordClass hl
  right := hJ.right.recordClass hr

end Model.Agree

namespace Model

variable {m m' : Model}

theorem classify_memo_of_wrapped? {id inner : TypeId} (hw : m.wrapped? id = some inner) (memo : Memo) :
    (m.classify id memo).2 = memo ∨ (m.classify id memo).2 = memo.recordClass id (.asyncWrapper inner) := by
  cases hc : memo.class? id with
  | some c =>
    rw [classify_of_known hc]
    exact .inl rfl
  | none =>
    rw [classify_of_unknown hc, computeClass_of_wrapped? hw]
    exact .inr rfl

end Model

/-! ## The queries -/

/-- The type and the classification mirror each other, or both are wrappers. -/
def Sighting (R : TypeId → TypeId → Prop) (p p' : TypeId × Classification) : Prop :=
  R p.1 p'.1 ∧ p.2.Mirrors R p'.2 ∨ (∃ i, p.2 = .asyncWrapper i) ∧ ∃ i, p'.2 = .asyncWrapper i

/-- The classifications of an exposure are ones that its types have with some list of interfaces. -/
structure Exposure.Sound (m : Model) (u : Exposure) : Prop where
  type : ∃ all, u.classification = m.classWith u.type all
  element : ∀ {e c}, u.element = some (e, c) → u.classification = .collection e ∧ ∃ all, c = m.classWith e all

structure Exposure.Mirrors (R : TypeId → TypeId → Prop) (m : Model) (u u' : Exposure) : Prop where
  method : u.method = u'.method
  site : u.site = u'.site
  location : u.location = u'.location
  reached : Forall₂ (Sighting R) u.reached u'.reached
  sound : u.Sound m

namespace Model.Mirrors

variable {m m' : Model} (h : m.Mirrors R m') {id id' : TypeId}
include h

theorem interfacesOf (hid : R id id') :
    Query.Related (Agree R m m') (m.graph.interfacesOf id) (m'.graph.interfacesOf id') (Forall₂ R) := by
  intro memo memo' hJ
  obtain ⟨hi, hi'⟩ | ⟨all, all', hi, hi', hall⟩ := rel_cases (hJ.interfaces hid)
  · have hall := h.graph.flatten hJ.interfaces hid
    rw [Graph.interfacesOf_of_unknown hi, Graph.interfacesOf_of_unknown hi']
    exact ⟨hall, hJ.recordInterfaces h hid hall⟩
  · rw [Graph.interfacesOf_of_known hi, Graph.interfacesOf_of_known hi']
    exact ⟨hall, hJ⟩

theorem isMarker (hid : R id id') : m.isMarker id = m'.isMarker id' := by
  unfold Model.isMarker
  rw [h.framework]
  exact h.graph.any_get? (fun hd => hd.is _) hid

theorem isMarked (hid : R id id') : Query.Related (Agree R m m') (m.isMarked id) (m'.isMarked id') Eq :=
  (h.interfacesOf hid).bind fun _ _ hall => .pure (rel_any (p := m.isMarker) (q := m'.isMarker) h.isMarker hall)

theorem computeClass (hid : R id id') : Query.Related (Agree R m m') (m.computeClass id) (m'.computeClass id')
    fun c c' => c.Mirrors R c' ∧ (∃ all, c = m.classWith id all) ∧ ∃ all, c' = m'.classWith id' all := by
  rw [computeClass_eq, computeClass_eq, ← h.asksInterfaces hid]
  split
  · exact (h.interfacesOf hid).bind fun all all' hall =>
      .pure ⟨h.classWith hid hall, ⟨all, rfl⟩, ⟨all', rfl⟩⟩
  · exact .pure ⟨h.classWith hid .nil, ⟨[], rfl⟩, ⟨[], rfl⟩⟩

omit h in
theorem keeps_classify_left {inner : TypeId} (hw : m.wrapped? id = some inner) (memo' : Memo) :
    Query.Keeps (Agree R m m' · memo') (m.classify id) fun _ => True := by
  intro memo hJ
  refine ⟨trivial, ?_⟩
  rcases classify_memo_of_wrapped? hw memo with hmemo | hmemo <;> rw [hmemo]
  · exact hJ
  · refine ⟨hJ.interfaces, fun {x x'} hx hn => ?_, hJ.left.recordClass ⟨[], ?_⟩, hJ.right⟩
    · have hne : x ≠ id := by
        rintro rfl
        rw [hw] at hn
        cases hn
      rw [Memo.class?_recordClass, if_neg hne]
      exact hJ.classes hx hn
    · exact ((wrapped?_eq_some_iff []).mp hw).symm

theorem keeps_classify_right {inner : TypeId} (hw : m'.wrapped? id' = some inner) (memo : Memo) :
    Query.Keeps (Agree R m m' memo) (m'.classify id') fun _ => True := by
  intro memo' hJ
  obtain ⟨_, hJ'⟩ := keeps_classify_left hw memo memo' (hJ.flip h)
  exact ⟨trivial, hJ'.flip h.flip⟩

/-- The memos may differ on wrappers, but the answers do not. -/
theorem classify_wrappers {inner inner' : TypeId} (hw : m.wrapped? id = some inner)
    (hw' : m'.wrapped? id' = some inner') : Query.Related (Agree R m m') (m.classify id) (m'.classify id')
      fun c c' => c = .asyncWrapper inner ∧ c' = .asyncWrapper inner' := by
  intro memo memo' hJ
  refine ⟨⟨classify_of_wrapped? hJ.left hw, classify_of_wrapped? hJ.right hw'⟩, ?_⟩
  exact (h.keeps_classify_right hw' _ _ (keeps_classify_left hw _ _ hJ).2).2

theorem classify (hid : R id id') : Query.Related (Agree R m m') (m.classify id) (m'.classify id')
    fun c c' => c.Mirrors R c' ∧ ∃ all, c = m.classWith id all := by
  intro memo memo' hJ
  have hsound := (keeps_classify_sound m id memo hJ.left).1
  obtain ⟨hw, hw'⟩ | ⟨inner, inner', hw, hw', hinner⟩ := rel_cases (h.wrapped? hid)
  · obtain ⟨hc, hc'⟩ | ⟨c, c', hc, hc', hcc⟩ := rel_cases (hJ.classes hid hw)
    · obtain ⟨⟨hcc, hl, hr⟩, hJ'⟩ := h.computeClass hid memo memo' hJ
      rw [classify_of_unknown hc, classify_of_unknown hc']
      exact ⟨⟨hcc, hl⟩, hJ'.recordClass h hid hcc hl hr⟩
    · rw [classify_of_known hc] at hsound ⊢
      rw [classify_of_known hc']
      exact ⟨⟨hcc, hsound⟩, hJ⟩
  · obtain ⟨⟨hc, hc'⟩, hJ'⟩ := h.classify_wrappers hw hw' memo memo' hJ
    rw [hc] at hsound ⊢
    rw [hc']
    exact ⟨⟨.asyncWrapper hinner, hsound⟩, hJ'⟩

/-! ### Unwrapping -/

theorem endsIn {k : Nat} {e : TypeId} (he : EndsIn m.wrapped? k id e) (hid : R id id') :
    ∃ e', R e e' ∧ EndsIn m'.wrapped? k id' e' := by
  induction he generalizing id' with
  | here hn =>
    have hrel := h.wrapped? hid
    rw [hn] at hrel
    obtain ⟨_, hn'⟩ | ⟨x, x', hx, _⟩ := rel_cases hrel
    · exact ⟨id', hid, .here hn'⟩
    · cases hx
  | step hs _ ih =>
    have hrel := h.wrapped? hid
    rw [hs] at hrel
    obtain ⟨hx, _⟩ | ⟨x, x', hx, hs', hxx⟩ := rel_cases hrel
    · cases hx
    · cases hx
      obtain ⟨e', hee, he'⟩ := ih hxx
      exact ⟨e', hee, .step hs' he'⟩

theorem awaitedWithin_of_endsIn {k : Nat} {e : TypeId} (he : EndsIn m.wrapped? k id e) (hid : R id id')
    {steps steps' : Nat} (hk : k < steps) (hk' : k < steps') :
    Query.Related (Agree R m m') (m.awaitedWithin steps id) (m'.awaitedWithin steps' id')
      fun t t' => R t t' ∧ m.wrapped? t = none := by
  induction he generalizing id' steps steps' with
  | @here e hn =>
    obtain ⟨steps, rfl⟩ := Nat.exists_eq_add_one_of_ne_zero (Nat.ne_of_gt hk)
    obtain ⟨steps', rfl⟩ := Nat.exists_eq_add_one_of_ne_zero (Nat.ne_of_gt hk')
    refine (h.classify hid).bind fun c c' hcc => ?_
    obtain ⟨hcc, all, hall⟩ := hcc
    cases hcc with
    | asyncWrapper hi =>
      have hw := (wrapped?_eq_some_iff all).mpr hall.symm
      rw [hn] at hw
      cases hw
    | _ => exact .pure ⟨hid, hn⟩
  | @step k x y e hs _ ih =>
    obtain ⟨steps, rfl⟩ := Nat.exists_eq_add_one_of_ne_zero (by omega : steps ≠ 0)
    obtain ⟨steps', rfl⟩ := Nat.exists_eq_add_one_of_ne_zero (by omega : steps' ≠ 0)
    refine (h.classify hid).bind fun c c' hcc => ?_
    obtain ⟨hcc, all, hall⟩ := hcc
    rw [wrapped?_eq_some_iff all, ← hall] at hs
    subst hs
    cases hcc with | asyncWrapper hi =>
    exact ih hi (by omega) (by omega)

/-- The types that are left when the wrappers are stripped mirror each other, or both are wrappers. -/
theorem awaited (hid : R id id') : Query.Related (Agree R m m') (m.awaited id) (m'.awaited id')
    fun t t' => R t t' ∧ m.wrapped? t = none ∨
      (m.wrapped? t).isSome = true ∧ (m'.wrapped? t').isSome = true := by
  by_cases hend : ∃ k e, EndsIn m.wrapped? k id e
  · obtain ⟨k, e, he⟩ := hend
    obtain ⟨e', _, he'⟩ := h.endsIn he hid
    have hk := he.le_size (g := m.graph) resolves_of_wrapped?
    have hk' := he'.le_size (g := m'.graph) resolves_of_wrapped?
    exact (h.awaitedWithin_of_endsIn he hid (by omega) (by omega)).mono fun t t' ht => .inl ht
  · have hend' : ∀ k e, ¬EndsIn m'.wrapped? k id' e := by
      intro k e' he'
      obtain ⟨e, _, he⟩ := h.flip.endsIn he' hid
      exact hend ⟨k, e, he⟩
    have hleft := fun memo' => keeps_awaitedWithin_of_endless (I := (Agree R m m' · memo')) Agree.left
      (fun hw => keeps_classify_left hw memo') (m.graph.size + 1) fun k e he => hend ⟨k, e, he⟩
    have hright := fun memo => keeps_awaitedWithin_of_endless (I := Agree R m m' memo) Agree.right
      (fun hw => h.keeps_classify_right hw memo) (m'.graph.size + 1) hend'
    intro memo memo' hJ
    obtain ⟨ht, hJ⟩ := hleft memo' memo hJ
    obtain ⟨ht', hJ⟩ := hright _ memo' hJ
    exact ⟨.inr ⟨ht, ht'⟩, hJ⟩

/-! ### Surfaces -/

theorem exposureOf {o o' : Occurrence} (ho : o.Mirrors R o') :
    Query.Related (Agree R m m') (m.exposureOf o) (m'.exposureOf o') (Exposure.Mirrors R m) := by
  refine (h.awaited ho.declared).bind fun t t' ht => ?_
  rcases ht with ⟨ht, _⟩ | ⟨hw, hw'⟩
  · refine (h.classify ht).bind fun c c' hc => ?_
    obtain ⟨hcc, hall⟩ := hc
    have hplain : Exposure.Mirrors R m ⟨o.interface, o.method, o.site, o.declared, t, c, none, o.location⟩
        ⟨o'.interface, o'.method, o'.site, o'.declared, t', c', none, o'.location⟩ :=
      ⟨ho.method, ho.site, ho.location, .cons (.inl ⟨ht, hcc⟩) .nil, hall, by simp⟩
    cases hcc with
    | collection he =>
      refine (h.classify he).bind fun ec ec' hec => .pure ⟨ho.method, ho.site, ho.location,
        .cons (.inl ⟨ht, .collection he⟩) (.cons (.inl ⟨he, hec.1⟩) .nil), hall, ?_⟩
      rintro _ _ ⟨⟩
      exact ⟨rfl, hec.2⟩
    | _ => exact .pure hplain
  · obtain ⟨i, hw⟩ := Option.isSome_iff_exists.mp hw
    obtain ⟨i', hw'⟩ := Option.isSome_iff_exists.mp hw'
    refine (h.classify_wrappers hw hw').bind fun c c' hc => ?_
    obtain ⟨rfl, rfl⟩ := hc
    exact .pure ⟨ho.method, ho.site, ho.location, .cons (.inr ⟨⟨i, rfl⟩, ⟨i', rfl⟩⟩) .nil,
      ⟨[], ((wrapped?_eq_some_iff []).mp hw).symm⟩, by simp⟩

theorem contracts {cls cls' : TypeId} (hcls : R cls cls') :
    Query.Related (Agree R m m') (m.contracts cls) (m'.contracts cls') (Forall₂ R) :=
  (h.interfacesOf hcls).bind fun _ _ hall => Query.Related.filter (fun _ _ hi => h.isMarked hi) hall

theorem surface {cls cls' : TypeId} (hcls : R cls cls') :
    Query.Related (Agree R m m') (m.surface cls) (m'.surface cls') (Forall₂ (Exposure.Mirrors R m)) := by
  refine (h.contracts hcls).bind fun cs cs' hcs => Query.Related.each (fun _ _ ho => h.exposureOf ho) ?_
  refine List.rel_flatMap (h.graph.firstPerSlot (h.graph.contractMethods hcls hcs)) fun e e' he => ?_
  exact h.graph.occurrences e.1 e'.1 he.2.method

end Model.Mirrors

end ActorAudit
