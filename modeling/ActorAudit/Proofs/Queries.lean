import ActorAudit.Auditor
import Mathlib.Data.List.Forall2

/-!
# Queries from any memo

A query may answer from the memo and adds to it. `Keeps I q P` says that from every memo with `I` the
answer of `q` has `P` and the memo it leaves has `I` again. Only `interfacesOf` and `classify` look into
the memo, so two facts about entries, one for each table, reach every query built from these two.
-/

namespace ActorAudit

namespace Query

variable {α β : Type} {I : Memo → Prop}

/-- From a memo with `I`, the answer has `P` and the memo that is left has `I`. -/
def Keeps (I : Memo → Prop) (q : Query α) (P : α → Prop) : Prop :=
  ∀ memo, I memo → P (q memo).1 ∧ I (q memo).2

/-- The answer from scratch. -/
def fresh (q : Query α) : α := (q .empty).1

/-- The answer from every memo with `I` is the answer from scratch. -/
def Steady (I : Memo → Prop) (q : Query α) : Prop := Keeps I q fun a => a = q.fresh

theorem Keeps.mono {q : Query α} {P Q : α → Prop} (h : Keeps I q P) (hPQ : ∀ a, P a → Q a) :
    Keeps I q Q := by
  intro memo hI
  obtain ⟨hP, hI'⟩ := h memo hI
  exact ⟨hPQ _ hP, hI'⟩

theorem Keeps.pure {P : α → Prop} {a : α} (h : P a) : Keeps I (Pure.pure a) P :=
  fun _ hI => ⟨h, hI⟩

theorem Keeps.bind {q : Query α} {f : α → Query β} {P : α → Prop} {Q : β → Prop} (h : Keeps I q P)
    (hf : ∀ a, P a → Keeps I (f a) Q) : Keeps I (q >>= f) Q := by
  intro memo hI
  obtain ⟨hP, hI'⟩ := h memo hI
  exact hf _ hP _ hI'

theorem Keeps.eq_fresh {q : Query α} {a : α} (h : Keeps I q fun b => b = a) (h₀ : I .empty) :
    Steady I q := by
  have : q.fresh = a := (h _ h₀).1
  rw [Steady, this]
  exact h

theorem Keeps.steady_bool {q : Query Bool} {p : Prop} (h : Keeps I q fun b => b = true ↔ p) (h₀ : I .empty) :
    Steady I q := by
  refine h.mono fun b hb => ?_
  rw [Bool.eq_iff_iff]
  exact hb.trans (h _ h₀).1.symm

theorem Steady.pure (a : α) : Steady I (Pure.pure a) := Keeps.pure rfl

theorem Steady.bind {q : Query α} {f : α → Query β} (h₀ : I .empty) (h : Steady I q)
    (hf : ∀ a, Steady I (f a)) : Steady I (q >>= f) := by
  refine Keeps.eq_fresh (a := (f q.fresh).fresh) ?_ h₀
  refine Keeps.bind h ?_
  rintro a rfl
  exact hf _

/-! ## Lists of questions -/

theorem each_cons (f : α → Query β) (a : α) (l : List α) (memo : Memo) : each f (a :: l) memo =
    ((f a memo).1 :: (each f l (f a memo).2).1, (each f l (f a memo).2).2) := rfl

theorem Keeps.each {f : α → Query β} {P : α → β → Prop} : ∀ {l : List α},
    (∀ a ∈ l, Keeps I (f a) (P a)) → Keeps I (each f l) (List.Forall₂ P l)
  | [], _ => Keeps.pure .nil
  | a :: l, h => by
    refine Keeps.bind (h a List.mem_cons_self) fun b hb => ?_
    refine Keeps.bind (Keeps.each fun c hc => h c (List.mem_cons_of_mem _ hc)) fun bs hbs => ?_
    exact Keeps.pure (.cons hb hbs)

theorem Keeps.each_forall {f : α → Query β} {P : β → Prop} {l : List α} (h : ∀ a ∈ l, Keeps I (f a) P) :
    Keeps I (Query.each f l) fun bs => ∀ b ∈ bs, P b := by
  refine (Keeps.each h).mono fun bs hbs => ?_
  clear h
  induction hbs with
  | nil => simp
  | cons hb _ ih => exact List.forall_mem_cons.mpr ⟨hb, ih⟩

theorem Keeps.each_map {f : α → Query β} {v : α → β} {l : List α} (h : ∀ a ∈ l, Keeps I (f a) (· = v a)) :
    Keeps I (Query.each f l) (· = l.map v) := by
  refine (Keeps.each h).mono fun bs hbs => ?_
  clear h
  induction hbs with
  | nil => rfl
  | cons hb _ ih => rw [List.map_cons, hb, ih]

theorem Steady.filter {p : α → Query Bool} : ∀ {l : List α}, (∀ a ∈ l, Steady I (p a)) →
    Keeps I (filter p l) fun r => r = l.filter fun a => (p a).fresh
  | [], _ => Keeps.pure rfl
  | a :: l, h => by
    refine Keeps.bind (h a List.mem_cons_self) ?_
    rintro keep rfl
    refine Keeps.bind (Steady.filter fun c hc => h c (List.mem_cons_of_mem _ hc)) ?_
    rintro rest rfl
    refine Keeps.pure ?_
    rw [List.filter_cons]

theorem Steady.any {p : α → Query Bool} : ∀ {l : List α}, (∀ a ∈ l, Steady I (p a)) →
    Keeps I (any p l) fun b => b = l.any fun a => (p a).fresh
  | [], _ => Keeps.pure rfl
  | a :: l, h => by
    refine Keeps.bind (h a List.mem_cons_self) ?_
    rintro found rfl
    rw [List.any_cons]
    cases (p a).fresh with
    | true => exact Keeps.pure rfl
    | false => exact Steady.any fun c hc => h c (List.mem_cons_of_mem _ hc)

end Query

/-! ## Entries of a memo -/

namespace Memo

/-- Every list that the memo holds for a type has `P`, every classification `Q`. -/
structure Holds (P : TypeId → List TypeId → Prop) (Q : TypeId → Classification → Prop) (memo : Memo) :
    Prop where
  interfaces : ∀ {id all}, memo.interfaces? id = some all → P id all
  classes : ∀ {id c}, memo.class? id = some c → Q id c

theorem interfaces?_recordInterfaces (memo : Memo) (id : TypeId) (all : List TypeId) (x : TypeId) :
    (memo.recordInterfaces id all).interfaces? x = if x = id then some all else memo.interfaces? x := by
  unfold recordInterfaces interfaces?
  rw [List.lookup_cons]
  by_cases h : x = id
  · simp [h]
  · rw [if_neg h, beq_false_of_ne h]

theorem class?_recordClass (memo : Memo) (id : TypeId) (c : Classification) (x : TypeId) :
    (memo.recordClass id c).class? x = if x = id then some c else memo.class? x := by
  unfold recordClass class?
  rw [List.lookup_cons]
  by_cases h : x = id
  · simp [h]
  · rw [if_neg h, beq_false_of_ne h]

variable {P : TypeId → List TypeId → Prop} {Q : TypeId → Classification → Prop}

theorem holds_empty : empty.Holds P Q where
  interfaces := by intro id all h; cases h
  classes := by intro id c h; cases h

theorem Holds.recordInterfaces {memo : Memo} (h : memo.Holds P Q) {id : TypeId} {all : List TypeId}
    (hP : P id all) : (memo.recordInterfaces id all).Holds P Q where
  interfaces := by
    intro x l hx
    rw [interfaces?_recordInterfaces] at hx
    split at hx
    · rename_i hid; cases hx; rw [hid]; exact hP
    · exact h.interfaces hx
  classes := h.classes

theorem Holds.recordClass {memo : Memo} (h : memo.Holds P Q) {id : TypeId} {c : Classification}
    (hQ : Q id c) : (memo.recordClass id c).Holds P Q where
  interfaces := h.interfaces
  classes := by
    intro x k hx
    rw [class?_recordClass] at hx
    split at hx
    · rename_i hid; cases hx; rw [hid]; exact hQ
    · exact h.classes hx

end Memo

/-! ## The two queries that look into the memo -/

namespace Graph

variable {g : Graph} {memo : Memo} {id : TypeId}

theorem interfacesOf_of_known {all : List TypeId} (h : memo.interfaces? id = some all) :
    g.interfacesOf id memo = (all, memo) := by
  simp only [interfacesOf, bind, StateT.bind, get, getThe, MonadStateOf.get, StateT.get, pure, h]
  rfl

theorem interfacesOf_of_unknown (h : memo.interfaces? id = none) :
    g.interfacesOf id memo = (g.flatten memo id, memo.recordInterfaces id (g.flatten memo id)) := by
  simp only [interfacesOf, bind, StateT.bind, get, getThe, MonadStateOf.get, StateT.get, pure, h]
  rfl

end Graph

namespace Model

def isCollectionWith (m : Model) (d : TypeSymbol) (all : List TypeId) : Bool :=
  d.mayBeCollection &&
    (d.hasCollectionName || all.any fun i => (m.graph.get? i).any TypeSymbol.hasCollectionName)

def classWith (m : Model) (id : TypeId) (all : List TypeId) : Classification :=
  match m.graph.get? id with
  | none => .unknown
  | some d =>
    if d.kind = .enumType then .enumeration
    else if d.kind = .voidType || d.isScalar then .primitive
    else if d.is m.framework.asyncWrapper then
      match d.typeArguments with
      | [] => .primitive
      | [inner] => .asyncWrapper inner
      | _ => .unknown
    else if d.kind = .arrayType then ofElement d.elementType
    else if m.isCollectionWith d all then ofElement d.typeArguments.head?
    else d.plainClassification

theorem classWith_congr (m : Model) (id : TypeId) {all all' : List TypeId} (h : ∀ x, x ∈ all ↔ x ∈ all') :
    m.classWith id all = m.classWith id all' := by
  have hany : ∀ p : TypeId → Bool, all.any p = all'.any p := by
    intro p
    rw [Bool.eq_iff_iff, List.any_eq_true, List.any_eq_true]
    simp only [h]
  unfold classWith isCollectionWith
  simp only [hany]

section
variable {m : Model} {I : Memo → Prop} {id : TypeId} {P : List TypeId → Prop}
  (hi : Query.Keeps I (m.graph.interfacesOf id) P)
include hi

theorem keeps_pure {α : Type} {c : α} {f : List TypeId → α} (hf : ∀ all, f all = c) :
    Query.Keeps I (pure c) fun b => ∃ all, P all ∧ b = f all :=
  fun memo hI => ⟨⟨_, (hi memo hI).1, (hf _).symm⟩, hI⟩

theorem keeps_isCollection (d : TypeSymbol) :
    Query.Keeps I (m.isCollection id d) fun b => ∃ all, P all ∧ b = m.isCollectionWith d all := by
  unfold isCollection isCollectionWith
  cases d.mayBeCollection with
  | false => exact keeps_pure hi fun _ => rfl
  | true =>
    cases d.hasCollectionName with
    | true => exact keeps_pure hi fun _ => rfl
    | false => exact hi.bind fun all hP => .pure ⟨all, hP, rfl⟩

theorem keeps_computeClass :
    Query.Keeps I (m.computeClass id) fun c => ∃ all, P all ∧ c = m.classWith id all := by
  -- only the last branch asks for interfaces; the others give what any list gives
  unfold computeClass classWith
  cases m.graph.get? id with
  | none => exact keeps_pure hi fun _ => rfl
  | some d =>
    dsimp only
    split_ifs with h₁ h₂ h₃ h₄
    · exact keeps_pure hi fun _ => rfl
    · exact keeps_pure hi fun _ => rfl
    · cases d.typeArguments with
      | nil => exact keeps_pure hi fun _ => rfl
      | cons inner rest => cases rest <;> exact keeps_pure hi fun _ => rfl
    · exact keeps_pure hi fun _ => rfl
    · refine Query.Keeps.bind (keeps_isCollection hi d) ?_
      rintro b ⟨all, hP, rfl⟩
      cases hc : m.isCollectionWith d all with
      | true => exact .pure ⟨all, hP, by rw [hc]; rfl⟩
      | false => exact .pure ⟨all, hP, by rw [hc]; rfl⟩

end

section
variable {m : Model} {P : TypeId → List TypeId → Prop} {Q : TypeId → Classification → Prop}

theorem keeps_interfacesOf {g : Graph}
    (hP : ∀ memo id, memo.Holds P Q → memo.interfaces? id = none → P id (g.flatten memo id)) (id : TypeId) :
    Query.Keeps (Memo.Holds P Q) (g.interfacesOf id) (P id) := by
  intro memo hI
  cases hm : memo.interfaces? id with
  | some all =>
    rw [Graph.interfacesOf_of_known hm]
    exact ⟨hI.interfaces hm, hI⟩
  | none =>
    rw [Graph.interfacesOf_of_unknown hm]
    exact ⟨hP memo id hI hm, hI.recordInterfaces (hP memo id hI hm)⟩

theorem classify_of_known {memo : Memo} {id : TypeId} {c : Classification} (h : memo.class? id = some c) :
    m.classify id memo = (c, memo) := by
  simp only [classify, bind, StateT.bind, get, getThe, MonadStateOf.get, StateT.get, pure, h]
  rfl

theorem classify_of_unknown {memo : Memo} {id : TypeId} (h : memo.class? id = none) : m.classify id memo =
    ((m.computeClass id memo).1, (m.computeClass id memo).2.recordClass id (m.computeClass id memo).1) := by
  simp only [classify, bind, StateT.bind, get, getThe, MonadStateOf.get, StateT.get, pure, h]
  rfl

theorem keeps_classify
    (hi : ∀ id, Query.Keeps (Memo.Holds P Q) (m.graph.interfacesOf id) (P id))
    (hQ : ∀ id all, P id all → Q id (m.classWith id all)) (id : TypeId) :
    Query.Keeps (Memo.Holds P Q) (m.classify id) (Q id) := by
  intro memo hI
  cases hm : memo.class? id with
  | some c =>
    rw [classify_of_known hm]
    exact ⟨hI.classes hm, hI⟩
  | none =>
    rw [classify_of_unknown hm]
    obtain ⟨⟨all, hP, hc⟩, hI'⟩ := keeps_computeClass (hi id) memo hI
    have hQc := hQ id all hP
    rw [← hc] at hQc
    exact ⟨hQc, hI'.recordClass hQc⟩

end

end Model

/-! ## Everything else is put together from these two -/

/-- A property of queries that holds of the two that look into the memo and of what is put together from
queries that have it. -/
structure Query.Compositional (m : Model) (T : ∀ {α : Type}, Query α → Prop) : Prop where
  pure : ∀ {α : Type} (a : α), T (Pure.pure a)
  bind : ∀ {α β : Type} {q : Query α} {f : α → Query β}, T q → (∀ a, T (f a)) → T (q >>= f)
  interfacesOf : ∀ id, T (m.graph.interfacesOf id)
  classify : ∀ id, T (m.classify id)

namespace Query.Compositional

variable {m : Model} {T : ∀ {α : Type}, Query α → Prop} (h : Compositional m @T)
include h

theorem each {α β : Type} {f : α → Query β} (hf : ∀ a, T (f a)) (l : List α) : T (Query.each f l) := by
  induction l with
  | nil => exact h.pure _
  | cons a l ih => exact h.bind (hf a) fun _ => h.bind ih fun _ => h.pure _

theorem filter {α : Type} {p : α → Query Bool} (hp : ∀ a, T (p a)) (l : List α) : T (Query.filter p l) := by
  induction l with
  | nil => exact h.pure _
  | cons a l ih => exact h.bind (hp a) fun _ => h.bind ih fun _ => h.pure _

theorem any {α : Type} {p : α → Query Bool} (hp : ∀ a, T (p a)) (l : List α) : T (Query.any p l) := by
  induction l with
  | nil => exact h.pure _
  | cons a l ih =>
    refine h.bind (hp a) fun b => ?_
    cases b with
    | true => exact h.pure _
    | false => exact ih

theorem isMarked (id : TypeId) : T (m.isMarked id) := h.bind (h.interfacesOf id) fun _ => h.pure _

theorem awaitedWithin (steps : Nat) (id : TypeId) : T (m.awaitedWithin steps id) := by
  induction steps generalizing id with
  | zero => exact h.pure _
  | succ steps ih =>
    refine h.bind (h.classify id) fun c => ?_
    cases c with
    | asyncWrapper inner => exact ih inner
    | _ => exact h.pure _

theorem exposureOf (o : Occurrence) : T (m.exposureOf o) := by
  refine h.bind (h.awaitedWithin _ _) fun type => h.bind (h.classify type) fun c => ?_
  cases c.element? with
  | some e => exact h.bind (h.classify e) fun _ => h.bind (h.pure _) fun _ => h.pure _
  | none => exact h.bind (h.pure _) fun _ => h.pure _

theorem contracts (cls : TypeId) : T (m.contracts cls) :=
  h.bind (h.interfacesOf cls) fun all => h.filter h.isMarked all

theorem surface (cls : TypeId) : T (m.surface cls) :=
  h.bind (h.contracts cls) fun _ => h.each h.exposureOf _

theorem isUnmarkedContract (id : TypeId) : T (m.isUnmarkedContract id) := by
  unfold Model.isUnmarkedContract
  cases m.graph.get? id with
  | none => exact h.pure _
  | some d =>
    dsimp only
    split
    · exact h.bind (h.isMarked id) fun _ => h.pure _
    · exact h.pure _

theorem interfaceMarkerFindings {scope : Scope} (hs : scope.model = m) :
    T (RuleId.interfaceMarkerFindings scope) := by
  subst hs
  unfold RuleId.interfaceMarkerFindings
  dsimp only
  split
  · refine h.bind (h.isUnmarkedContract _) fun b => ?_
    split <;> exact h.pure _
  · exact h.bind (h.filter h.isUnmarkedContract _) fun _ => h.pure _

theorem actorContractFindings {scope : Scope} (hs : scope.model = m) :
    T (RuleId.actorContractFindings scope) := by
  subst hs
  refine h.bind (h.interfacesOf _) fun all => h.bind (h.any h.isMarked all) fun b => ?_
  cases b <;> exact h.pure _

theorem findings {scope : Scope} (hs : scope.model = m) (r : RuleId) : T (r.findings scope) := by
  cases r with
  | interfaceMarker => exact h.interfaceMarkerFindings hs
  | actorContract => exact h.actorContractFindings hs
  | _ => exact h.pure _

theorem applyRule {scope : Scope} (hs : scope.model = m) (r : Rule) : T (Auditor.applyRule scope r) := by
  unfold Auditor.applyRule
  split
  · exact h.bind (h.findings hs r.id) fun _ => h.pure _
  · exact h.pure _

theorem scopeOf (checked : List TypeId) (d : Subject) : T (Auditor.scopeOf m checked d) := by
  unfold Auditor.scopeOf
  split
  · exact h.bind (h.surface d.id) fun _ => h.pure _
  · exact h.bind (h.pure _) fun _ => h.pure _

end Query.Compositional

theorem Query.compositional_keeps {m : Model} {I : Memo → Prop}
    (hi : ∀ id, Keeps I (m.graph.interfacesOf id) fun _ => True)
    (hc : ∀ id, Keeps I (m.classify id) fun _ => True) :
    Compositional m fun q => Keeps I q fun _ => True where
  pure _ := .pure trivial
  bind hq hf := .bind hq fun a _ => hf a
  interfacesOf := hi
  classify := hc

theorem Query.compositional_steady {m : Model} {I : Memo → Prop} (h₀ : I .empty)
    (hi : ∀ id, Steady I (m.graph.interfacesOf id)) (hc : ∀ id, Steady I (m.classify id)) :
    Compositional m fun q => Steady I q where
  pure := .pure
  bind := .bind h₀
  interfacesOf := hi
  classify := hc

end ActorAudit
