import ActorAudit.Proofs.DepthFirst

/-!
# What a type is, row by row

The classification of a type as a table: every row has a condition on the definition of the type and the interfaces
it inherits, and the first row whose condition holds decides. On a well-formed graph `classify` gives the answer of
the table, whatever was asked before.
-/

namespace ActorAudit

/-- The first row whose condition holds gives the answer. -/
inductive Decides {α : Type} : List (Prop × α) → α → Prop
  | here {p a rows} : p → Decides ((p, a) :: rows) a
  | next {p a b rows} : ¬p → Decides rows b → Decides ((p, a) :: rows) b

theorem decides_cons {α : Type} {p : Prop} {a b : α} {rows : List (Prop × α)} :
    Decides ((p, a) :: rows) b ↔ p ∧ a = b ∨ ¬p ∧ Decides rows b := by
  constructor
  · intro h
    cases h with
    | here hp => exact .inl ⟨hp, rfl⟩
    | next hp h => exact .inr ⟨hp, h⟩
  · rintro (⟨hp, rfl⟩ | ⟨hp, h⟩)
    · exact .here hp
    · exact .next hp h

/-! ## Conditions -/

namespace TypeSymbol

/-- A scalar by namespace and name; keywords have no namespace. -/
def KnownScalar (d : TypeSymbol) : Prop :=
  (d.inNamespace = none ∨ d.inNamespace = some "") ∧ d.name ∈ scalarKeywords ∨
  d.inNamespace = some "System" ∧ d.name ∈ systemScalars ∨
  d.inNamespace = some "System.Xml" ∧ d.name = "XmlQualifiedName"

theorem isScalar_iff {d : TypeSymbol} : d.isScalar = true ↔ d.KnownScalar := by
  unfold isScalar KnownScalar
  split <;> simp_all

theorem is_iff {d : TypeSymbol} {t : QualifiedName} :
    d.is t = true ↔ d.name = t.name ∧ d.inNamespace = some t.inNamespace := by
  simp [is]

theorem mayBeCollection_iff {d : TypeSymbol} : d.mayBeCollection = true ↔
    d.kind ∈ [.classType, .structType, .interfaceType, .recordType] := by
  unfold mayBeCollection
  cases d.kind <;> simp

end TypeSymbol

namespace Model

variable (m : Model) (id : TypeId)

/-- A class, a struct, an interface or a record that has a collection name itself, or inherits an interface that
has one. -/
def CollectionShaped (d : TypeSymbol) : Prop :=
  d.kind ∈ [.classType, .structType, .interfaceType, .recordType] ∧
    (d.name ∈ TypeSymbol.collectionNames ∨
      ∃ x e, m.graph.Inherits id x ∧ m.graph.get? x = some e ∧ e.name ∈ TypeSymbol.collectionNames)

/-- What a wrapper with type arguments stands for. -/
def wrapperClass : List TypeId → Classification
  | [] => .primitive
  | [inner] => .asyncWrapper inner
  | _ :: _ :: _ => .unknown

def classTable : List (Prop × Classification) :=
  match m.graph.get? id with
  | none => [(True, .unknown)]
  | some d => [
    (d.kind = .enumType, .enumeration),
    (d.kind = .voidType ∨ d.KnownScalar, .primitive),
    (d.name = m.framework.asyncWrapper.name ∧ d.inNamespace = some m.framework.asyncWrapper.inNamespace,
      wrapperClass d.typeArguments),
    (d.kind = .arrayType, d.elementType.elim .unknown .collection),
    (m.CollectionShaped id d, d.typeArguments.head?.elim .unknown .collection),
    (d.kind = .recordType, .record),
    (d.kind = .classType ∨ d.kind = .structType, .complexObject),
    (d.kind = .interfaceType, .interface),
    (True, .unknown)]

/-! ## The classifier follows the table -/

variable {m id}

theorem isCollectionWith_iff {d : TypeSymbol} (hd : m.graph.get? id = some d) {all : List TypeId}
    (hall : m.graph.Flat id all) : m.isCollectionWith d all = true ↔ m.CollectionShaped id d := by
  have hnamed : (d.hasCollectionName = true ∨
      (all.any fun i => (m.graph.get? i).any TypeSymbol.hasCollectionName) = true) ↔
      d.name ∈ TypeSymbol.collectionNames ∨
        ∃ x e, m.graph.Inherits id x ∧ m.graph.get? x = some e ∧ e.name ∈ TypeSymbol.collectionNames := by
    simp only [TypeSymbol.hasCollectionName, List.contains_iff_mem, List.any_eq_true, Option.any_eq_true, hall _]
    constructor
    · rintro (h | ⟨x, ⟨_, hx⟩, e, he, hn⟩)
      · exact .inl h
      · exact .inr ⟨x, e, hx, he, hn⟩
    · rintro (h | ⟨x, e, hx, he, hn⟩)
      · exact .inl h
      · -- a type that inherits itself has its own name to show
        by_cases hid : x = id
        · subst hid
          rw [hd] at he
          cases he
          exact .inl hn
        · exact .inr ⟨x, ⟨hid, hx⟩, e, he, hn⟩
  rw [isCollectionWith, Bool.and_eq_true, Bool.or_eq_true, hnamed, TypeSymbol.mayBeCollection_iff, CollectionShaped]

theorem classWith_eq_iff {all : List TypeId} (hall : m.graph.Flat id all) (c : Classification) :
    m.classWith id all = c ↔ Decides (m.classTable id) c := by
  unfold classWith classTable
  cases hd : m.graph.get? id with
  | none => simp [decides_cons]
  | some d =>
    have hscalar : (decide (d.kind = .voidType) || d.isScalar) = true ↔ d.kind = .voidType ∨ d.KnownScalar := by
      simp [TypeSymbol.isScalar_iff]
    simp only [decides_cons, ← hscalar, ← TypeSymbol.is_iff, ← isCollectionWith_iff hd hall]
    -- the rows in their order; a row that is reached has failed all conditions before it
    split_ifs with henum hscalar hwrapper harray hcollection
    · simp [henum]
    · simp [henum, hscalar]
    · simp only [henum, hscalar, hwrapper]
      cases d.typeArguments with
      | nil => simp [wrapperClass]
      | cons inner rest => cases rest <;> simp [wrapperClass]
    · cases he : d.elementType <;> simp_all [ofElement]
    · cases ha : d.typeArguments.head? <;> simp_all [ofElement]
    · cases hk : d.kind <;> simp_all [TypeSymbol.plainClassification]

/-- On a well-formed graph, after any questions, a type is classified as the table says. -/
theorem classify_after_iff (hg : m.graph.WellFormed) (qs : List Question) (id : TypeId) (c : Classification) :
    (m.classify id (m.after qs)).1 = c ↔ Decides (m.classTable id) c := by
  rw [(keeps_classify_of_wellFormed hg id _ (right_after hg qs)).1]
  exact classWith_eq_iff (hg.flat_fresh id) c

/-- The pantry is a collection of jars through what its base inherits, though it is a record. -/
theorem classify_after_pantry :
    let m : Model := ⟨Graph.pantry, {}⟩
    m.graph.WellFormed ∧ (m.classify ⟨5⟩ (m.after [.interfaces ⟨1⟩, .classification ⟨4⟩])).1 = .collection ⟨3⟩ ∧
      Decides (m.classTable ⟨5⟩) (.collection ⟨3⟩) := by
  intro m
  have hclass : (m.classify ⟨5⟩ (m.after [.interfaces ⟨1⟩, .classification ⟨4⟩])).1 = .collection ⟨3⟩ := by cbv
  have hg : m.graph.WellFormed := Graph.pantry_plain.wellFormed
  exact ⟨hg, hclass, (classify_after_iff hg _ _ _).mp hclass⟩

end Model

end ActorAudit
