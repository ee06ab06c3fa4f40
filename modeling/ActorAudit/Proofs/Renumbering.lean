import ActorAudit.Proofs.MirroredRuns
import Mathlib.Data.Set.Operations

/-!
# Renumbering types

The ids of a graph are the host's choice. A graph may be numbered anew, as long as the ids that can be reached
from its declarations are kept apart, and types that nobody refers to may come and go: the report stays the
same. Unwrapping stops after a number of steps that depends on the size of the graph, so where wrappers form a
cycle a different type may be left; it is a wrapper, and no rule says anything about those.
-/

namespace ActorAudit

open List (Forall₂)

/-! ## Numbering anew -/

section
variable (π : TypeId → TypeId)

def Method.renumber (m : Method) : Method :=
  { m with
    parameters := m.parameters.map fun p => { p with type := π p.type }
    returnType := m.returnType.map π
    definingInterface := m.definingInterface.map π }

def Member.renumber (p : Member) : Member := { p with declaredType := p.declaredType.map π }

def TypeSymbol.renumber (d : TypeSymbol) : TypeSymbol :=
  { d with
    baseType := d.baseType.map π
    interfaces := d.interfaces.map π
    flattened := d.flattened.map (List.map π)
    members := d.members.map (Member.renumber π)
    methods := d.methods.map (Method.renumber π)
    typeArguments := d.typeArguments.map π
    elementType := d.elementType.map π }

def Subject.renumber (d : Subject) : Subject := ⟨π d.id, d.definition.renumber π, d.role⟩

end

/-- All ids in a type. -/
def TypeSymbol.ids (d : TypeSymbol) : List TypeId := d.mentions ++ d.methods.filterMap (·.definingInterface)

/-- On the ids in `S`, which the declarations of `g` do not lead out of, `g'` is `g` with `π id` for every id.
Nothing is said about types of either graph that these ids do not resolve to. -/
structure Graph.Renumbers (π : TypeId → TypeId) (S : Set TypeId) (g g' : Graph) : Prop where
  declared : ∀ id ∈ g.declarations, id ∈ S
  closed : ∀ id ∈ S, ∀ d, g.get? id = some d → ∀ i ∈ d.ids, i ∈ S
  injOn : Set.InjOn π S
  declarations : g'.declarations = g.declarations.map π
  get? : ∀ id ∈ S, g'.get? (π id) = (g.get? id).map (TypeSymbol.renumber π)

/-! ## Types and their new numbers -/

/-- An id of `S` and its number. -/
def Numbered (π : TypeId → TypeId) (S : Set TypeId) (x y : TypeId) : Prop := x ∈ S ∧ y = π x

section
variable {π : TypeId → TypeId} {S : Set TypeId}

theorem numbered_list {l : List TypeId} (h : ∀ i ∈ l, i ∈ S) : Forall₂ (Numbered π S) l (l.map π) :=
  List.forall₂_map_right_iff.mpr (List.forall₂_same.mpr fun i hi => ⟨h i hi, rfl⟩)

theorem numbered_option {o : Option TypeId} (h : ∀ i ∈ o, i ∈ S) : Option.Rel (Numbered π S) o (o.map π) := by
  cases o with
  | none => exact .none
  | some i => exact .some ⟨h i rfl, rfl⟩

theorem Method.mirrors_renumber {m : Method} (hret : ∀ i ∈ m.returnType, i ∈ S)
    (hparams : ∀ p ∈ m.parameters, p.type ∈ S) (hdef : ∀ i ∈ m.definingInterface, i ∈ S) :
    m.Mirrors (Numbered π S) (m.renumber π) where
  name := rfl
  parameters := List.forall₂_map_right_iff.mpr
    (List.forall₂_same.mpr fun p hp => ⟨rfl, ⟨hparams p hp, rfl⟩, rfl⟩)
  returnType := numbered_option hret
  definingInterface := numbered_option hdef
  location := rfl

theorem TypeSymbol.mirrors_renumber {d : TypeSymbol} (h : ∀ i ∈ d.ids, i ∈ S) :
    d.Mirrors (Numbered π S) (d.renumber π) := by
  simp only [ids, mentions, List.mem_append, or_imp, forall_and] at h
  obtain ⟨⟨⟨⟨⟨⟨⟨hbase, hinterfaces⟩, hflattened⟩, harguments⟩, helement⟩, _⟩, hmethods⟩, hdefining⟩ := h
  refine ⟨rfl, rfl, rfl, numbered_option fun i hi => hbase i (by simpa using hi), numbered_list hinterfaces, ?_,
    ?_, numbered_list harguments, numbered_option fun i hi => helement i (by simpa using hi), rfl, rfl⟩
  · cases hf : d.flattened with
    | none => simp [renumber, hf]
    | some l =>
      simp only [hf, Option.getD_some] at hflattened
      simp only [renumber, hf]
      exact .some (numbered_list hflattened)
  · refine List.forall₂_map_right_iff.mpr (List.forall₂_same.mpr fun m hm => Method.mirrors_renumber ?_ ?_ ?_)
    · intro i hi
      exact hmethods i (List.mem_flatMap.mpr ⟨m, hm, List.mem_append_left _ (by simpa using hi)⟩)
    · intro p hp
      exact hmethods p.type (List.mem_flatMap.mpr
        ⟨m, hm, List.mem_append_right _ (List.mem_map.mpr ⟨p, hp, rfl⟩)⟩)
    · intro i hi
      exact hdefining i (List.mem_filterMap.mpr ⟨m, hm, hi⟩)

theorem TypeSymbol.annotates_renumber (π : TypeId → TypeId) (d : TypeSymbol) : d.Annotates (d.renumber π) where
  attributes := List.Subset.refl _
  constructors := List.Subset.refl _
  added _ hc := .inl hc
  members := List.forall₂_map_right_iff.mpr
    (List.forall₂_same.mpr fun _ _ => ⟨rfl, rfl, rfl, rfl, List.Subset.refl _⟩)

theorem TypeSymbol.renumber_annotates (π : TypeId → TypeId) (d : TypeSymbol) : (d.renumber π).Annotates d where
  attributes := List.Subset.refl _
  constructors := List.Subset.refl _
  added _ hc := .inl hc
  members := List.forall₂_map_left_iff.mpr
    (List.forall₂_same.mpr fun _ _ => ⟨rfl, rfl, rfl, rfl, List.Subset.refl _⟩)

end

/-! ## Graphs -/

namespace Graph.Renumbers

variable {π : TypeId → TypeId} {S : Set TypeId} {g g' : Graph} (h : g.Renumbers π S g') (a : Auditor)
include h

theorem rel_get? {P : TypeSymbol → TypeSymbol → Prop}
    (hP : ∀ {d : TypeSymbol}, (∀ i ∈ d.ids, i ∈ S) → P d (d.renumber π)) {id id' : TypeId}
    (hid : Numbered π S id id') : Option.Rel P (g.get? id) (g'.get? id') := by
  obtain ⟨hid, rfl⟩ := hid
  rw [h.get? id hid]
  cases hd : g.get? id with
  | none => exact .none
  | some d => exact .some (hP (h.closed id hid d hd))

theorem mirrors : (a.model g).Mirrors (Numbered π S) (a.model g') := by
  refine ⟨⟨⟨?_, ?_⟩, fun hid => h.rel_get? (fun hd => TypeSymbol.mirrors_renumber hd) hid, ?_⟩, rfl⟩
  · rintro x y z ⟨hx, rfl⟩ ⟨hy, hxy⟩
    exact h.injOn hx hy hxy
  · rintro x y z ⟨_, rfl⟩ ⟨_, rfl⟩
    rfl
  · show Forall₂ (Numbered π S) g.declarations g'.declarations
    rw [h.declarations]
    exact numbered_list h.declared

theorem annotates : (a.model g).Annotates (Numbered π S) (a.model g') :=
  { h.mirrors a with details := fun hid => h.rel_get? (fun {d} _ => d.annotates_renumber π) hid }

theorem annotates_flip : (a.model g').Annotates (flip (Numbered π S)) (a.model g) :=
  { (h.mirrors a).flip with
    details := fun hid =>
      rel_flip (h.rel_get? (P := flip TypeSymbol.Annotates) (fun {d} _ => d.renumber_annotates π) hid) }

end Graph.Renumbers

/-! ### A graph with knots

Two wrappers that wrap each other, two arrays of each other, and an id that points nowhere. -/

def Graph.knots : Graph where
  types := #[
    { name := "IActor", inNamespace := some "Dapr.Actors", kind := .interfaceType },
    { name := "Actor", inNamespace := some "Dapr.Actors.Runtime", kind := .classType },
    { name := "IKnotActor", kind := .interfaceType, interfaces := [⟨0⟩],
      methods := [{ name := "Tie", parameters := [⟨"rope", ⟨4⟩, none⟩, ⟨"mesh", ⟨6⟩, none⟩, ⟨"ghost", ⟨99⟩, none⟩,
        ⟨"pin", ⟨8⟩, none⟩] }] },
    { name := "KnotActor", kind := .classType, baseType := some ⟨1⟩, interfaces := [⟨2⟩],
      methods := [{ name := "Tie", parameters := [⟨"rope", ⟨4⟩, some ⟨"Knot.cs", 2, 3⟩⟩,
        ⟨"mesh", ⟨6⟩, some ⟨"Knot.cs", 3, 3⟩⟩, ⟨"ghost", ⟨99⟩, some ⟨"Knot.cs", 4, 3⟩⟩,
        ⟨"pin", ⟨8⟩, some ⟨"Knot.cs", 5, 3⟩⟩] }],
      location := some ⟨"Knot.cs", 1, 1⟩ },
    { name := "Task", inNamespace := some "System.Threading.Tasks", kind := .classType, typeArguments := [⟨5⟩] },
    { name := "Task", inNamespace := some "System.Threading.Tasks", kind := .classType, typeArguments := [⟨4⟩] },
    { name := "Array", kind := .arrayType, elementType := some ⟨7⟩ },
    { name := "Array", kind := .arrayType, elementType := some ⟨6⟩ },
    { name := "Pin", kind := .structType, location := some ⟨"Pin.cs", 1, 1⟩ }]
  declarations := [⟨3⟩]

/-- Counts the types of `knots` from the other end, after one that is new. -/
def Graph.backwards (id : TypeId) : TypeId := if id.index ≤ 8 then ⟨9 - id.index⟩ else ⟨50⟩

def Graph.knotsBackwards : Graph where
  types := ({ name := "Unused", kind := .enumType } ::
    knots.types.toList.reverse.map (TypeSymbol.renumber backwards)).toArray
  declarations := [⟨6⟩]

def Graph.knotIds : List TypeId := [⟨0⟩, ⟨1⟩, ⟨2⟩, ⟨3⟩, ⟨4⟩, ⟨5⟩, ⟨6⟩, ⟨7⟩, ⟨8⟩, ⟨99⟩]

theorem Graph.knots_renumbers : knots.Renumbers backwards { id | id ∈ knotIds } knotsBackwards where
  declared := by simp [knots, knotIds]
  closed := by
    have h : ∀ id ∈ knotIds, (knots.get? id).all (fun d => d.ids.all (· ∈ knotIds)) = true := by decide
    intro id hid d hd i hi
    have hall := h id hid
    simp only [hd, Option.all_some, List.all_eq_true, decide_eq_true_eq] at hall
    exact hall i hi
  injOn := by
    have h : ∀ x ∈ knotIds, ∀ y ∈ knotIds, backwards x = backwards y → x = y := by decide
    exact fun x hx y hy => h x hx y hy
  declarations := by decide
  get? := by
    have h : ∀ id ∈ knotIds, knotsBackwards.get? (backwards id) =
      (knots.get? id).map (TypeSymbol.renumber backwards) := by decide
    exact h

/-! ## Reports -/

namespace Auditor

section
variable (a : Auditor) {π : TypeId → TypeId} {S : Set TypeId} {g g' : Graph} (h : g.Renumbers π S g')
include h

theorem select_of_renumbers : a.select g' = (a.select g).map (Subject.renumber π) := by
  unfold select
  rw [h.declarations, List.filterMap_map, List.map_filterMap]
  refine List.filterMap_congr fun id hid => ?_
  have hmem := h.declared id hid
  simp only [Function.comp_apply, choose, h.get? id hmem]
  cases hd : g.get? id with
  | none => rfl
  | some d =>
    have hdd : d.Mirrors (Numbered π S) (d.renumber π) := TypeSymbol.mirrors_renumber (h.closed id hmem d hd)
    have hrole := (h.mirrors a).role ⟨hmem, rfl⟩ hdd
    have hexcluded : a.isExcluded (d.renumber π) = a.isExcluded d := rfl
    have hgenerated : (d.renumber π).isGenerated = d.isGenerated := rfl
    simp only [Option.map_some, hexcluded, hgenerated]
    cases d.isGenerated && a.settings.audit.excludeGenerated with
    | true => rfl
    | false =>
      cases a.isExcluded d with
      | true => rfl
      | false => simp [Subject.renumber, hrole]

theorem auditIn_of_renumbers {order : List Subject} (horder : order ⊆ a.select g) :
    a.auditIn g' (order.map (Subject.renumber π)) = a.auditIn g order := by
  have hsubject : ∀ d ∈ order, d.id ∈ S ∧ d.definition.Mirrors (Numbered π S) (d.definition.renumber π) := by
    intro d hd
    obtain ⟨hid, hget⟩ := mem_select (horder hd)
    have hmem := h.declared _ hid
    exact ⟨hmem, TypeSymbol.mirrors_renumber (h.closed _ hmem _ hget)⟩
  refine a.auditIn_eq_of_annotates (h.annotates a) (h.annotates_flip a) ?_ ?_
  · refine List.forall₂_map_right_iff.mpr (List.forall₂_same.mpr fun d hd => ?_)
    obtain ⟨hid, hdd⟩ := hsubject d hd
    exact ⟨⟨hid, rfl⟩, hdd, rfl, d.definition.annotates_renumber π⟩
  · refine List.forall₂_map_left_iff.mpr (List.forall₂_same.mpr fun d hd => ?_)
    obtain ⟨hid, hdd⟩ := hsubject d hd
    exact ⟨⟨hid, rfl⟩, hdd.flip, rfl, d.definition.renumber_annotates π⟩

end

/-- Renumbered, a graph has the same report, in whatever order its declarations are taken. -/
theorem audit_of_renumbers (a : Auditor) {π : TypeId → TypeId} {S : Set TypeId} {g g' : Graph}
    (h : g.Renumbers π S g') : a.audit g' = a.audit g ∧ ∀ order, order ⊆ a.select g →
      a.auditIn g' (order.map (Subject.renumber π)) = a.auditIn g order := by
  refine ⟨?_, fun order horder => a.auditIn_of_renumbers h horder⟩
  unfold audit
  rw [a.select_of_renumbers h]
  exact a.auditIn_of_renumbers h (List.Subset.refl _)

theorem audit_knotsBackwards :
    let a : Auditor := ⟨Rule.all, [], {}, .error⟩
    Graph.knots.Renumbers Graph.backwards { id | id ∈ Graph.knotIds } Graph.knotsBackwards ∧
    a.audit Graph.knotsBackwards = a.audit Graph.knots ∧ ∀ order, order ⊆ a.select Graph.knots →
      a.auditIn Graph.knotsBackwards (order.map (Subject.renumber Graph.backwards)) =
        a.auditIn Graph.knots order :=
  ⟨Graph.knots_renumbers, audit_of_renumbers _ Graph.knots_renumbers⟩

/-! What is left of the wrappers does change. -/

example : (Model.awaited ⟨Graph.knots, {}⟩ ⟨4⟩).fresh = ⟨4⟩ := by decide +kernel

example : (Model.awaited ⟨Graph.knotsBackwards, {}⟩ (Graph.backwards ⟨4⟩)).fresh = Graph.backwards ⟨5⟩ := by
  decide +kernel

end Auditor

end ActorAudit
