import ActorAudit.Proofs.UncontractedTypes

/-!
# Records without contracts

`recordContract` says two things in one pass over a surface: of each use that it reaches a record without a contract,
and of each property of a record that it is not marked, with the first use that reaches the record. The pass mixes the
two; up to their order they are the findings over all uses and the findings over the distinct records.
-/

namespace ActorAudit

def Exposure.types (u : Exposure) : List TypeId := u.reached.map Prod.fst

namespace Model

/-- The definition of a type that is remembered as a record. -/
def record? (m : Model) (memo : Memo) (t : TypeId) : Option TypeSymbol :=
  if (m.classify t memo).1 = .record then m.graph.get? t else none

/-- The records that the uses of a surface reach, use by use. -/
def recordUses (m : Model) (memo : Memo) (s : Surface) : List (Exposure × TypeSymbol) :=
  s.flatMap fun u => (u.types.filterMap (m.record? memo)).map fun d => (u, d)

/-- The distinct records that a surface reaches, each with the first use that reaches it. -/
def distinctRecords (m : Model) (memo : Memo) (s : Surface) : List (Exposure × TypeSymbol) :=
  (s.flatMap Exposure.types).eraseDups.filterMap fun t =>
    (m.record? memo t).bind fun d => (s.find? (t ∈ ·.types)).map fun u => (u, d)

end Model

/-! ## The pass over the reached types -/

/-- The records among the reached types, each with the use that reaches it and its definition. -/
def Graph.recordsIn (g : Graph) (l : List (TypeId × Classification × Exposure)) :
    List (TypeId × Exposure × TypeSymbol) :=
  l.filterMap fun (t, c, u) => if c = .record then (g.get? t).map fun d => (t, u, d) else none

namespace RuleId

theorem recordFindingsFrom_perm (scope : Scope) (seen : List TypeId) (l : List (TypeId × Classification × Exposure)) :
    let all := scope.model.graph.recordsIn l
    (recordFindingsFrom scope seen l).Perm ((all.flatMap fun (_, u, d) => recordUseFindings d u) ++
      (firstBy (·.1) seen all).flatMap fun (_, u, d) => recordMemberFindings d u) := by
  induction l generalizing seen with
  | nil => exact .refl _
  | cons a l ih =>
    obtain ⟨t, c, u⟩ := a
    by_cases hc : c = .record
    · subst hc
      cases hd : scope.model.graph.get? t with
      | none => simpa [recordFindingsFrom, Graph.recordsIn, hd] using ih seen
      | some d =>
        by_cases ht : t ∈ seen
        · have hrest := (ih seen).append_left (recordUseFindings d u)
          simpa [recordFindingsFrom, Graph.recordsIn, hd, firstBy, ht] using hrest
        · -- the findings about the properties move behind those about the later uses
          have hrest := ((ih (t :: seen)).append_left (recordMemberFindings d u)).trans
            (List.perm_append_comm_assoc _ _ _)
          have huse := hrest.append_left (recordUseFindings d u)
          simpa [recordFindingsFrom, Graph.recordsIn, hd, firstBy, ht] using huse
    · rw [recordFindingsFrom_of_ne hc]
      simpa [Graph.recordsIn, hc] using ih seen

end RuleId

/-! ## Uses and records -/

section
variable {α κ : Type} [DecidableEq κ] (f : κ → Option α)

theorem find?_filterMap_key (l : List κ) (k : κ) :
    (l.filterMap fun k => (f k).map fun a => (k, a)).find? (·.1 = k) =
      if k ∈ l then (f k).map fun a => (k, a) else none := by
  induction l with
  | nil => rfl
  | cons k' l ih =>
    by_cases hk : k' = k
    · subst hk
      cases hf : f k' <;> simp_all
    · cases hf : f k' <;> simp_all [Ne.symm hk]

end

namespace Model

variable (m : Model) (memo : Memo) {s : Surface}

def recordsOf (u : Exposure) : List (TypeId × Exposure × TypeSymbol) :=
  u.types.filterMap fun t => (m.record? memo t).map fun d => (t, u, d)

theorem recordsIn_reached (hs : ∀ u ∈ s, ∀ p ∈ u.reached, p.2 = (m.classify p.1 memo).1) :
    m.graph.recordsIn (Surface.reached s) = s.flatMap (m.recordsOf memo) := by
  rw [Graph.recordsIn, Surface.reached, List.filterMap_flatMap]
  refine List.flatMap_congr fun u hu => ?_
  rw [recordsOf, Exposure.types, List.filterMap_map, List.filterMap_map]
  refine List.filterMap_congr fun p hp => ?_
  by_cases hc : (m.classify p.1 memo).1 = .record <;> simp [record?, hs u hu p hp, hc]

theorem flatMap_recordsOf {β : Type} (f : Exposure × TypeSymbol → List β) :
    ((s.flatMap (m.recordsOf memo)).flatMap fun x => f x.2) = (m.recordUses memo s).flatMap f := by
  have hsnd : ∀ u, (m.recordsOf memo u).map Prod.snd = (u.types.filterMap (m.record? memo)).map fun d => (u, d) := by
    intro u
    simp [recordsOf, List.map_filterMap, Function.comp_def]
  rw [recordUses, ← List.flatMap_congr fun u _ => hsnd u, ← List.map_flatMap, List.flatMap_map]

theorem recordUses_sublist (hs : ∀ u ∈ s, (u.types.filterMap (m.record? memo)).length ≤ 1) :
    ((m.recordUses memo s).map Prod.fst).Sublist s := by
  induction s with
  | nil => exact .refl _
  | cons u s ih =>
    have hu : ((u.types.filterMap (m.record? memo)).map fun _ => u).Sublist [u] := by
      rw [List.map_const']
      exact (List.replicate_sublist_replicate u).mpr (hs u List.mem_cons_self)
    have hrest := ih fun v hv => hs v (List.mem_cons_of_mem u hv)
    rw [recordUses, List.flatMap_cons, List.map_append, List.map_map]
    exact hu.append hrest

theorem keys_recordsOf (s : Surface) : (s.flatMap (m.recordsOf memo)).map Prod.fst =
    (s.flatMap Exposure.types).filter fun t => (m.record? memo t).isSome := by
  rw [List.map_flatMap, List.filter_flatMap]
  refine List.flatMap_congr fun u _ => ?_
  rw [recordsOf, List.map_filterMap, ← List.filterMap_eq_filter]
  refine List.filterMap_congr fun t _ => ?_
  cases h : m.record? memo t <;> simp [h, Option.guard]

theorem find?_recordsOf {t : TypeId} {d : TypeSymbol} (hd : m.record? memo t = some d) (s : Surface) :
    (s.flatMap (m.recordsOf memo)).find? (·.1 = t) = (s.find? (t ∈ ·.types)).map fun u => (t, u, d) := by
  induction s with
  | nil => rfl
  | cons u s ih =>
    have hu : (m.recordsOf memo u).find? (·.1 = t) = if t ∈ u.types then some (t, u, d) else none := by
      have hkey := find?_filterMap_key (fun t => (m.record? memo t).map fun d => (u, d)) u.types t
      simpa [recordsOf, hd, Function.comp_def] using hkey
    rw [List.flatMap_cons, List.find?_append, hu, ih]
    by_cases ht : t ∈ u.types <;> simp [ht]

theorem firstBy_recordsOf (s : Surface) :
    (firstBy (·.1) [] (s.flatMap (m.recordsOf memo))).map Prod.snd = m.distinctRecords memo s := by
  rw [firstBy_nil, keys_recordsOf, eraseDups_filter, List.filterMap_filter, List.map_filterMap, distinctRecords]
  refine List.filterMap_congr fun t _ => ?_
  cases hd : m.record? memo t with
  | none => simp
  | some d => simp [find?_recordsOf m memo hd, Function.comp_def]

end Model

/-! ## What is said -/

namespace Violation

def ofRecord (severity : Severity) (d : TypeSymbol) (advice : String) (labels : List Label) (l : Location) :
    Violation where
  code := "DAPR1412"
  rule := "record-needs-contract"
  severity := severity
  location := l
  message := Template.fill RuleId.recordContract.template [d.name]
  suggestion := some advice
  labels := labels

/-- Where a use of a record is reported: the record has no contract. -/
def ofRecordUse? (severity : Severity) (u : Exposure) (d : TypeSymbol) : Option Violation :=
  if Concept.dataContract.isIn d.attributes then none
  else u.location.map (ofRecord severity d s!"Add [DataContract] to record '{d.name}'" [])

/-- Where a member of a record is reported: it is a public property without a mark. -/
def ofRecordMember? (severity : Severity) (u : Exposure) (d : TypeSymbol) (p : Member) : Option Violation :=
  if p.kind = .property ∧ p.accessibility = .publicAccess ∧ Concept.dataMember.isIn p.attributes = false then
    p.location.map (ofRecord severity d s!"Add [DataMember] to '{d.name}.{p.name}'" u.label)
  else none

end Violation

namespace RuleId

theorem map_place (severity : Severity) (l : Option Location) (d : TypeSymbol) (advice : String)
    (labels : List Label) : (Finding.place l [d.name] advice labels).map (Finding.toViolation recordContract severity) =
      (l.map (Violation.ofRecord severity d advice labels)).toList := by
  cases l <;> rfl

theorem map_recordUseFindings (severity : Severity) (u : Exposure) (d : TypeSymbol) :
    (recordUseFindings d u).map (Finding.toViolation recordContract severity) =
      (Violation.ofRecordUse? severity u d).toList := by
  rw [recordUseFindings, Violation.ofRecordUse?, TypeSymbol.isDataContract]
  split
  · rfl
  · exact map_place ..

theorem map_recordMemberFindings (severity : Severity) (u : Exposure) (d : TypeSymbol) :
    (recordMemberFindings d u).map (Finding.toViolation recordContract severity) =
      d.members.filterMap (Violation.ofRecordMember? severity u d) := by
  rw [recordMemberFindings, TypeSymbol.publicProperties, List.filter_filter, List.map_flatMap]
  simp only [map_place]
  rw [← List.filterMap_eq_flatMap_toList, List.filterMap_filter]
  refine List.filterMap_congr fun p _ => ?_
  by_cases hk : p.kind = .property <;> by_cases ha : p.accessibility = .publicAccess <;>
    simp [Violation.ofRecordMember?, Member.isExposedProperty, hk, ha]

end RuleId

namespace Auditor

/-- A use that reaches a record reaches no other: only collections have elements. -/
theorem length_records_le_one {m : Model} {checked : List TypeId} {d : Subject} {memo : Memo} {u : Exposure}
    (hu : u ∈ (scopeOf m checked d memo).1.surface) :
    (u.types.filterMap (m.record? (scopeOf m checked d memo).2)).length ≤ 1 := by
  have hkeeps := Model.keeps_scope (m := m) (I := fun _ => True) (Q := fun _ _ => True)
    (fun _ _ _ => ⟨trivial, trivial⟩) (fun _ _ _ => ⟨trivial, trivial⟩) checked d
  obtain ⟨helement, _⟩ := (hkeeps memo trivial).1 u hu
  have htype := class_of_mem_scopeOf hu _ List.mem_cons_self
  rw [Exposure.types, Exposure.reached]
  by_cases hc : u.classification = .record
  · have hnone : u.element = none := by simpa [hc, Classification.element?] using helement
    rw [hnone]
    exact List.length_filterMap_le _ _
  · have hrecord : m.record? (scopeOf m checked d memo).2 u.type = none := by
      rw [Model.record?, ← htype, if_neg hc]
    rw [List.map_cons, List.filterMap_cons_none hrecord]
    refine (List.length_filterMap_le _ _).trans ?_
    cases u.element <;> simp

/-- `recordContract` speaks once of each use that reaches a record without a contract, and once of each public property
without a mark of each record that is reached, however often that is; with the properties it names the first use. No
use reaches two records. -/
theorem recordContract_perm (m : Model) (checked : List TypeId) (d : Subject) (memo later : Memo)
    (severity : Severity) :
    let p := scopeOf m checked d memo
    let uses := m.recordUses p.2 p.1.surface
    let records := m.distinctRecords p.2 p.1.surface
    (applyRule p.1 ⟨.recordContract, severity⟩ later).1.Perm
      (uses.filterMap (fun (u, d) => Violation.ofRecordUse? severity u d) ++
        records.flatMap fun (u, d) => d.members.filterMap (Violation.ofRecordMember? severity u d)) ∧
    (uses.map Prod.fst).Sublist p.1.surface := by
  intro p uses records
  refine ⟨?_, m.recordUses_sublist p.2 fun u hu => length_records_le_one hu⟩
  have hall : m.graph.recordsIn (Surface.reached p.1.surface) = p.1.surface.flatMap (m.recordsOf p.2) :=
    m.recordsIn_reached p.2 fun u hu => class_of_mem_scopeOf hu
  have hrecords : (firstBy (·.1) [] (p.1.surface.flatMap (m.recordsOf p.2))).map Prod.snd = records :=
    m.firstBy_recordsOf p.2 p.1.surface
  have hperm := RuleId.recordFindingsFrom_perm p.1 [] (Surface.reached p.1.surface)
  rw [applyRule_scopeOf m checked d memo later severity (by decide)]
  rw [(scopeOf_frame m checked d memo).1] at hperm
  simp only [hall] at hperm
  refine (hperm.map (Finding.toViolation .recordContract severity)).trans (.of_eq ?_)
  rw [List.map_append, List.map_flatMap, List.map_flatMap]
  simp only [RuleId.map_recordUseFindings, RuleId.map_recordMemberFindings]
  rw [List.filterMap_eq_flatMap_toList, ← m.flatMap_recordsOf, ← hrecords, List.flatMap_map]

/-- The stamp is used twice, the second time in a list. -/
theorem recordContract_perm_parcels :
    let m : Model := ⟨Graph.parcels, {}⟩
    let p := scopeOf m [⟨3⟩] ⟨⟨3⟩, Graph.parcels.types[3], .actorClass⟩ .empty
    let uses := m.recordUses p.2 p.1.surface
    let records := m.distinctRecords p.2 p.1.surface
    uses.map (fun (u, d) => (u.method, d.name)) = [("Send", "Stamp"), ("Stamps", "Stamp")] ∧
    records.map (fun (u, d) => (u.method, d.name)) = [("Send", "Stamp")] ∧
    (applyRule p.1 ⟨.recordContract, .warning⟩ .empty).1.Perm
      (uses.filterMap (fun (u, d) => Violation.ofRecordUse? .warning u d) ++
        records.flatMap fun (u, d) => d.members.filterMap (Violation.ofRecordMember? .warning u d)) :=
  ⟨by cbv, by cbv, (recordContract_perm _ _ _ _ _ _).1⟩

end Auditor

end ActorAudit
