import ActorAudit.Symbol.Codec

/-!
# Reading back what was written

The JSON form of a record leaves out absent options and empty lists, and reading starts from a blank record
that has them absent and empty. So what a field leaves out is what its default puts back, and every graph,
violation and report is read back as it was. `Written` follows the entries of a record field by field in the
order of its schema.
-/

namespace ActorAudit

/-- The document of a written value decodes to the value. -/
def Reads {α : Type} (decode : Decoder α) (write : α → Json) : Prop :=
  ∀ a, decode (write a).toDoc = .ok a

/-! ## Scalars -/

theorem reads_string : Reads Decode.string .string := fun _ => rfl

theorem reads_path : Reads Decode.path .string := fun _ => rfl

theorem reads_bool : Reads Decode.bool .bool := fun _ => rfl

theorem natural_toDoc {limit n : Nat} (hlimit : limit ≤ UInt64.size) (hn : n < limit) (expected : String) :
    Decode.natural limit expected (Json.ofNat n).toDoc = .ok n := by
  have hvalue : (Numeral.natural n).value = .natural n := by
    have : n < UInt64.size := by omega
    simp [Numeral.value, this]
  simp [Json.ofNat, Json.toDoc, Json.numeral, Decode.natural, hvalue, hn]

theorem reads_word32 : Reads Decode.word32 fun w => .ofNat w.toNat := by
  intro w
  simp only [Decode.word32]
  rw [natural_toDoc (by decide) w.toNat_lt]
  simp [Except.map]

theorem reads_word64 : Reads Decode.word64 fun w => .ofNat w.toNat := by
  intro w
  simp only [Decode.word64]
  rw [natural_toDoc (by decide) w.toNat_lt]
  simp [Except.map]

theorem reads_choice {α : Type} {variants : List (String × α)} {name : α → String}
    (h : ∀ a, variants.lookup (name a) = some a) : Reads (Decode.choice variants) fun a => .string (name a) := by
  intro a
  simp [Json.toDoc, Decode.choice, Decode.variant, h a]

/-! ## Lists and options -/

section
variable {α : Type} {decode : Decoder α} {write : α → Json} (h : Reads decode write)
include h

theorem items_itemDocs (as : List α) : Decode.items decode (Json.itemDocs (as.map write)) = .ok as := by
  induction as with
  | nil => rfl
  | cons a as ih =>
    simp only [List.map_cons, Json.itemDocs, Decode.items, h a, ih]
    rfl

theorem reads_list : Reads (Decode.list decode) fun as => .array (as.map write) := by
  intro as
  simp only [Json.toDoc, Decode.list, items_itemDocs h as]
  rfl

/-- A decoder that refuses `null` tells a value from none. -/
theorem option_some (hnull : ∀ a, decode .null ≠ .ok a) (a : α) :
    Decode.option decode (write a).toDoc = .ok (some a) := by
  have ha := h a
  unfold Decode.option
  split
  · rename_i hdoc
    rw [hdoc] at ha
    exact absurd ha (hnull a)
  · rw [ha]
    rfl

end

/-! ## Records -/

namespace Schema

variable {α : Type}

/-- Entries that store a value in the fields of a list one after the other, where a field that is not required
may be passed over: `Written fields entries a b` takes the record `a` to `b`. -/
inductive Written : List (FieldSpec α) → List (String × Json) → α → α → Prop
  | done {a} : Written [] [] a a
  | given {f fs j entries a b c} : f.store j.toDoc a = .ok b → Written fs entries b c →
      Written (f :: fs) ((f.name, j) :: entries) a c
  | omitted {f fs entries a c} : f.isRequired = false → Written fs entries a c →
      Written (f :: fs) entries a c

/-- The fields in `before` have been read or passed over, and those seen are among them. -/
theorem readEntries_of_written {schema : Schema α} (hnodup : (schema.fields.map (·.name)).Nodup)
    {fs : List (FieldSpec α)} {entries : List (String × Json)} {a c : α} (h : Written fs entries a c) :
    ∀ (before : List (FieldSpec α)) (seen : List String), schema.fields = before ++ fs →
      (∀ f ∈ before, f.isRequired = true → f.name ∈ seen) → (∀ s ∈ seen, ∃ f ∈ before, f.name = s) →
      schema.readEntries .closed (Json.fieldDocs entries) seen a = .ok c := by
  induction h with
  | done =>
    intro before seen hfields hrequired _
    have hmissing : schema.missing? seen = none := by
      have hall : ∀ f ∈ schema.fields, f.isRequired = true → f.name ∈ seen := by
        rw [hfields, List.append_nil]
        exact hrequired
      simpa [missing?] using hall
    simp [Json.fieldDocs, readEntries, hmissing]
  | @given f fs j entries a b c hstore _ ih =>
    intro before seen hfields hrequired hseen
    have hbefore : ∀ g ∈ before, g.name ≠ f.name := by
      rw [hfields, List.map_append, List.nodup_append] at hnodup
      intro g hg
      exact hnodup.2.2 _ (List.mem_map_of_mem hg) _ (by simp)
    have hfind : (schema.fields.find? fun g => g.name == f.name) = some f := by
      rw [List.find?_eq_some_iff_append]
      refine ⟨by simp, before, fs, hfields, fun g hg => ?_⟩
      simp [hbefore g hg]
    have hnew : seen.contains f.name = false := by
      have : f.name ∉ seen := by
        intro hmem
        obtain ⟨g, hg, hname⟩ := hseen _ hmem
        exact hbefore g hg hname
      simpa using this
    have hrest := ih (before ++ [f]) (f.name :: seen) (by simp [hfields]) ?_ ?_
    · simp only [Json.fieldDocs, readEntries, hfind, hnew, hstore]
      exact hrest
    · intro g hg hreq
      rcases List.mem_append.mp hg with hg | hg
      · exact List.mem_cons_of_mem _ (hrequired g hg hreq)
      · rw [List.mem_singleton.mp hg]
        exact List.mem_cons_self
    · intro s hs
      rcases List.mem_cons.mp hs with hs | hs
      · exact ⟨f, by simp, hs.symm⟩
      · obtain ⟨g, hg, hname⟩ := hseen s hs
        exact ⟨g, List.mem_append_left _ hg, hname⟩
  | @omitted f fs entries a c hoptional _ ih =>
    intro before seen hfields hrequired hseen
    refine ih (before ++ [f]) seen (by simp [hfields]) ?_ ?_
    · intro g hg hreq
      rcases List.mem_append.mp hg with hg | hg
      · exact hrequired g hg hreq
      · rw [List.mem_singleton.mp hg, hoptional] at hreq
        cases hreq
    · intro s hs
      obtain ⟨g, hg, hname⟩ := hseen s hs
      exact ⟨g, List.mem_append_left _ hg, hname⟩

theorem decode_of_written {schema : Schema α} {entries : List (String × Json)} {a : α}
    (hnodup : (schema.fields.map (·.name)).Nodup) (h : Written schema.fields (entries ++ []) schema.blank a) :
    schema.decode (Json.object entries).toDoc = .ok a := by
  rw [List.append_nil] at h
  simp only [Json.toDoc, decode]
  exact readEntries_of_written hnodup h [] [] rfl (by simp) (by simp)

theorem decode_null (schema : Schema α) (a : α) : schema.decode .null ≠ .ok a := by
  simp [decode]

/-! The ways in which a field is written. -/

namespace Written

variable {β : Type} {name : String} {decode : Decoder β} {write : β → Json} {fs : List (FieldSpec α)}
  {entries : List (String × Json)} {a c : α} (hread : Reads decode write)
include hread

theorem required {set : β → α → α} {b : β} (h : Written fs entries (set b a) c) :
    Written (.required name decode set :: fs) ((name, write b) :: entries) a c := by
  refine .given ?_ h
  simp [FieldSpec.required, hread b, Except.map]

theorem always {set : β → α → α} {b : β} (h : Written fs entries (set b a) c) :
    Written (.optional name decode set :: fs) ((name, write b) :: entries) a c := by
  refine .given ?_ h
  simp [FieldSpec.optional, hread b, Except.map]

/-- The record read so far has the field absent, so there is nothing to store when it is left out. -/
theorem option {set : Option β → α → α} {o : Option β} (hnull : ∀ b, decode .null ≠ .ok b)
    (hblank : set none a = a) (h : Written fs entries (set o a) c) :
    Written (.optional name (Decode.option decode) set :: fs) (Json.optionalField name write o ++ entries) a c := by
  cases o with
  | none =>
    rw [hblank] at h
    exact .omitted rfl h
  | some b =>
    refine .given ?_ h
    simp [FieldSpec.optional, option_some hread hnull b, Except.map]

theorem list {set : List β → α → α} {bs : List β} (hblank : set [] a = a) (h : Written fs entries (set bs a) c) :
    Written (.optional name (Decode.list decode) set :: fs) (Json.listField name write bs ++ entries) a c := by
  cases bs with
  | nil =>
    rw [hblank] at h
    exact .omitted rfl h
  | cons b bs => exact always (reads_list hread) h

end Written

end Schema

/-! ## The records of a report -/

open Schema (decode_of_written decode_null Written)

theorem reads_severity : Reads Severity.decode Severity.toJson := by
  refine reads_choice fun s => ?_
  cases s <;> rfl

theorem reads_location : Reads Location.decode Location.toJson := by
  intro l
  refine decode_of_written (by decide) ?_
  apply Written.required reads_path
  apply Written.required reads_word64
  apply Written.required reads_word64
  exact .done

theorem reads_label : Reads Label.decode Label.toJson := by
  intro l
  refine decode_of_written (by decide) ?_
  apply Written.required reads_location
  apply Written.required reads_string
  exact .done

theorem reads_suggestion : Reads Violation.suggestionSchema.decode Violation.suggestionToJson := by
  intro s
  refine decode_of_written (by decide) ?_
  apply Written.required reads_string
  exact .done

theorem reads_violation : Reads Violation.decode Violation.toJson := by
  intro v
  refine decode_of_written (by decide) ?_
  simp only [List.append_assoc]
  apply Written.required reads_string
  apply Written.required reads_string
  apply Written.required reads_severity
  apply Written.required reads_location
  apply Written.required reads_string
  apply Written.option reads_suggestion (decode_null _) rfl
  apply Written.list reads_label rfl
  exact .done

theorem reads_report : Reads Report.decode Report.toJson := by
  intro r
  refine decode_of_written (by decide) ?_
  apply Written.required (reads_list reads_violation)
  apply Written.required reads_word64
  exact .done

/-! ## The records of a graph -/

theorem reads_typeId : Reads TypeId.decode TypeId.toJson := by
  intro id
  have h : Decode.word32 id.toJson.toDoc = .ok id.index := reads_word32 id.index
  simp [TypeId.decode, h, Except.map]

theorem reads_typeKind : Reads TypeKind.decode fun k => .string k.name := by
  refine reads_choice fun k => ?_
  cases k <;> rfl

theorem reads_accessibility : Reads Accessibility.decode fun x => .string x.name := by
  refine reads_choice fun x => ?_
  cases x <;> rfl

theorem reads_memberKind : Reads MemberKind.decode fun k => .string k.name := by
  refine reads_choice fun k => ?_
  cases k <;> rfl

theorem reads_attribute : Reads Attribute.decode Attribute.toJson := by
  intro x
  refine decode_of_written (by decide) ?_
  simp only [List.append_assoc]
  apply Written.required reads_string
  apply Written.option reads_string (by simp [Decode.string]) rfl
  exact .done

theorem reads_constructor : Reads Constructor.decode Constructor.toJson := by
  intro x
  refine decode_of_written (by decide) ?_
  apply Written.always reads_accessibility
  apply Written.always reads_word64
  exact .done

theorem typeId_null (id : TypeId) : TypeId.decode .null ≠ .ok id := by
  simp [TypeId.decode, Decode.word32, Decode.natural, Except.map]

theorem reads_member : Reads Member.decode Member.toJson := by
  intro m
  refine decode_of_written (by decide) ?_
  simp only [List.append_assoc]
  apply Written.required reads_string
  apply Written.always reads_memberKind
  apply Written.always reads_accessibility
  apply Written.option reads_typeId typeId_null rfl
  apply Written.list reads_attribute rfl
  apply Written.option reads_location (decode_null _) rfl
  exact .done

theorem reads_parameter : Reads Parameter.decode Parameter.toJson := by
  intro p
  refine decode_of_written (by decide) ?_
  simp only [List.append_assoc]
  apply Written.required reads_string
  apply Written.required reads_typeId
  apply Written.option reads_location (decode_null _) rfl
  exact .done

theorem reads_method : Reads Method.decode Method.toJson := by
  intro m
  refine decode_of_written (by decide) ?_
  simp only [List.append_assoc]
  apply Written.required reads_string
  apply Written.always (reads_list reads_parameter)
  apply Written.option reads_typeId typeId_null rfl
  apply Written.option reads_typeId typeId_null rfl
  apply Written.option reads_location (decode_null _) rfl
  exact .done

theorem reads_typeSymbol : Reads TypeSymbol.decode TypeSymbol.toJson := by
  intro d
  refine decode_of_written (by decide) ?_
  simp only [List.append_assoc]
  apply Written.required reads_string
  apply Written.option reads_string (by simp [Decode.string]) rfl
  apply Written.required reads_typeKind
  apply Written.list reads_attribute rfl
  apply Written.option reads_typeId typeId_null rfl
  apply Written.list reads_typeId rfl
  -- a list that the host gave is written even when it is empty
  apply Written.option (reads_list reads_typeId) (by simp [Decode.list]) rfl
  apply Written.list reads_constructor rfl
  apply Written.list reads_member rfl
  apply Written.list reads_method rfl
  apply Written.list reads_typeId rfl
  apply Written.option reads_typeId typeId_null rfl
  apply Written.option reads_location (decode_null _) rfl
  apply Written.always reads_bool
  exact .done

theorem reads_graph : Reads Graph.decode Graph.toJson := by
  intro g
  refine decode_of_written (by decide) ?_
  apply Written.always (reads_list reads_typeSymbol)
  apply Written.always (reads_list reads_typeId)
  exact .done

/-- What is written as JSON is read back as it was: every graph, every violation and every report. -/
theorem decode_toDoc_toJson :
    (∀ g : Graph, Graph.decode g.toJson.toDoc = .ok g) ∧
    (∀ v : Violation, Violation.decode v.toJson.toDoc = .ok v) ∧
    ∀ r : Report, Report.decode r.toJson.toDoc = .ok r :=
  ⟨reads_graph, reads_violation, reads_report⟩

end ActorAudit
