import ActorAudit.Document.Error

/-!
# Schemas

Decoders from document trees to values. The errors are met in document order, so the first fault of
the document is the one reported.

A record is decoded through its `Schema`: fields are read as they come and stored in a blank record.
A record may also be given as the list of its fields.
-/

namespace ActorAudit

abbrev Decoder (α : Type) := Doc → Except DecodeError α

namespace Decode

def string : Decoder String
  | .text (some s) => .ok s
  | d => .error (d.mismatch "a string")

def path : Decoder String
  | .text (some s) => .ok s
  | d => .error (d.mismatch "path string")

def bool : Decoder Bool
  | .bool b => .ok b
  | d => .error (d.mismatch "a boolean")

def natural (limit : Nat) (expected : String) (d : Doc) : Except DecodeError Nat :=
  match d with
  | .number n =>
    match n.value with
    | .natural k => if k < limit then .ok k else .error (.invalidValue (.integer k) expected)
    | .negative k => .error (.invalidValue (.integer (-k)) expected)
    | _ => .error (d.mismatch expected)
  | _ => .error (d.mismatch expected)

def word32 (d : Doc) : Except DecodeError UInt32 :=
  (natural UInt32.size "u32" d).map UInt32.ofNat

def word64 (d : Doc) : Except DecodeError UInt64 :=
  (natural UInt64.size "usize" d).map UInt64.ofNat

def unit : Decoder Unit
  | .null => .ok ()
  | .list [] .lenient => .ok ()
  | .record [] .lenient => .ok ()
  | d => .error (d.mismatch "unit")

/-- `null` stands for none. -/
def option {α : Type} (inner : Decoder α) : Decoder (Option α)
  | .null => .ok none
  | d => (inner d).map some

def items {α : Type} (item : Decoder α) : List Doc → Except DecodeError (List α)
  | [] => .ok []
  | d :: ds => do
    let a ← item d
    let as ← items item ds
    return a :: as

/-- Passes `a` on unless the text breaks off. -/
def finish {α : Type} (ending : Ending) (a : α) : Except DecodeError α :=
  if ending = .cut then .error .malformed else .ok a

def list {α : Type} (item : Decoder α) : Decoder (List α)
  | .list ds ending => do
    let as ← items item ds
    finish ending as
  | d => .error (d.mismatch "a sequence")

def entries {α : Type} (item : Decoder α) :
    List (Option String × Doc) → Except DecodeError (List (String × α))
  | [] => .ok []
  | (none, _) :: _ => .error .malformed
  | (some key, d) :: es => do
    let a ← item d
    let rest ← entries item es
    return (key, a) :: rest

def table {α : Type} (item : Decoder α) : Decoder (List (String × α))
  | .record es ending => do
    let rows ← entries item es
    finish ending rows
  | d => .error (d.mismatch "a map")

def variant {α : Type} (variants : List (String × α)) (name : String) : Except DecodeError α :=
  match variants.lookup name with
  | some a => .ok a
  | none => .error (.unknownVariant name (variants.map (·.1)))

/-- One of a list of names, or a record whose only key is one and whose value is empty. -/
def choice {α : Type} (variants : List (String × α)) : Decoder α
  | .text (some name) => variant variants name
  | .record ((some name, d) :: rest) ending => do
    let a ← variant variants name
    unit d
    if rest.isEmpty then finish ending a else .error .malformed
  | _ => .error .malformed

end Decode

/-- A field of a record: how a value of it is stored. -/
structure FieldSpec (α : Type) where
  name : String
  isRequired : Bool
  store : Doc → α → Except DecodeError α

namespace FieldSpec

def required {α β : Type} (name : String) (decode : Decoder β) (set : β → α → α) : FieldSpec α :=
  ⟨name, true, fun d a => (decode d).map (set · a)⟩

/-- A field that keeps the value of the blank record when it is not given. -/
def optional {α β : Type} (name : String) (decode : Decoder β) (set : β → α → α) : FieldSpec α :=
  ⟨name, false, fun d a => (decode d).map (set · a)⟩

end FieldSpec

structure Schema (α : Type) where
  name : String
  blank : α
  fields : List (FieldSpec α)

namespace Schema

variable {α : Type}

def missing? (schema : Schema α) (seen : List String) : Option String :=
  (schema.fields.find? fun f => f.isRequired && !seen.contains f.name).map (·.name)

/-- Reads named fields in document order. -/
def readEntries (schema : Schema α) (ending : Ending) :
    List (Option String × Doc) → List String → α → Except DecodeError α
  | [], seen, a =>
    if ending = .cut then .error .malformed
    else
      match schema.missing? seen with
      | some name => .error (.missingField name)
      | none => .ok a
  | (none, _) :: _, _, _ => .error .malformed
  | (some key, d) :: es, seen, a =>
    match schema.fields.find? fun f => f.name == key with
    | some f =>
      if seen.contains key then .error (.duplicateField key)
      else do
        let a ← f.store d a
        readEntries schema ending es (key :: seen) a
    | none => if d.isIntact then readEntries schema ending es seen a else .error .malformed

/-- Reads fields by position; `index` is the position of the next one. -/
def readItems (schema : Schema α) (ending : Ending) :
    List (FieldSpec α) → List Doc → Nat → α → Except DecodeError α
  | [], [], _, a => Decode.finish ending a
  | [], _ :: _, _, a => if ending = .lenient then .ok a else .error .malformed
  | f :: fs, d :: ds, index, a => do
    let a ← f.store d a
    readItems schema ending fs ds (index + 1) a
  | f :: fs, [], index, a =>
    if ending = .cut then .error .malformed
    else if f.isRequired then .error (.invalidLength index schema.name schema.fields.length)
    else readItems schema ending fs [] (index + 1) a

def decode (schema : Schema α) : Decoder α
  | .record es ending => schema.readEntries ending es [] schema.blank
  | .list ds ending => schema.readItems ending schema.fields ds 0 schema.blank
  | d => .error (d.mismatch ("struct " ++ schema.name))

end Schema

end ActorAudit
