import ActorAudit.Document.Schema
import ActorAudit.Json.Value
import ActorAudit.Report.Basic

/-!
# Reports as JSON

The JSON form of locations, labels, violations and reports, and the schemas that read it back.
-/

namespace ActorAudit

open FieldSpec (required optional)

namespace Severity

def variants : List (String × Severity) :=
  [("info", info), ("warning", warning), ("error", error)]

def decode : Decoder Severity := Decode.choice variants

def toJson (s : Severity) : Json := .string s.name

end Severity

namespace Location

def schema : Schema Location where
  name := "Location"
  blank := ⟨"", 0, 0⟩
  fields := [
    required "file" Decode.path fun v l => { l with file := v },
    required "line" Decode.word64 fun v l => { l with line := v },
    required "column" Decode.word64 fun v l => { l with column := v }]

def decode : Decoder Location := schema.decode

def toJson (l : Location) : Json :=
  .object [
    ("file", .string l.file),
    ("line", .ofNat l.line.toNat),
    ("column", .ofNat l.column.toNat)]

end Location

namespace Label

def schema : Schema Label where
  name := "Label"
  blank := ⟨Location.schema.blank, ""⟩
  fields := [
    required "location" Location.decode fun v l => { l with location := v },
    required "message" Decode.string fun v l => { l with message := v }]

def decode : Decoder Label := schema.decode

def toJson (l : Label) : Json :=
  .object [("location", l.location.toJson), ("message", .string l.message)]

end Label

namespace Violation

/-- A suggestion is a record of its own, with a message only. -/
def suggestionSchema : Schema String where
  name := "Suggestion"
  blank := ""
  fields := [required "message" Decode.string fun v _ => v]

def suggestionToJson (s : String) : Json := .object [("message", .string s)]

def schema : Schema Violation where
  name := "Violation"
  blank := ⟨"", "", .info, Location.schema.blank, "", none, []⟩
  fields := [
    required "code" Decode.string fun v x => { x with code := v },
    required "rule" Decode.string fun v x => { x with rule := v },
    required "severity" Severity.decode fun v x => { x with severity := v },
    required "location" Location.decode fun v x => { x with location := v },
    required "message" Decode.string fun v x => { x with message := v },
    optional "suggestion" (Decode.option suggestionSchema.decode) fun v x =>
      { x with suggestion := v },
    optional "labels" (Decode.list Label.decode) fun v x => { x with labels := v }]

def decode : Decoder Violation := schema.decode

def toJson (v : Violation) : Json :=
  .object (
    [("code", .string v.code),
      ("rule", .string v.rule),
      ("severity", v.severity.toJson),
      ("location", v.location.toJson),
      ("message", .string v.message)] ++
    Json.optionalField "suggestion" suggestionToJson v.suggestion ++
    Json.listField "labels" Label.toJson v.labels)

end Violation

namespace Report

def schema : Schema Report where
  name := "LintResult"
  blank := .empty
  fields := [
    required "violations" (Decode.list Violation.decode) fun v r => { r with violations := v },
    required "declarations_checked" Decode.word64 fun v r => { r with checked := v }]

def decode : Decoder Report := schema.decode

def toJson (r : Report) : Json :=
  .object [
    ("violations", .array (r.violations.map Violation.toJson)),
    ("declarations_checked", .ofNat r.checked.toNat)]

end Report

end ActorAudit
