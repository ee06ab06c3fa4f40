import ActorAudit.Report.Codec
import ActorAudit.Settings.Basic

/-!
# Settings as documents

The schemas of settings, and their JSON form. Fields that are not set are written as `null`.
-/

namespace ActorAudit

open FieldSpec (required optional)

namespace QualifiedName

def schema : Schema QualifiedName where
  name := "TypeIdentity"
  blank := ⟨"", ""⟩
  fields := [
    required "name" Decode.string fun v t => { t with name := v },
    required "namespace" Decode.string fun v t => { t with inNamespace := v }]

def decode : Decoder QualifiedName := schema.decode

def toJson (t : QualifiedName) : Json :=
  .object [("name", .string t.name), ("namespace", .string t.inNamespace)]

end QualifiedName

namespace Framework

def schema : Schema Framework where
  name := "FrameworkConfig"
  blank := {}
  fields := [
    optional "actor_base" QualifiedName.decode fun v f => { f with actorBase := v },
    optional "capability_interface" QualifiedName.decode fun v f => { f with marker := v },
    optional "async_wrapper" QualifiedName.decode fun v f => { f with asyncWrapper := v },
    optional "actor_interface_suffix" Decode.string fun v f => { f with contractSuffix := v }]

def decode : Decoder Framework := schema.decode

def toJson (f : Framework) : Json :=
  .object [
    ("actor_base", f.actorBase.toJson),
    ("capability_interface", f.marker.toJson),
    ("async_wrapper", f.asyncWrapper.toJson),
    ("actor_interface_suffix", .string f.contractSuffix)]

end Framework

namespace RuleSettings

def schema : Schema RuleSettings where
  name := "RuleConfig"
  blank := {}
  fields := [
    optional "enabled" (Decode.option Decode.bool) fun v r => { r with enabled := v },
    optional "severity" (Decode.option Severity.decode) fun v r => { r with severity := v }]

def decode : Decoder RuleSettings := schema.decode

def toJson (r : RuleSettings) : Json :=
  .object [
    ("enabled", Json.ofOption .bool r.enabled),
    ("severity", Json.ofOption Severity.toJson r.severity)]

end RuleSettings

namespace AuditSettings

def schema : Schema AuditSettings where
  name := "AnalyzerConfig"
  blank := {}
  fields := [
    optional "exclude" (Decode.list Decode.string) fun v a => { a with exclude := v },
    optional "exclude_generated" Decode.bool fun v a => { a with excludeGenerated := v },
    optional "concurrent" Decode.bool fun v a => { a with concurrent := v },
    optional "parallelism" (Decode.option Decode.word64) fun v a => { a with parallelism := v }]

def decode : Decoder AuditSettings := schema.decode

def toJson (a : AuditSettings) : Json :=
  .object [
    ("exclude", .array (a.exclude.map .string)),
    ("exclude_generated", .bool a.excludeGenerated),
    ("concurrent", .bool a.concurrent),
    ("parallelism", Json.ofOption (fun n => .ofNat n.toNat) a.parallelism)]

end AuditSettings

namespace Settings

def schema : Schema Settings where
  name := "Config"
  blank := {}
  fields := [
    optional "preset" (Decode.option Decode.string) fun v s => { s with preset := v },
    optional "fail_on" (Decode.option Decode.string) fun v s => { s with failOn := v },
    optional "analyzer" AuditSettings.decode fun v s => { s with audit := v },
    optional "framework" Framework.decode fun v s => { s with framework := v },
    optional "rules" (Decode.table RuleSettings.decode) fun v s => { s with rules := v }]

def decode : Decoder Settings := schema.decode

end Settings

end ActorAudit
