import ActorAudit.CommandLine.Arguments
import ActorAudit.Json.Writer
import ActorAudit.Report.Codec
import ActorAudit.Rule.Basic

/-!
# Output

Reports and lists of rules as texts.
-/

namespace ActorAudit

namespace CommandLine

def escapeCode (n : Nat) : String := s!"\x1b[{n}m"

def colored (color : Nat) (s : String) : String := escapeCode color ++ s ++ escapeCode 0

def severityColor : Severity → Nat
  | .error => 31
  | .warning => 33
  | .info => 34

/-- The counts in one line, in the color of the worst finding. -/
def summaryLine (r : Report) : String :=
  let color := if 0 < r.count .error then 31 else if 0 < r.count .warning then 33 else 32
  colored color s!"Found {r.tally}" ++ "\n"

def textBlock (v : Violation) : String :=
  s!"{v.code} {v.rule} at {v.location.text}\n" ++
    s!"  {colored (severityColor v.severity) v.severity.name}: {v.message}\n" ++
    String.join (v.labels.map fun l => s!"  = note: {l.message} ({l.location.text})\n") ++
    String.join (v.suggestion.toList.map fun s => s!"  = help: {s}\n") ++ "\n"

/-- The text of a report; `draw` gives the text of a diagnostic. -/
def renderReport (draw : Diagnostic → String) (r : Report) : Format → String
  | .text => String.join (r.violations.map textBlock) ++ summaryLine r
  | .json => r.toJson.pretty ++ "\n"
  | .compact => String.join (r.violations.map fun v => v.line ++ "\n")
  | .pretty => String.join (r.violations.map fun v => draw v.diagnostic ++ "\n") ++ summaryLine r

/-! ## Drawing -/

def severitySign : Severity → String
  | .error => "×"
  | .warning => "⚠"
  | .info => "☞"

/-- A diagnostic without bars and without wrapping. -/
def drawPlain (d : Diagnostic) : String :=
  s!"{d.code}\n\n  {severitySign d.severity} {d.message}\n" ++
    String.join (d.help.toList.map fun s => s!"  help: {s}\n")

/-! ## Lists of rules -/

def ruleJson (r : Rule) : Json :=
  .object [
    ("name", .string r.id.name),
    ("code", .string r.id.code),
    ("description", .string r.id.description),
    ("default_severity", r.severity.toJson),
    ("message_template", .string r.id.template)]

def padded (width : Nat) (s : String) : String :=
  s ++ String.ofList (List.replicate (width - s.length) ' ')

def ruleRow (code name severity description : String) : String :=
  s!"{padded 10 code} {padded 38 name} {padded 9 severity} {description}\n"

def presetLines : String :=
  "\nPresets:\n" ++
    "  recommended  - All rules at default severity (default)\n" ++
    "  strict       - All rules, warnings escalated to errors\n" ++
    "  minimal      - DAPR1405, DAPR1413, DAPR1414 (for gradual adoption)\n"

def filterLines : String :=
  "\nUse --rules to filter specific rules, e.g.:\n" ++
    "  actor-lint check --rules record-needs-contract,actor-missing-capability symbols.json\n" ++
    "  actor-lint check --rules DAPR1405,DAPR1413 symbols.json\n"

def ruleTable : String :=
  "Available rules:\n\n" ++ ruleRow "Code" "Name" "Severity" "Description" ++
    String.ofList (List.replicate 110 '-') ++ "\n" ++
    String.join (Rule.all.map fun r =>
      ruleRow r.id.code r.id.name r.severity.name r.id.description) ++
    presetLines ++ filterLines

def ruleList (json : Bool) : String :=
  if json then (Json.array (Rule.all.map ruleJson)).pretty ++ "\n" else ruleTable

end CommandLine

end ActorAudit
