import ActorAudit.CommandLine.Log.Journal
import ActorAudit.CommandLine.SettingsSource
import ActorAudit.CommandLine.Output
import ActorAudit.Json.Reader
import ActorAudit.Symbol.Codec
import ActorAudit.Text.Blank

/-!
# The check command

Checks a list of graphs with one configuration. Nothing is printed unless every graph can be read; the
exit code says whether a finding reaches the threshold.
-/

namespace ActorAudit.CommandLine

structure Outcome where
  exitCode : Nat
  output : String := ""
  /-- Why the run failed. -/
  error : Option String := none
  log : List Log.Line := []
  /-- A file to write, with its content. -/
  writes : Option (String × String) := none
deriving DecidableEq, Repr

def Outcome.failure (message : String) (log : List Log.Line) : Outcome :=
  { exitCode := 1, error := some message, log := log }

/-! ## Choosing rules -/

/-- Takes out the item at an index; the last item fills the gap. -/
def swapRemove {α : Type} (items : List α) (i : Nat) : List α :=
  match items.getLast? with
  | some last => items.dropLast.set i last
  | none => []

/-- The rules that are left to choose from, in any order, and those chosen, in the order they were. -/
structure Choice where
  available : List Rule
  selected : List Rule

/-- Chooses the rule that a name mentions, if it is left. -/
def Choice.mention (c : Choice) (name : String) : Choice :=
  match c.available.findIdx? fun r => r.id.isNamed name with
  | some i => ⟨swapRemove c.available i, c.selected ++ c.available[i]?.toList⟩
  | none => c

/-- The rules a list of names mentions, each once, in the order they are first mentioned. -/
def mentionedRules (names : List String) : List Rule :=
  ((names.filter fun n => !n.isEmpty).foldl Choice.mention ⟨Rule.all, []⟩).selected

def unknownNames (names : List String) : List String :=
  names.filter fun n => !n.isEmpty && !RuleId.all.any fun r => r.isNamed n

def ruleNames (list : String) : List String := (Text.commaSeparated list).map Text.trim

/-- The rules of a run and what is told about them, or why there are none. -/
def chooseRules (options : CheckFlags) (settings : Settings) :
    Except String (List Rule × List Log.Line) :=
  match options.rules with
  | some list =>
    let names := ruleNames list
    .ok (mentionedRules names,
      (unknownNames names).map fun n => ⟨.warn, .command, s!"Unknown rule: {n}"⟩)
  | none =>
    match settings.preset.elim (.ok .recommended) Preset.ofName with
    | .ok preset => .ok (preset.rules, [⟨.debug, .command, s!"Using preset {preset.name}"⟩])
    | .error name => .error (Preset.unknownMessage name)

/-! ## Settings -/

def CheckFlags.adjust (options : CheckFlags) (s : Settings) : Settings :=
  { s with
    audit := { s.audit with
      excludeGenerated := s.audit.excludeGenerated && !options.includeGenerated
      concurrent := s.audit.concurrent && !options.sequential } }

/-- The settings in a file; `text` is what the file holds, if it can be read. -/
def loadSettings (source : SettingsSource) (text : Option String) : Option Settings :=
  match source with
  | .default => some {}
  | _ => text.bind Settings.parse?

/-! ## Running -/

def parseGraph? (text : String) : Option Graph :=
  match Json.decode Graph.decode text with
  | .ok g => some g
  | .error _ => none

/-- Audits graphs one after the other, given as paths and texts, up to the first that cannot be read.
Gives the report on all, or the path that failed; and the log. -/
def auditAll (a : Auditor) (report : Report) (log : List Log.Line) :
    List (String × Option String) → Except String Report × List Log.Line
  | [] => (.ok report, log)
  | (path, text) :: rest =>
    match text.bind parseGraph? with
    | none => (.error path, log)
    | some g =>
      auditAll a (report ++ a.audit g)
        (log ++ ⟨.info, .command, s!"Analyzing {path} with {a.rules.length} rules"⟩ :: a.journal g)
        rest

def checkWith (draw : Diagnostic → String) (a : Auditor) (failOn : Severity) (format : Format) (log : List Log.Line)
    (graphs : List (String × Option String)) : Outcome :=
  match auditAll a .empty log graphs with
  | (.error path, log) => .failure s!"Failed to load symbol graph: {path}" log
  | (.ok report, log) =>
    { exitCode := if report.failsAt failOn then 1 else 0
      output := renderReport draw report format
      log := log }

/-- The check command: `configText` is the content of the configuration file, and every graph is given
with its path and its content, where they can be read. -/
def check (draw : Diagnostic → String) (options : CheckFlags) (source : SettingsSource) (configText : Option String)
    (graphs : List (String × Option String)) : Outcome :=
  let log := source.journal
  match loadSettings source configText with
  | none => .failure s!"Failed to load {source.kind} config" log
  | some settings =>
    let settings := options.adjust settings
    match chooseRules options settings with
    | .error message => .failure message log
    | .ok (rules, told) =>
      match Auditor.build rules options.exclude settings with
      | .error _ => .failure "Failed to build analyzer" (log ++ told)
      | .ok a =>
        match a.settings.threshold with
        | .error name => .failure (BuildError.invalidSetting name) (log ++ told)
        | .ok failOn => checkWith draw a failOn options.format (log ++ told) graphs

end ActorAudit.CommandLine
