import ActorAudit.CommandLine.Output
import ActorAudit.Proofs.JsonText
import ActorAudit.Text.Split

/-!
# What the text of a report tells

The texts for a reader are lines that stand one after the other: those of the findings in their order, and a last one
with the counts of all reports together. How a diagnostic is drawn is left open. The text for a program reads back as
the report.
-/

namespace ActorAudit

/-! ## Lines -/

namespace Text

theorem toString_eq (s : String) : toString s = s := rfl

/-- Lines one after the other, each with a line break behind it. -/
def unlines (lines : List String) : String := String.join (lines.map (· ++ "\n"))

theorem unlines_append (lines lines' : List String) : unlines (lines ++ lines') = unlines lines ++ unlines lines' := by
  rw [unlines, List.map_append, String.join_append]
  rfl

theorem unlines_flatMap {α : Type} (f : α → List String) (as : List α) :
    unlines (as.flatMap f) = String.join (as.map fun a => unlines (f a)) := by
  induction as with
  | nil => rfl
  | cons a as ih => rw [List.flatMap_cons, unlines_append, ih, List.map_cons, String.join_cons]

/-- Cut at its line breaks, the text falls into its lines, where none of them holds one. -/
theorem splitAtChar_unlines {lines : List String} (h : ∀ line ∈ lines, '\n' ∉ line.toList) :
    splitAtChar '\n' (unlines lines).toList = lines.map String.toList ++ [[]] := by
  induction lines with
  | nil => rfl
  | cons line lines ih =>
    have htext : (unlines (line :: lines)).toList = line.toList ++ '\n' :: (unlines lines).toList := by simp [unlines]
    rw [htext, splitAtChar_append (h line List.mem_cons_self), ih fun l hl => h l (List.mem_cons_of_mem line hl)]
    rfl

end Text

/-! ## Findings -/

namespace Violation

/-- A finding in one line: its place, how severe it is, its code and its message. -/
def compactLine (v : Violation) : String :=
  s!"{v.location.file}:{v.location.line}:{v.location.column}: {v.severity.name} [{v.code}] {v.message}"

/-- How a color begins in the text of a finding. -/
def colorCode : Severity → String
  | .error => "\x1b[31m"
  | .warning => "\x1b[33m"
  | .info => "\x1b[34m"

/-- A finding in full: its code, its rule and its place; how severe it is, in color, and its message; a note for every
label; the suggestion, if there is one; and an empty line. -/
def textLines (v : Violation) : List String :=
  [s!"{v.code} {v.rule} at {v.location.file}:{v.location.line}:{v.location.column}",
    s!"  {colorCode v.severity}{v.severity.name}\x1b[0m: {v.message}"] ++
  (v.labels.map fun l => s!"  = note: {l.message} ({l.location.file}:{l.location.line}:{l.location.column})") ++
  (v.suggestion.toList.map fun s => s!"  = help: {s}") ++ [""]

/-- What is drawn of a finding: its place stands behind its message. -/
def drawn (v : Violation) : Diagnostic where
  code := v.code
  message := s!"{v.message} ({v.location.file}:{v.location.line}:{v.location.column})"
  severity := v.severity
  help := v.suggestion

theorem line_eq (v : Violation) : v.line = v.compactLine := rfl

theorem diagnostic_eq (v : Violation) : v.diagnostic = v.drawn := by
  have hmessage : v.headline = v.drawn.message := by
    rw [← String.toList_inj]
    simp [headline, drawn, Location.text, Text.toString_eq]
  rw [diagnostic, hmessage]
  rfl

theorem textBlock_eq (v : Violation) : CommandLine.textBlock v = Text.unlines v.textLines := by
  have hcolor : CommandLine.colored (CommandLine.severityColor v.severity) v.severity.name =
      s!"{colorCode v.severity}{v.severity.name}\x1b[0m" := by
    cases v.severity <;> rfl
  have hnote (l : Label) : s!"  = note: {l.message} ({l.location.text})\n" =
      s!"  = note: {l.message} ({l.location.file}:{l.location.line}:{l.location.column})" ++ "\n" := by
    rw [← String.toList_inj]
    simp [Location.text, Text.toString_eq]
  rw [← String.toList_inj, CommandLine.textBlock, hcolor]
  simp only [hnote]
  simp [textLines, Text.unlines, Location.text, Text.toString_eq, Function.comp_def]

end Violation

/-! ## Reports -/

namespace Report

/-- Reports put together: the findings of all in their order, and the declarations of all. -/
def concat (reports : List Report) : Report :=
  ⟨reports.flatMap (·.violations), UInt64.ofNat (reports.map (·.checked.toNat)).sum⟩

/-- How many findings of a severity there are in reports. -/
def total (reports : List Report) (s : Severity) : Nat :=
  (reports.map fun r => r.violations.countP (·.severity = s)).sum

theorem count_concat (reports : List Report) (s : Severity) : (concat reports).count s = total reports s := by
  rw [count, bySeverity, ← List.countP_eq_length_filter, concat, List.countP_flatMap]
  rfl

/-- The counts over reports in one line, in the color of the worst finding. -/
def totalLine (reports : List Report) : String :=
  let color := if 0 < total reports .error then 31 else if 0 < total reports .warning then 33 else 32
  s!"\x1b[{color}mFound {total reports .error} error(s), {total reports .warning} warning(s), " ++
    s!"{total reports .info} info(s) in {(concat reports).checked} declaration(s)\x1b[0m"

theorem summaryLine_eq (reports : List Report) :
    CommandLine.summaryLine (concat reports) = Text.unlines [totalLine reports] := by
  rw [← String.toList_inj, CommandLine.summaryLine]
  simp only [count_concat, tally]
  simp [totalLine, Text.unlines, Text.toString_eq, CommandLine.colored, CommandLine.escapeCode]

end Report

namespace CommandLine

/-- What a text in a format tells of reports. -/
inductive Shows (draw : Diagnostic → String) (reports : List Report) : Format → String → Prop
  /-- Every finding in full, and the counts. -/
  | text : Shows draw reports .text
      (Text.unlines (reports.flatMap (·.violations.flatMap Violation.textLines) ++ [Report.totalLine reports]))
  /-- The text reads back as the reports put together. -/
  | json {s : String} : Json.decode Report.decode s = .ok (Report.concat reports) → Shows draw reports .json s
  /-- A line for every finding. -/
  | compact : Shows draw reports .compact (Text.unlines (reports.flatMap (·.violations.map Violation.compactLine)))
  /-- Every finding as it is drawn, and the counts. -/
  | pretty : Shows draw reports .pretty
      (Text.unlines (reports.flatMap (·.violations.map fun v => draw v.drawn) ++ [Report.totalLine reports]))

/-- Lines that are printed for every finding of reports put together. -/
theorem unlines_findings (reports : List Report) (f : Violation → List String) :
    Text.unlines (reports.flatMap (·.violations.flatMap f)) =
      String.join ((Report.concat reports).violations.map fun v => Text.unlines (f v)) := by
  rw [← List.flatMap_assoc, Text.unlines_flatMap]
  rfl

theorem shows_renderReport (draw : Diagnostic → String) (reports : List Report) (format : Format) :
    Shows draw reports format (renderReport draw (Report.concat reports) format) := by
  cases format with
  | text =>
    have hblock : textBlock = fun v => Text.unlines v.textLines := funext Violation.textBlock_eq
    rw [renderReport, hblock, Report.summaryLine_eq, ← unlines_findings, ← Text.unlines_append]
    exact .text
  | json => exact .json (Json.decode_pretty reads_report _)
  | compact =>
    have hline (v : Violation) : v.line ++ "\n" = Text.unlines [v.compactLine] := by simp [Text.unlines, v.line_eq]
    simp only [renderReport, hline]
    rw [← unlines_findings]
    simp only [← List.map_eq_flatMap]
    exact .compact
  | pretty =>
    have hdraw (v : Violation) : draw v.diagnostic ++ "\n" = Text.unlines [draw v.drawn] := by
      simp [Text.unlines, v.diagnostic_eq]
    simp only [renderReport, hdraw, Report.summaryLine_eq]
    rw [← unlines_findings, ← Text.unlines_append]
    simp only [← List.map_eq_flatMap]
    exact .pretty

/-- Cut at its line breaks, a compact text has one line for every finding, where the findings hold no line break. -/
theorem Shows.lines {draw : Diagnostic → String} {reports : List Report} {s : String}
    (h : Shows draw reports .compact s)
    (hbreak : ∀ r ∈ reports, ∀ v ∈ r.violations, '\n' ∉ v.compactLine.toList) :
    Text.splitAtChar '\n' s.toList = reports.flatMap (·.violations.map (·.compactLine.toList)) ++ [[]] := by
  cases h
  rw [Text.splitAtChar_unlines, List.map_flatMap]
  · simp only [List.map_map]
    rfl
  · intro line hline
    obtain ⟨r, hr, hline⟩ := List.mem_flatMap.mp hline
    obtain ⟨v, hv, rfl⟩ := List.mem_map.mp hline
    exact hbreak r hr v hv

end CommandLine

end ActorAudit
