import ActorAudit.CommandLine.Check
import ActorAudit.Proofs.ReportTexts
import ActorAudit.Proofs.Severities

/-!
# Runs of the check command

A run reads its graphs one after the other and adds each report to those before. It prints once, after the last
graph, or not at all; and its exit code is decided on the findings of all graphs together, by the threshold that the
settings were built with.
-/

namespace ActorAudit

namespace Report

theorem append_concat_nil (r : Report) : r ++ concat [] = r := by
  show Report.mk (r.violations ++ []) (r.checked + 0) = r
  rw [List.append_nil, UInt64.add_zero]

theorem append_concat_cons (r s : Report) (reports : List Report) :
    r ++ concat (s :: reports) = r ++ s ++ concat reports := by
  show Report.mk (r.violations ++ (s.violations ++ _)) (r.checked + UInt64.ofNat (s.checked.toNat + _)) =
    Report.mk (r.violations ++ s.violations ++ _) (r.checked + s.checked + UInt64.ofNat _)
  rw [List.append_assoc, UInt64.ofNat_add, UInt64.ofNat_toNat, UInt64.add_assoc]
  rfl

theorem empty_append (r : Report) : empty ++ r = r := by
  show Report.mk ([] ++ r.violations) (0 + r.checked) = r
  rw [List.nil_append, UInt64.zero_add]

theorem failsAt_concat {reports : List Report} {s : Severity} : (concat reports).failsAt s = true ↔
    ∃ r ∈ reports, ∃ v ∈ r.violations, s ≤ v.severity := by
  simp [failsAt, concat]

end Report

namespace CommandLine

/-! ## Reading graphs -/

/-- The document of a path holds a graph. -/
def Loads (document : String × Option String) (g : Graph) : Prop := document.2.bind parseGraph? = some g

/-- A graph that was written is read back. -/
theorem loads_pretty (path : String) (g : Graph) : Loads (path, some (g.toJson.pretty ++ "\n")) g := by
  unfold Loads
  rw [Option.bind_some, parseGraph?, Json.decode_pretty reads_graph]

section
variable {a : Auditor} {document : String × Option String} {rest : List (String × Option String)}
  (report : Report) (log : List Log.Line)

/-- The step: a graph that is read adds its report. -/
theorem auditAll_cons_of_loads {g : Graph} (h : Loads document g) : ∃ log',
    auditAll a report log (document :: rest) = auditAll a (report ++ a.audit g) log' rest := by
  unfold Loads at h
  rw [auditAll, h]
  exact ⟨_, rfl⟩

theorem auditAll_cons_of_not_loads (h : ∀ g, ¬Loads document g) :
    auditAll a report log (document :: rest) = (.error document.1, log) := by
  have hnone : document.2.bind parseGraph? = none := Option.eq_none_iff_forall_ne_some.mpr h
  rw [auditAll, hnone]

end

section
variable {a : Auditor} {documents : List (String × Option String)} {gs : List Graph}

theorem auditAll_of_loads (h : List.Forall₂ Loads documents gs) (report : Report) (log : List Log.Line) :
    ∃ log', auditAll a report log documents = (.ok (report ++ Report.concat (gs.map a.audit)), log') := by
  -- the report so far is the accumulator; the reports still to come are put behind it
  induction h generalizing report log with
  | nil => exact ⟨log, by rw [List.map_nil, Report.append_concat_nil]; rfl⟩
  | cons hload _ ih =>
    obtain ⟨log', hstep⟩ := auditAll_cons_of_loads report log hload
    obtain ⟨log'', hrun⟩ := ih (report ++ a.audit _) log'
    exact ⟨log'', by rw [hstep, hrun, List.map_cons, Report.append_concat_cons]⟩

theorem auditAll_of_not_loads {before : List (String × Option String)} {document : String × Option String}
    (hbefore : ∀ d ∈ before, ∃ g, Loads d g) (h : ∀ g, ¬Loads document g)
    (report : Report) (log : List Log.Line) (after : List (String × Option String)) :
    ∃ log', auditAll a report log (before ++ document :: after) = (.error document.1, log') := by
  induction before generalizing report log with
  | nil => exact ⟨log, auditAll_cons_of_not_loads report log h⟩
  | cons d before ih =>
    obtain ⟨g, hg⟩ := hbefore d List.mem_cons_self
    obtain ⟨log', hstep⟩ := auditAll_cons_of_loads report log hg
    obtain ⟨log'', hrun⟩ := ih (fun d' hd' => hbefore d' (List.mem_cons_of_mem d hd')) (report ++ a.audit g) log'
    exact ⟨log'', by rw [List.cons_append, hstep, hrun]⟩

end

/-- The documents up to the first that holds no graph. -/
theorem exists_first_not_loads {documents : List (String × Option String)} (h : ∃ d ∈ documents, ∀ g, ¬Loads d g) :
    ∃ before document after, documents = before ++ document :: after ∧ (∀ d ∈ before, ∃ g, Loads d g) ∧
      ∀ g, ¬Loads document g := by
  induction documents with
  | nil => simp at h
  | cons d documents ih =>
    by_cases hd : ∃ g, Loads d g
    · have hrest : ∃ d ∈ documents, ∀ g, ¬Loads d g := by
        obtain ⟨d', hmem, hd'⟩ := h
        rcases List.mem_cons.mp hmem with rfl | hmem
        · obtain ⟨g, hg⟩ := hd
          exact absurd hg (hd' g)
        · exact ⟨d', hmem, hd'⟩
      obtain ⟨before, document, after, rfl, hbefore, hdocument⟩ := ih hrest
      refine ⟨d :: before, document, after, rfl, fun d' hd' => ?_, hdocument⟩
      rcases List.mem_cons.mp hd' with rfl | hd'
      · exact hd
      · exact hbefore d' hd'
    · exact ⟨[], d, documents, rfl, by simp, fun g hg => hd ⟨g, hg⟩⟩

/-! ## Outcomes -/

/-- A run has printed reports, put together, and its exit code tells whether one of their findings reaches the
threshold. -/
structure Outcome.Prints (outcome : Outcome) (draw : Diagnostic → String) (format : Format) (failOn : Severity)
    (reports : List Report) : Prop where
  output : Shows draw reports format outcome.output
  lines : format = .compact → (∀ r ∈ reports, ∀ v ∈ r.violations, '\n' ∉ v.compactLine.toList) →
    Text.splitAtChar '\n' outcome.output.toList = reports.flatMap (·.violations.map (·.compactLine.toList)) ++ [[]]
  error : outcome.error = none
  exitCode_eq_one : outcome.exitCode = 1 ↔ ∃ r ∈ reports, ∃ v ∈ r.violations, failOn ≤ v.severity
  exitCode_eq_zero : outcome.exitCode = 0 ↔ ¬∃ r ∈ reports, ∃ v ∈ r.violations, failOn ≤ v.severity

/-- A run has failed at the graph of a path and has printed nothing. -/
structure Outcome.FailsAt (outcome : Outcome) (path : String) : Prop where
  output : outcome.output = ""
  error : outcome.error = some s!"Failed to load symbol graph: {path}"
  exitCode : outcome.exitCode = 1

section
variable (draw : Diagnostic → String)

theorem prints_checkWith {a : Auditor} {documents : List (String × Option String)} {gs : List Graph}
    (h : List.Forall₂ Loads documents gs) (failOn : Severity) (format : Format) (log : List Log.Line) :
    (checkWith draw a failOn format log documents).Prints draw format failOn (gs.map a.audit) := by
  obtain ⟨log', hrun⟩ := auditAll_of_loads (a := a) h .empty log
  rw [Report.empty_append] at hrun
  unfold checkWith
  rw [hrun]
  have hshows := shows_renderReport draw (gs.map a.audit) format
  refine ⟨hshows, ?_, rfl, ?_, ?_⟩
  · rintro rfl
    exact hshows.lines
  · rw [← Report.failsAt_concat]
    simp
  · rw [← Report.failsAt_concat]
    simp

theorem failsAt_checkWith {a : Auditor} {before : List (String × Option String)}
    {document : String × Option String} (hbefore : ∀ d ∈ before, ∃ g, Loads d g) (h : ∀ g, ¬Loads document g)
    (failOn : Severity) (format : Format) (log : List Log.Line) (after : List (String × Option String)) :
    (checkWith draw a failOn format log (before ++ document :: after)).FailsAt document.1 := by
  obtain ⟨log', hrun⟩ := auditAll_of_not_loads (a := a) hbefore h .empty log after
  unfold checkWith
  rw [hrun]
  exact ⟨rfl, rfl, rfl⟩

end

section
variable (draw : Diagnostic → String) {options : CheckFlags} {source : SettingsSource} {configText : Option String}
  {settings : Settings} {rules : List Rule} {told : List Log.Line} {a : Auditor}

/-- Settings that an auditor was built with have a threshold when they are asked again. -/
theorem threshold_of_build {exclude : List String} (h : Auditor.build rules exclude settings = .ok a) :
    a.settings = settings ∧ settings.threshold = .ok a.threshold := by
  obtain ⟨excludes, t, rfl, ht, -⟩ := Auditor.of_build_eq_ok h
  exact ⟨rfl, ht⟩

theorem check_eq_checkWith (hsettings : loadSettings source configText = some settings)
    (hrules : chooseRules options (options.adjust settings) = .ok (rules, told))
    (hbuild : Auditor.build rules options.exclude (options.adjust settings) = .ok a)
    (format : Format) (documents : List (String × Option String)) :
    check draw { options with format := format } source configText documents =
      checkWith draw a a.threshold format (source.journal ++ told) documents := by
  -- neither the choice of the rules nor the settings look at the format
  have hrules' : chooseRules { options with format := format }
      (CheckFlags.adjust { options with format := format } settings) = .ok (rules, told) := hrules
  have hbuild' : Auditor.build rules options.exclude
      (CheckFlags.adjust { options with format := format } settings) = .ok a := hbuild
  obtain ⟨hsame, hthreshold⟩ := threshold_of_build hbuild
  unfold check
  simp only [hsettings, hrules', hbuild', hsame, hthreshold]

/-- Settings that an auditor can be built with have a threshold, which is `error` unless they set it. With it, and
whatever the format and the drawing, a run over documents that all hold graphs prints the reports on all of them; a run
over documents of which one does not fails at the first such one. -/
theorem check_spec (hsettings : loadSettings source configText = some settings)
    (hrules : chooseRules options (options.adjust settings) = .ok (rules, told))
    (hbuild : Auditor.build rules options.exclude (options.adjust settings) = .ok a) :
    ∃ failOn, a.settings.threshold = .ok failOn ∧ (settings.failOn = none → failOn = .error) ∧
      (∀ name, settings.failOn = some name → Severity.ofName name = .ok failOn) ∧
      ∀ format documents,
        (∀ gs, List.Forall₂ Loads documents gs →
          (check draw { options with format := format } source configText documents).Prints draw format failOn
            (gs.map a.audit)) ∧
        ((∃ d ∈ documents, ∀ g, ¬Loads d g) →
          ∃ before document after, documents = before ++ document :: after ∧ (∀ d ∈ before, ∃ g, Loads d g) ∧
            (∀ g, ¬Loads document g) ∧
            (check draw { options with format := format } source configText documents).FailsAt document.1) := by
  obtain ⟨hsame, hadjusted⟩ := threshold_of_build hbuild
  -- no flag changes the threshold
  have hthreshold : settings.threshold = .ok a.threshold := hadjusted
  refine ⟨a.threshold, hsame ▸ hadjusted, ?_, ?_, fun format documents => ?_⟩
  · intro hnone
    simpa [Settings.threshold, hnone, eq_comm] using hthreshold
  · intro name hname
    simpa [Settings.threshold, hname] using hthreshold
  · rw [check_eq_checkWith draw hsettings hrules hbuild]
    constructor
    · intro gs hloads
      exact prints_checkWith draw hloads _ _ _
    · intro h
      obtain ⟨before, document, after, rfl, hbefore, hdocument⟩ := exists_first_not_loads h
      exact ⟨before, document, after, rfl, hbefore, hdocument, failsAt_checkWith draw hbefore hdocument _ _ _ _⟩

/-- A threshold from a file, an empty graph, one with an actor that has no contract, and one that cannot be read. -/
theorem check_spec_unreadable :
    let source : SettingsSource := .project "actor-lint.toml"
    let config := some "fail_on = \"warn\""
    let settings : Settings := { failOn := some "warn" }
    let a : Auditor := ⟨Rule.all, [], settings, .warning⟩
    let lone : Graph := {
      types := #[
        { name := "Actor", inNamespace := some "Dapr.Actors.Runtime", kind := .classType },
        { name := "Lone", kind := .classType, baseType := some ⟨0⟩, location := some ⟨"Lone.cs", 3, 1⟩ }],
      declarations := [⟨1⟩] }
    let documents := [("empty.json", some "\x7b\x7d"), ("lone.json", some (lone.toJson.pretty ++ "\n"))]
    loadSettings source config = some settings ∧
    chooseRules {} (CheckFlags.adjust {} settings) = .ok (Rule.all, [⟨.debug, .command, "Using preset Recommended"⟩]) ∧
    Auditor.build Rule.all [] (CheckFlags.adjust {} settings) = .ok a ∧
    List.Forall₂ Loads documents [⟨#[], []⟩, lone] ∧
    (∀ format, (check drawPlain { format := format } source config documents).Prints drawPlain format .warning
      [a.audit ⟨#[], []⟩, a.audit lone]) ∧
    ∃ path, (check drawPlain {} source config (documents ++ [("missing.json", none)])).FailsAt path := by
  intro source config settings a lone documents
  have hsettings : loadSettings source config = some settings := by cbv
  have hrules : chooseRules {} (CheckFlags.adjust {} settings) =
      .ok (Rule.all, [⟨.debug, .command, "Using preset Recommended"⟩]) := by cbv
  have hbuild : Auditor.build Rule.all [] (CheckFlags.adjust {} settings) = .ok a := by cbv
  have hempty : Loads ("empty.json", some "\x7b\x7d") ⟨#[], []⟩ := by
    show parseGraph? "\x7b\x7d" = _
    cbv
  have hloads : List.Forall₂ Loads documents [⟨#[], []⟩, lone] := .cons hempty (.cons (loads_pretty _ lone) .nil)
  obtain ⟨failOn, -, -, hname, hrun⟩ := check_spec drawPlain hsettings hrules hbuild
  have hwarn : Severity.ofName "warn" = .ok .warning := by cbv
  have hthreshold : failOn = .warning := by
    have := hname "warn" rfl
    rw [hwarn] at this
    cases this
    rfl
  subst hthreshold
  obtain ⟨_, document, _, -, -, -, hfails⟩ := (hrun .text (documents ++ [("missing.json", none)])).2
    ⟨("missing.json", none), by simp, by simp [Loads]⟩
  exact ⟨hsettings, hrules, hbuild, hloads, fun format => (hrun format documents).1 _ hloads, document.1, hfails⟩

end

end CommandLine

end ActorAudit
