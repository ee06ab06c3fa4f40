import ActorAudit.CommandLine.Check
import ActorAudit.CommandLine.Log.Filter
import ActorAudit.CommandLine.Starter

/-!
# Runs

A run of the program as a function of its arguments, its environment and the files it can see.
-/

namespace ActorAudit.CommandLine

/-- What a path leads to; the text of a file is missing when it cannot be read as text. -/
inductive Entry where
  | file (text : Option String)
  | directory
deriving DecidableEq, Repr

abbrev Files := String → Option Entry

namespace Files

def isFile (files : Files) (path : String) : Bool :=
  match files path with
  | some (.file _) => true
  | _ => false

def text? (files : Files) (path : String) : Option String :=
  match files path with
  | some (.file text) => text
  | _ => none

end Files

structure Environment where
  workingDirectory : String
  home : Option String := none
  /-- The configuration file, where a variable names one. -/
  config : Option String := none
  /-- The global directory, where a variable names one. -/
  globalDirectory : Option String := none
  logFilter : Option String := none
  /-- How diagnostics are drawn; plainly, unless another way is given. -/
  draw : Diagnostic → String := drawPlain

/-- The global directory; without a variable of its own it is in the home directory, where that has a
name. -/
def Environment.global? (env : Environment) : Option String :=
  env.globalDirectory.or ((env.home.filter (!·.isEmpty)).map (join · ".actor-lint"))

def version : String := "actor-lint 0.1.0\n"

def usage : String :=
  "Usage: actor-lint [OPTIONS] <COMMAND>\n\n" ++
    "Commands:\n" ++
    "  check       Run lint checks over exported symbol graphs\n" ++
    "  list-rules  List available rules\n" ++
    "  init        Initialize configuration file\n\n" ++
    "Options:\n" ++
    "  -v, --verbose          Enable verbose output\n" ++
    "  -c, --config <CONFIG>  Path to configuration file\n" ++
    "  -h, --help             Print help\n" ++
    "  -V, --version          Print version\n"

def init (files : Files) (force : Bool) : Outcome :=
  match files Starter.path, force with
  | some _, false =>
    .failure (s!"Configuration file already exists at {Starter.path}. " ++
      "Use --force to overwrite.") []
  | some .directory, true => .failure s!"Failed to write {Starter.path}" []
  | _, _ =>
    { exitCode := 0, output := Starter.nextSteps, writes := some (Starter.path, Starter.content) }

def runCommand (files : Files) (env : Environment) (config : Option String) : Command → Outcome
  | .listRules json => { exitCode := 0, output := ruleList json }
  | .init force => init files force
  | .check graphs options =>
    let source := SettingsSource.resolve files.isFile env.workingDirectory config env.global?
    check env.draw options source (source.path?.bind files.text?) (graphs.map fun p => (p, files.text? p))

/-- The outcome of a run; its log holds what the environment lets through. -/
def run (files : Files) (env : Environment) (args : List String) : Outcome :=
  match parse args env.config with
  | .error .usage => { exitCode := 2 }
  | .error .version => { exitCode := 0, output := version }
  | .error .help => { exitCode := 0, output := usage }
  | .ok invocation =>
    let outcome := runCommand files env invocation.config invocation.command
    let filter := Log.Filter.choose invocation.verbose env.logFilter
    { outcome with log := outcome.log.filter filter.shows }

def paths (env : Environment) (args : List String) : List String :=
  match parse args env.config with
  | .error _ => []
  | .ok invocation =>
    match invocation.command with
    | .listRules _ => []
    | .init _ => [Starter.path]
    | .check graphs _ =>
      graphs ++ invocation.config.toList ++ SettingsSource.projectCandidates env.workingDirectory ++
        (env.global?.map (join · SettingsSource.globalName)).toList

end ActorAudit.CommandLine
