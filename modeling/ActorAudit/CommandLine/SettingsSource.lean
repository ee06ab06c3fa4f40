import ActorAudit.CommandLine.Directory
import ActorAudit.CommandLine.Log.Basic
import ActorAudit.Settings.File

/-!
# Where settings come from

The file given on the command line comes first; then the nearest project file, going up from the
working directory, a plain name before a hidden one; then the file in the global directory. A
directory of such a name is not a file.
-/

namespace ActorAudit.CommandLine

def join (directory name : String) : String :=
  match directory.toList.getLast? with
  | none => name
  | some '/' => directory ++ name
  | some _ => directory ++ "/" ++ name

inductive SettingsSource where
  | explicit (path : String)
  | project (path : String)
  | global (path : String)
  | default
deriving DecidableEq, Repr

namespace SettingsSource

def path? : SettingsSource → Option String
  | explicit p | project p | global p => some p
  | default => none

def kind : SettingsSource → String
  | explicit _ => "explicit"
  | project _ => "project"
  | global _ => "global"
  | default => "default"

/-- The names of a project file, the first one preferred. -/
def projectNames : List String := ["actor-lint.toml", ".actor-lint.toml"]

def globalName : String := "config.toml"

def projectCandidates (directory : String) : List String :=
  (Path.ancestors directory).flatMap fun d => projectNames.map (join d)

/-- The file that settings are read from, given which paths are files. -/
def resolve (isFile : String → Bool) (directory : String) (given globalDirectory : Option String) :
    SettingsSource :=
  match given with
  | some p => explicit p
  | none =>
    match (projectCandidates directory).find? isFile with
    | some p => project p
    | none =>
      match globalDirectory.map (join · globalName) with
      | some p => if isFile p then global p else default
      | none => default

/-- What is told about the search and the reading of the file. -/
def journal (s : SettingsSource) : List Log.Line :=
  let found : List Log.Line := match s with
    | project p => [⟨.debug, .settings, s!"Found project config: {p}"⟩]
    | global p =>
      [⟨.debug, .settings, s!"Found global config: {p}"⟩,
        ⟨.info, .command, s!"Using global config: {p}"⟩]
    | _ => []
  found ++ s.path?.toList.map fun p => ⟨.debug, .settings, s!"Loading {s.kind} config: {p}"⟩

end SettingsSource

end ActorAudit.CommandLine
