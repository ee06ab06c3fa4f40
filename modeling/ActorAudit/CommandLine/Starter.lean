/-!
# The starter configuration

The file that is written for a new project, and what is said about it.
-/

namespace ActorAudit.CommandLine.Starter

def fileName : String := "actor-lint.toml"

def path : String := "./" ++ fileName

def content : String :=
  "# actor-lint configuration\n" ++
  "\n" ++
  "# Rule preset: \"recommended\", \"strict\" or \"minimal\"\n" ++
  "preset = \"recommended\"\n" ++
  "\n" ++
  "# Lowest severity that makes `actor-lint check` exit non-zero\n" ++
  "fail_on = \"error\"\n" ++
  "\n" ++
  "[analyzer]\n" ++
  "# Glob patterns on declaration source files to exclude from analysis\n" ++
  "exclude = [\n" ++
  "    \"**/obj/**\",\n" ++
  "    \"**/bin/**\",\n" ++
  "]\n" ++
  "\n" ++
  "# Skip declarations the compiler marks as generated\n" ++
  "exclude_generated = true\n" ++
  "\n" ++
  "# Evaluate declarations in parallel\n" ++
  "concurrent = true\n" ++
  "# parallelism = 4\n" ++
  "\n" ++
  "# Framework identities, for forks or wrappers of the Dapr SDK\n" ++
  "# [framework]\n" ++
  "# actor_base = \x7b name = \"Actor\", namespace = \"Dapr.Actors.Runtime\" \x7d\n" ++
  "# capability_interface = \x7b name = \"IActor\", namespace = \"Dapr.Actors\" \x7d\n" ++
  "# actor_interface_suffix = \"Actor\"\n" ++
  "\n" ++
  "# Rule configurations\n" ++
  "# Each rule can be enabled/disabled and have its severity overridden,\n" ++
  "# keyed by name or code\n" ++
  "\n" ++
  "[rules.property-wire-name]\n" ++
  "enabled = true\n" ++
  "\n" ++
  "[rules.record-needs-contract]\n" ++
  "enabled = true\n" ++
  "# severity = \"error\"  # Override default severity\n"

def nextSteps : String :=
  s!"Created {fileName}\n" ++
    "\nNext steps:\n" ++
    s!"  1. Edit {fileName} to configure rules\n" ++
    "  2. Export a symbol graph from your build\n" ++
    "  3. Run: actor-lint check symbols.json\n"

end ActorAudit.CommandLine.Starter
