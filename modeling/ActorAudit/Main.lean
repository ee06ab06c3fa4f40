import ActorAudit.CommandLine.Run

/-!
# The program

Looks at the files that a run may need, runs, and hands on the outcome.
-/

namespace ActorAudit.CommandLine

/-- What a path leads to. A directory can be opened but not read. -/
def look (path : String) : IO (Option Entry) := do
  try
    let bytes ← IO.FS.readBinFile path
    return some (.file (String.fromUTF8? bytes))
  catch _ =>
    try
      let _ ← IO.FS.Handle.mk path .read
      return some .directory
    catch _ => return none

def environment : IO Environment := do
  let directory ← IO.currentDir
  return {
    workingDirectory := directory.toString
    home := ← IO.getEnv "HOME"
    config := ← IO.getEnv "ACTOR_LINT_CONFIG"
    globalDirectory := ← IO.getEnv "ACTOR_LINT_CONFIG_DIR"
    logFilter := ← IO.getEnv "RUST_LOG" }

/-- Carries out the outcome of a run and gives the exit code. -/
def conclude (outcome : Outcome) : IO UInt32 := do
  for line in outcome.log do
    IO.eprintln line.render
  if let some (path, content) := outcome.writes then
    try
      IO.FS.writeFile path content
    catch _ =>
      IO.eprintln s!"Error: Failed to write {path}"
      return 1
  IO.print outcome.output
  if let some message := outcome.error then
    IO.eprintln s!"Error: {message}"
  return UInt32.ofNat outcome.exitCode

end ActorAudit.CommandLine

open ActorAudit.CommandLine in
def main (args : List String) : IO UInt32 := do
  let env ← environment
  let seen ← (paths env args).mapM fun p => do
    let entry ← look p
    return (p, entry)
  conclude (run (fun p => (seen.lookup p).join) env args)
