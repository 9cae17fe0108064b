import Dialects.CommandLine.Run

/-!
# The program

Reads the files that the command line concerns into a tree, runs the command line on it, and stores
and prints what has come of it.
-/

namespace Dialects.CommandLine

/-- What stands under a path of the disk; anything that is there but cannot be read counts as a
folder. -/
def entryAt (path : String) : IO (Option Entry) := do
  try
    return some (.file (← IO.FS.readBinFile path).toList)
  catch
    | .noFileOrDirectory .. => return none
    | _ => return some .folder

/-- A tree with what stands under the paths. -/
def snapshot (paths : List String) : IO Tree :=
  paths.foldlM (fun t p => do
    match ← entryAt p with
    | some e => return t.put (.ofString p) e
    | none => return t) (Tree.bare [])

/-- The candidate for the configuration under a path. -/
def candidateAt (path : String) : IO (String × Candidate) := do
  return (path, candidateOf path (← entryAt path))

/-- The configuration files in standard places: the user's, and the one beside the program. -/
def standardCandidates : IO (List (String × Candidate)) := do
  let home := (← IO.getEnv "HOME").getD ""
  let settings := (← IO.getEnv "XDG_CONFIG_HOME").getD (home ++ "/.config")
  let program := toString (← IO.appDir)
  return [← candidateAt (settings ++ "/PyLenient/config.ini"),
    ← candidateAt (program ++ "/config/config.ini")]

/-- The paths that a command line names. -/
def namedPaths (words : List String) : List String :=
  match Arguments.parse words with
  | .ok a => a.path :: a.config.toList
  | .error _ => []

/-- Stores the files of a tree that differ from those of another one. -/
def storeChanges (paths : List String) (before after : Tree) : IO Unit :=
  paths.forM fun p => do
    match after.find? (.ofString p) with
    | some (.file content) =>
      if before.find? (.ofString p) ≠ some (.file content) then
        IO.FS.writeBinFile p (ByteArray.mk content.toArray)
    | _ => pure ()

/-- Runs the program and gives its exit status. -/
def runIO (words : List String) : IO UInt32 := do
  let paths := namedPaths words
  let before ← snapshot paths
  let (result, c) := (run words (← standardCandidates)).perform (.start before)
  storeChanges paths before c.disk.tree
  IO.eprint c.remarks
  match result, c.output.toString? with
  | .ok status, some output =>
    IO.print output
    return status.toUInt32
  | .ok _, none =>
    IO.eprintln (program ++ ": the text holds surrogates")
    return 1
  | .error f, _ =>
    IO.eprintln (program ++ ": " ++ f.message)
    return 1

end Dialects.CommandLine

def main (words : List String) : IO UInt32 := Dialects.CommandLine.runIO words
