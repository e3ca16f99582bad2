import QueryPlayground.CommandLine.Reach
import QueryPlayground.CommandLine.Run
import QueryPlayground.History.Archive
import QueryPlayground.Program.Launch
import Std.Time.DateTime.Timestamp

/-!
# The command line

Reads what an invocation reaches, runs it, and writes down what it changed. There is no network, and
the programs are those that the library knows.
-/

namespace QueryPlayground.CommandLine

open QueryPlayground.History (Database)

/-- The lines of the standard input that are left. -/
partial def readAllInput (before : String) : IO String := do
  let line ← (← IO.getStdin).getLine
  if line.isEmpty then return before else readAllInput (before ++ line)

/-- What is at a path of the outside world. -/
def lookAt (path : String) : IO (Option Node) := do
  let here ← IO.currentDir
  let place := here / path
  if ← place.isDir then return some .directory
  else if ← place.pathExists then
    let bytes ← IO.FS.readBinFile place
    let text := String.ofList (Text.utf8Lossy (bytes.toList.map UInt8.toNat))
    match Database.ofText? text with
    | some d => return some (.database d)
    | none => return some (.text text)
  else return none

def addPath (f : Files) (path : String) : IO Files := do
  let mut f := f
  for l in wayTo (placeFrom f.workDir path) do
    if !l.isEmpty && (f.nodes.lookup l).isNone then
      match ← lookAt (pathOf l) with
      | some n => f := f.put l n
      | none => pure ()
  return f

def gather (home : String) (i : Invocation) : IO Files := do
  let here ← IO.currentDir
  let mut f : Files := ⟨[], names here.toString⟩
  for path in i.files home do f ← addPath f path
  let settings := i.configFile.getD (Configuration.Directories.mk home none).config
  let store :=
    match f.read settings with
    | .ok text => historyFile? home text
    | .error _ => none
  addPath f (store.getD (Configuration.Directories.mk home none).store)

/-- Writes down a change. -/
def keep (change : Location × Node) : IO Unit := do
  let path := pathOf change.1
  match change.2 with
  | .directory => IO.FS.createDirAll path
  | .text content => IO.FS.writeFile path content
  | .database d => IO.FS.writeFile path d.text

end QueryPlayground.CommandLine

open QueryPlayground QueryPlayground.CommandLine in
/-- Runs an invocation. -/
def main (args : List String) : IO UInt32 := do
  let home := (← IO.getEnv "HOME").getD "/"
  let (files, input) ←
    match Invocation.parse args with
    | .ok i => do
      let files ← gather home i
      let input ← if i.task.readsInput then readAllInput "" else pure ""
      pure (files, input)
    | .error _ => pure (⟨[], []⟩, "")
  let now ← Std.Time.Timestamp.now
  let w : World :=
    { files := files, home := home, input := input, output := "", errors := ""
      now := now.toMillisecondsSinceUnixEpoch.val, network := fun _ => none, sent := []
      launch := Program.launch [("HOME", home)]
      handle := .new .default, disk := .vacant }
  let (status, after) := CommandLine.run args w
  for change in (files.changes after.files).reverse do keep change
  IO.print after.output
  IO.eprint after.errors
  return status.toUInt32
