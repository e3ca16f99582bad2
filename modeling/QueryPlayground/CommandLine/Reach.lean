import QueryPlayground.CommandLine.World

/-!
# What an invocation reaches

The files that an invocation can touch and whether it reads the standard input, both found before it
runs. With them the outside world has to give a command no more than that.
-/

namespace QueryPlayground.CommandLine

/-! ## §1 Files -/

def Task.files : Task → List String
  | .apply o => [o.input.file]
  | .watch o => [o.input.file]
  | .history (.exportAll _ _ file) => file.toList
  | .history _ => []
  | .share (.create _ input) => [input.file]
  | .share (.fetch _ _) => []
  | .config _ => []

/-- The files that an invocation names, and the file of the settings. -/
def Invocation.files (i : Invocation) (home : String) : List String :=
  i.task.files ++ i.configFile.toList ++ [(Configuration.Directories.mk home none).config]

/-- The file of the history that the text of a file of settings names, if it names any. -/
def historyFile? (home text : String) : Option String :=
  match Configuration.load (Configuration.Directories.mk home none).store (some text) with
  | .ok c => some c.store.path
  | .error _ => none

/-- The place that a path names from a directory, where two dots go up in the path itself. -/
def placeFrom (workDir : Location) (path : String) : Location :=
  (names path).foldl (fun l name => if name == ".." then l.dropLast else l ++ [name])
    (if isAbsolute path then [] else workDir)

/-- The path of a place. -/
def pathOf (l : Location) : String :=
  "/" ++ String.intercalate "/" l

/-- The places on the way to a place, with the place itself. -/
def wayTo (l : Location) : List Location :=
  (List.range (l.length + 1)).map l.take

/-! ## §2 Input -/

def Task.readsInput : Task → Bool
  | .apply o => o.input.file == standardInput
  | .watch _ => true
  | .history (.reset force) => !force
  | .history _ => false
  | .share (.create _ input) => input.file == standardInput
  | .share (.fetch _ _) => false
  | .config _ => false

/-! ## §3 Changes -/

/-- What is at other places, or anew, in the second files. -/
def Files.changes (before after : Files) : List (Location × Node) :=
  after.nodes.filter fun n => before.nodes.lookup n.1 != some n.2

end QueryPlayground.CommandLine
