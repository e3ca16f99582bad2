import QueryPlayground.Program.Tool.Lines
import QueryPlayground.Program.Tool.Echo
import QueryPlayground.Program.Tool.Sleep
import QueryPlayground.Program.Tool.Translate

/-!
# The programs there are

Programs are found by their names: without a directory among the standard tools and the shell, with one
among those in the directories of programs. A file or a directory of another name is no program. The
catalog and what it lists serve runs alone.
-/

namespace QueryPlayground.Program

/-- The standard tools. -/
def tools : List (String × (Octets → List Octets → Task Finish)) :=
  [("cat", Cat.run), ("echo", Echo.run), ("printf", Printf.run), ("true", Constant.run 0),
    ("false", Constant.run 1), ("sleep", Sleep.run), ("head", runEnd Extent.takeFirst),
    ("tail", runEnd Extent.takeLast), ("wc", runCounts), ("seq", runSequence),
    ("yes", fun _ => runYes), ("tee", runTee), ("tr", Translate.run)]

/-- What a name of a program leads to. -/
inductive Found where
  /-- A standard tool. -/
  | tool (run : Octets → List Octets → Task Finish)
  | shell
  /-- Something that cannot be executed. -/
  | denied
  | nothing

/-- The directories in which programs are looked for. -/
def programDirectories : List String :=
  ["/bin/", "/usr/bin/"]

/-- The name of a program without the directory in which programs are looked for. -/
def bareName (name : String) : String :=
  match programDirectories.find? fun d => d.toList.isPrefixOf name.toList with
  | some d => String.ofList (name.toList.drop d.length)
  | none => name

/-- What a name of a program leads to among the given files. -/
def find (files : Surroundings) (name : String) : Found :=
  let bare := bareName name
  if bare == "sh" || bare == "dash" then .shell
  else
    match tools.lookup bare with
    | some run => .tool run
    | none =>
      if name.contains '/' then
        if (device? name.toList).isSome then .denied
        else
          match files name with
          | .ok _ => .denied
          | .error .isADirectory => .denied
          | .error _ => .nothing
      else if name == "." || name == ".." then .denied
      else .nothing

end QueryPlayground.Program
