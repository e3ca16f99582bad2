import QueryPlayground.Program.Shell.Run

/-!
# Starting programs

A program is started by its name, with arguments and the bytes of its standard input. It gets three
descriptors, and what it wrote to two of them is read when it and all that it left in the background
have ended.

This is the outermost layer. The shell and the tools stand in for those of a system, so that commands can
be run and shown at work; what is stated of commands is stated of any `Launcher`.
-/

namespace QueryPlayground.Program

/-! ## §1 What can be started -/

/-- The bytes that an argument may not reach. -/
def argumentLimit : Nat := 131072

/-- The bytes that the name of a file may not exceed. -/
def nameLimit : Nat := 255

/-- Why a program cannot be started, if it cannot be found. -/
def whyMissing (files : Surroundings) (name : String) : StartFailure :=
  if name.contains '/' then
    match files name with
    | .error .notADirectory => .notADirectory
    | .error .nameTooLong => .nameTooLong
    | _ => .notFound
  else if nameLimit < name.utf8ByteSize then .nameTooLong
  else .notFound

/-- Whether an argument is too long for any program. -/
def isTooLong (arg : String) : Bool :=
  argumentLimit ≤ arg.utf8ByteSize

/-- Whether a text cannot be handed over. -/
def holdsNul (text : String) : Bool :=
  text.contains (Char.ofNat 0)

/-- The directories at the root of every system. -/
def rootDirectories : List String :=
  ["bin", "boot", "dev", "etc", "home", "lib", "mnt", "opt", "proc", "root", "run", "sbin", "srv", "sys",
    "tmp", "usr", "var"]

/-- Where there are no files but the directories of every system. -/
def Surroundings.bare : Surroundings := fun path =>
  if path.isEmpty then .error .missing
  else
    let absolute := path.toList.head? == some '/'
    match (path.splitOn "/").filter fun name => !name.isEmpty && name != "." && name != ".." with
    | [] => .error .isADirectory
    | name :: rest =>
      if (name :: rest).any fun n => nameLimit < n.utf8ByteSize then .error .nameTooLong
      else if absolute && name == "dev" && (rest.head?.any (["null", "zero", "full"].contains ·)) &&
          1 < rest.length
      then .error .notADirectory
      else if absolute && rest.isEmpty && rootDirectories.contains name then .error .isADirectory
      else .error .missing

/-- The files of one place, and of another one where the first has none. -/
def Surroundings.over (near far : Surroundings) : Surroundings := fun path =>
  match near path with
  | .error .missing => far path
  | found => found

/-! ## §2 Launches -/

/-- The descriptors of a new program. -/
def standardDescriptors : Descriptors :=
  [(0, 0), (1, 1), (2, 2)]

/-- What a new program sees. -/
def Console.start (files : Surroundings) (input : Bytes) : Console :=
  { streams := #[.source (Octets.ofBytes input), .sink [], .sink []]
    clock := 0, horizon := 0, written := [], files := files }

/-- What is seen of a program that ended like this. -/
def Console.conclude (c : Console) (f : Finish) : Run :=
  { output := Octets.toBytes (c.writtenTo 1)
    errors := Octets.toBytes (c.writtenTo 2)
    ending := f.getD (.exited 0)
    duration := if f.isSome then some (max c.clock c.horizon) else none }

/-- Runs a task as a new program. -/
def Task.launch (files : Surroundings) (input : Bytes) (t : Task Finish) : Run :=
  let (f, c) := (t.run standardDescriptors).run (.start files input)
  c.conclude f

/-- Starts a program among the given files and the directories of every system, with variables that it
gets. -/
def launch (environment : List (String × String)) (files : Surroundings) : Launcher :=
  fun program args input =>
    let files := files.over .bare
    if (program :: args).any holdsNul then .error .nulByte
    else
      let name := Octets.ofString program
      let words := args.map Octets.ofString
      let given := environment.map fun (n, v) => (Octets.ofString n, Octets.ofString v)
      let start (t : Task Finish) : Except StartFailure Run :=
        if args.any isTooLong then .error .argumentTooLong else .ok (t.launch files input)
      match find files program with
      | .tool run => start (run name words)
      | .shell => start (Shell.run given name words)
      | .denied => .error .permissionDenied
      | .nothing => .error (whyMissing files program)

end QueryPlayground.Program
