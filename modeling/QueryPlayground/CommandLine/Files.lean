import QueryPlayground.History.Handle
import QueryPlayground.Configuration

/-!
# Files

A tree of files as the commands see it: texts, databases and directories, each at a path of names. A
path may be relative to the working directory and may go up with two dots; everything on the way has
to be a directory. What fails is described as an operating system does.
-/

namespace QueryPlayground.CommandLine

open QueryPlayground.History (Database Disk)

/-! ## §1 The tree -/

/-- What is at a path. -/
inductive Node where
  | text (content : String)
  | database (d : Database)
  | directory
  deriving DecidableEq, Repr

/-- A path from the root: the names on the way. -/
abbrev Location := List String

structure Files where
  /-- What is where; a directory with something below it need not be listed. -/
  nodes : List (Location × Node)
  workDir : Location
  deriving Repr

/-- Why a file cannot be used. -/
inductive FileFault where
  | missing
  /-- There is a directory where a file is due. -/
  | isDirectory
  /-- There is a file where a directory is due. -/
  | notDirectory
  /-- There is a file where a directory is to be made. -/
  | occupied
  | nameTooLong
  /-- A name holds a NUL. -/
  | nulByte
  | notText
  deriving DecidableEq, Repr

namespace FileFault

def message : FileFault → String
  | missing => "No such file or directory (os error 2)"
  | isDirectory => "Is a directory (os error 21)"
  | notDirectory => "Not a directory (os error 20)"
  | occupied => "File exists (os error 17)"
  | nameTooLong => "File name too long (os error 36)"
  | nulByte => "file name contained an unexpected NUL byte"
  | notText => "stream did not contain valid UTF-8"

def toError (f : FileFault) : Error :=
  .io f.message

end FileFault

/-! ## §2 Names in paths -/

/-- The pieces of a text between slashes. -/
def pieces (path : String) : List String :=
  go [] path.toList
where
  /-- The pieces of the rest, where the characters of the first one so far are in reverse. -/
  go (done : List Char) : List Char → List String
    | [] => [String.ofList done.reverse]
    | c :: cs =>
      if c = '/' then String.ofList done.reverse :: go [] cs else go (c :: done) cs

/-- The names in a path that say something; a dot does only in front. -/
def names (path : String) : List String :=
  (pieces path).filter fun p => !p.isEmpty && p != "."

/-- Whether a path starts at the root. -/
def isAbsolute (path : String) : Bool :=
  Configuration.beginsWith "/" path

/-- A path, last character first, without the slashes and dots at its end that name nothing. -/
def dropNameless : List Char → List Char
  | '.' :: '/' :: cs => dropNameless cs
  | '/' :: cs => dropNameless cs
  | cs => cs

/-- The path of the directory that holds what a path names; empty for the working directory. -/
def parentPath (path : String) : String :=
  let upTo := (dropNameless path.toList.reverse).dropWhile (· != '/')
  let front := dropNameless upTo
  if front.isEmpty && !upTo.isEmpty then "/" else String.ofList front.reverse

example : ["a/b", "a/./b/.", "a/.", "./a", "/a//", "/./a"].map parentPath =
    ["a", "a", "", ".", "/", "/"] := by
  decide

def fileName? (path : String) : Option String :=
  match (names path).getLast? with
  | some ".." => none
  | name => name

/-- The part of a name after its last dot, unless that is in front. -/
def extension? (name : String) : Option String :=
  let after := name.toList.reverse.takeWhile (· != '.')
  if after.length + 1 < name.length then some (String.ofList after.reverse) else none

namespace Files

/-! ## §3 Looking -/

def isDirectory (f : Files) (l : Location) : Bool :=
  l.isEmpty || f.nodes.any fun n =>
    if n.1 == l then n.2 == .directory else l.isPrefixOf n.1

/-- What is at a place. -/
def find? (f : Files) (l : Location) : Option Node :=
  match f.nodes.lookup l with
  | some n => some n
  | none => if f.isDirectory l then some .directory else none

/-- The fault of passing through a place that is no directory. -/
def passFault (f : Files) (l : Location) : FileFault :=
  if (f.find? l).isSome then .notDirectory else .missing

/-- Goes along names from a place; a step needs a directory to start from. -/
def walk (f : Files) (l : Location) : List String → Except FileFault Location
  | [] => .ok l
  | name :: rest =>
    if !f.isDirectory l then .error (f.passFault l)
    else if name.isEmpty || name == "." then f.walk l rest
    else if name == ".." then f.walk l.dropLast rest
    else if 255 < name.utf8ByteSize then .error .nameTooLong
    else f.walk (l ++ [name]) rest

/-- The place that a path names. -/
def locate (f : Files) (path : String) : Except FileFault Location :=
  if path.isEmpty then .error .missing
  else if path.toList.contains (Char.ofNat 0) then .error .nulByte
  else f.walk (if isAbsolute path then [] else f.workDir) (pieces path)

/-- What a path names. -/
def lookup (f : Files) (path : String) : Except FileFault Node := do
  let l ← f.locate path
  match f.find? l with
  | some n => return n
  | none => .error .missing

/-- Whether a path names something. -/
def has (f : Files) (path : String) : Bool :=
  match f.lookup path with
  | .ok _ => true
  | .error _ => false

def read (f : Files) (path : String) : Except FileFault String := do
  match ← f.lookup path with
  | .text content => return content
  | .database _ => .error .notText
  | .directory => .error .isDirectory

/-! ## §4 Changing -/

/-- Puts something at a place. -/
def put (f : Files) (l : Location) (n : Node) : Files :=
  { f with nodes := (l, n) :: f.nodes.filter (·.1 != l) }

/-- Makes the directories along names from a place. -/
def makeAlong (f : Files) (l : Location) : List String → Except FileFault Files
  | [] => .ok f
  | name :: rest =>
    if name.isEmpty || name == "." then f.makeAlong l rest
    else if name == ".." then f.makeAlong l.dropLast rest
    else if 255 < name.utf8ByteSize then .error .nameTooLong
    else
      let l := l ++ [name]
      match f.find? l with
      | some .directory => f.makeAlong l rest
      | some _ => .error (if rest.isEmpty then .occupied else .notDirectory)
      | none => (f.put l .directory).makeAlong l rest

/-- Makes the directory of a path, and those on the way. -/
def makeDirectories (f : Files) (path : String) : Except FileFault Files :=
  f.makeAlong (if isAbsolute path then [] else f.workDir) (pieces path)

/-- Puts a node where a path names a file or nothing. -/
def write (f : Files) (path : String) (n : Node) : Except FileFault Files := do
  let l ← f.locate path
  match f.find? l with
  | some .directory => .error .isDirectory
  | some _ => return f.put l n
  | none =>
    if f.isDirectory l.dropLast then return f.put l n else .error (f.passFault l.dropLast)

/-! ## §5 The history -/

/-- The reason against opening a database at a path where something else is. -/
def blockedReason (path : String) : String :=
  (Error.storage ("unable to open database file: " ++ path)).message

/-- The reason against a file that is no database. -/
def foreignReason : String :=
  (Error.storage "file is not a database").message

/-- Whether a path names a database that is not kept. -/
def isFleeting (path : String) : Bool :=
  path.isEmpty || path == ":memory:"

/-- The place of the history at a path. -/
def disk (f : Files) (path : String) : Disk :=
  if isFleeting path then .vacant
  else
    match f.makeDirectories (parentPath path) with
    | .error fault => .blocked fault.toError.message
    | .ok f =>
      match f.lookup path with
      | .ok (.database d) => .holding d
      | .ok (.text "") => .holding .empty
      | .ok (.text _) => .blocked foreignReason
      | .ok .directory => .blocked (blockedReason path)
      | .error .missing => .vacant
      | .error _ => .blocked (blockedReason path)

/-- Keeps what became of the history at a path. -/
def keepDisk (f : Files) (path : String) (d : Disk) : Files :=
  match d.found with
  | .database n =>
    if isFleeting path then f
    else
      match f.makeDirectories (parentPath path) with
      | .error _ => f
      | .ok f' =>
        match f'.write path (.database (d.database n)) with
        | .ok f' => f'
        | .error _ => f
  | _ => f

end Files

end QueryPlayground.CommandLine
