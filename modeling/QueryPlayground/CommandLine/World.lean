import QueryPlayground.CommandLine.Files
import QueryPlayground.CommandLine.Invocation
import QueryPlayground.Program.Console
import QueryPlayground.Session
import QueryPlayground.Share.Client

/-!
# What a command works in

A command has files, a standard input, two outputs, a clock, a network and programs to start. `Job`
is a computation on all that which may fail; what was written before a failure stays written.
-/

namespace QueryPlayground.CommandLine

open QueryPlayground.History (Answer Disk Handle)

/-! ## §1 Worlds -/

/-- What a command works in. -/
structure World where
  files : Files
  home : String
  /-- The standard input that is not read yet. -/
  input : String
  /-- What was written to the standard output. -/
  output : String
  /-- What was written to the standard error. -/
  errors : String
  /-- The clock, in milliseconds since the beginning of 1970. -/
  now : Int
  network : Share.Network
  sent : List Share.Message
  /-- The programs, which see the files. -/
  launch : Program.Surroundings → Program.Launcher
  handle : Handle
  /-- The place of the history. -/
  disk : Disk

/-- A computation that may fail. -/
abbrev Job := ExceptT Error (StateM World)

/-- What holds for every command. -/
structure Setup where
  config : Configuration
  /-- The file of the settings, if one was named. -/
  configFile : Option String
  /-- Whether more is told. -/
  verbose : Bool
  /-- Whether less is told. -/
  quiet : Bool

/-- A file as programs see it. -/
def Files.asSeen (f : Files) : Program.Surroundings := fun path =>
  match f.lookup path with
  | .ok (.text content) => .ok (Text.utf8Encode content.toList)
  | .ok (.database _) => .ok []
  | .ok .directory => .error .isADirectory
  | .error .notDirectory => .error .notADirectory
  | .error .nameTooLong => .error .nameTooLong
  | .error _ => .error .missing

/-- The programs as they can be started now. -/
def World.launcher (w : World) : Program.Launcher :=
  w.launch w.files.asSeen

/-- The user's directories. -/
def World.directories (w : World) : Configuration.Directories :=
  ⟨w.home, none⟩

/-! ## §2 Input and output -/

/-- Writes a text to the standard output. -/
def write (text : String) : Job Unit :=
  modify fun w => { w with output := w.output ++ text }

/-- Writes a line to the standard output. -/
def say (line : String) : Job Unit :=
  write (line ++ "\n")

/-- Writes a line to the standard error. -/
def complain (line : String) : Job Unit :=
  modify fun w => { w with errors := w.errors ++ line ++ "\n" }

/-- Writes a line to the standard error for a user who wants to know more. -/
def Setup.explain (s : Setup) (line : String) : Job Unit :=
  if s.verbose && !s.quiet then complain ("[verbose] " ++ line) else pure ()

/-- Writes a line to the standard output unless a user wants to know less. -/
def Setup.tell (s : Setup) (line : String) : Job Unit :=
  if s.quiet then pure () else say line

/-- Goes on with a result, or fails with its error. -/
def orFail {α : Type} : Except Error α → Job α
  | .ok a => pure a
  | .error e => throw e

def readInput : Job String :=
  modifyGet fun w => (w.input, { w with input := "" })

/-- The first line of a text with its end, and the rest. -/
def splitLine (text : String) : String × String :=
  let cs := text.toList
  let line := cs.takeWhile (· != '\n')
  match cs.dropWhile (· != '\n') with
  | [] => (String.ofList line, "")
  | c :: rest => (String.ofList (line ++ [c]), String.ofList rest)

/-- Reads a line of the standard input. -/
def readLine : Job String :=
  modifyGet fun w => ((splitLine w.input).1, { w with input := (splitLine w.input).2 })

/-! ## §3 Documents and files -/

/-- The name that stands for the standard input. -/
def standardInput : String := "-"

/-- The kind of a document by the name of its file. -/
def guessKind (file : String) : DocumentKind :=
  match (fileName? file).bind extension? with
  | some ext =>
    if ["yaml", "yml"].contains (String.ofList (ext.toList.map Char.toLower)) then .yaml else .json
  | none => .json

def isData (kind : DocumentKind) : Bool :=
  kind == .json || kind == .yaml

def readFile (path : String) : Job String := do
  let w ← get
  orFail ((w.files.read path).mapError (·.toError))

def writeFile (path content : String) : Job Unit := do
  let w ← get
  let files ← orFail ((w.files.write path (.text content)).mapError (·.toError))
  set { w with files := files }

def readDocument (file : String) (kind : Option DocumentKind) : Job Document := do
  let kind := kind.getD (guessKind file)
  if !isData kind then
    throw (.invalidArguments ("input type must be json or yaml, got " ++ kind.name))
  else
    let content ← if file == standardInput then readInput else readFile file
    return ⟨content, kind⟩

/-! ## §4 The history -/

def ask (q : History.Query) : Job Answer := do
  let w ← get
  let (answer, handle, disk) := w.handle.run w.disk q
  set { w with handle := handle, disk := disk }
  orFail answer

end QueryPlayground.CommandLine
