import QueryPlayground.Program.Tool.Options

/-!
# Joining files

`cat` writes out the files it is given, one after the other; on the way it can number lines, drop
repeated blank ones and make visible what has no printed form.
-/

namespace QueryPlayground.Program.Cat

/-! ## §1 What is done to the text -/

/-- What is done to the text. -/
structure Style where
  /-- Whether lines are numbered. -/
  number : Bool
  /-- Whether only lines that are not blank are numbered. -/
  numberText : Bool
  /-- Whether of several blank lines all but the first are dropped. -/
  squeeze : Bool
  /-- Whether the end of each line is marked. -/
  ends : Bool
  /-- Whether tabs are made visible. -/
  tabs : Bool
  /-- Whether control characters and high bytes are made visible. -/
  visible : Bool

def options : OptionRules :=
  { letters := "bestuvAETn".toList.map fun c => (c, false)
    names := [("number-nonblank", 'b'), ("number", 'n'), ("squeeze-blank", 's'),
      ("show-nonprinting", 'v'), ("show-ends", 'E'), ("show-tabs", 'T'), ("show-all", 'A')] }

/-- The style that the options ask for. -/
def Style.of (a : Arguments) : Style :=
  { number := a.has 'n' || a.has 'b'
    numberText := a.has 'b'
    squeeze := a.has 's'
    ends := a.has 'E' || a.has 'e' || a.has 'A'
    tabs := a.has 'T' || a.has 't' || a.has 'A'
    visible := a.has 'v' || a.has 'e' || a.has 't' || a.has 'A' }

/-- A byte below 128 made visible. -/
def caret (c : Char) : Octets :=
  if c.toNat = 127 then ['^', '?']
  else if c.toNat < 32 then ['^', Char.ofNat (c.toNat + 64)]
  else [c]

/-- A byte of a line. -/
def Style.byte (s : Style) (c : Char) : Octets :=
  if c = '\t' then if s.tabs then ['^', 'I'] else [c]
  else if !s.visible then [c]
  else if c.toNat < 128 then caret c
  else 'M' :: '-' :: caret (Char.ofNat (c.toNat - 128))

def lineNumber (n : Nat) : Octets :=
  let ds := Octets.ofNat n
  List.replicate (6 - ds.length) ' ' ++ ds ++ ['\t']

/-- Writes the text out: the number of the next line, whether a line starts here, and whether the line
before was blank. -/
def Style.apply (s : Style) : Nat → Bool → Bool → Octets → Octets
  | _, _, _, [] => []
  | n, atStart, afterBlank, c :: cs =>
    let blank := atStart && c = '\n'
    if blank && afterBlank && s.squeeze then s.apply n true true cs
    else
      let numbered := atStart && s.number && !(blank && s.numberText)
      let lead := if numbered then lineNumber n else []
      let n := if numbered then n + 1 else n
      if c = '\n' then
        lead ++ (if s.ends then ['$', '\n'] else ['\n']) ++ s.apply n true blank cs
      else if c = '\r' && s.ends && cs.head? == some '\n' then
        lead ++ ['^', 'M'] ++ s.apply n false false cs
      else lead ++ s.byte c ++ s.apply n false false cs

/-! ## §2 The program -/

/-- The content of a file, or of the standard input for a dash; nothing if it has no end. -/
def content (name file : Octets) : Task (Option (Option Octets)) := do
  let stream ← if file == ['-'] then (do return (← streamOf 0).elim (.error "Bad file descriptor") .ok)
    else (do return (← openToRead file).mapError (·.message))
  match stream with
  | .error problem =>
    complainAs name (Octets.asName file ++ ": ".toList ++ problem.toList)
    return some none
  | .ok i =>
    match ← takeAll i with
    | .ok text => return some (some text)
    | .error .noEnd => return none
    | .error problem =>
      complainAs name (Octets.asName file ++ ": ".toList ++ problem.message.toList)
      return some none

/-- The contents of files, and whether all could be read; nothing if one has no end. -/
def contents (name : Octets) : List Octets → Task (Option (Octets × Bool))
  | [] => return some ([], true)
  | file :: files => do
    match ← content name file with
    | none => return none
    | some text =>
      match ← contents name files with
      | none => return none
      | some (rest, complete) => return some (text.getD [] ++ rest, complete && text.isSome)

def run (name : Octets) (args : List Octets) : Task Finish := do
  match options.arguments args with
  | .error message => misused name message
  | .ok a =>
    if a.asksAbout then usage name
    else if (← streamOf 1).isNone then
      complainAs name "standard output: Bad file descriptor".toList
      finish 1
    else
      let files := if a.operands.isEmpty then [['-']] else a.operands
      match ← contents name files with
      | none => return none
      | some (text, complete) =>
        if files.contains ['-'] && (← streamOf 0).isNone then
          complainAs name "closing standard input: Bad file descriptor".toList
        conclude name ((Style.of a).apply 1 true false text) (if complete then 0 else 1)

end QueryPlayground.Program.Cat
