import QueryPlayground.Program.Octets

/-!
# What a program sees

A program sees numbered descriptors. Each leads to a stream, and several may lead to the same one:
what one of them reads is gone for the others. `Console` holds the streams, the clock and the files;
`Task` is what one program does with them. A program ends by itself or by a signal, or never.
-/

namespace QueryPlayground.Program

/-! ## §1 Files -/

/-- Why a file cannot be read. -/
inductive FileProblem where
  /-- There is none. -/
  | missing
  /-- A part of its path is no directory. -/
  | notADirectory
  | isADirectory
  | nameTooLong
  deriving DecidableEq, Repr

def FileProblem.message : FileProblem → String
  | missing => "No such file or directory"
  | notADirectory => "Not a directory"
  | isADirectory => "Is a directory"
  | nameTooLong => "File name too long"

/-- The files around a program, by their names. -/
abbrev Surroundings := String → Except FileProblem Bytes

/-! ## §2 Streams -/

/-- Where descriptors lead. -/
inductive Stream where
  /-- Bytes that wait to be read. -/
  | source (rest : Octets)
  /-- Bytes to be read that come again and again. -/
  | endless (period : Octets)
  /-- Bytes that were written, the last one first. -/
  | sink (written : Octets)
  /-- Nothing to be read, and what is written is lost. -/
  | void
  /-- Nothing can be written. -/
  | full
  /-- A directory, which cannot be read. -/
  | folder
  deriving Inhabited

/-- The descriptors of a program with the streams that they lead to. -/
abbrev Descriptors := List (Nat × Nat)

/-- Streams, the time and the files. -/
structure Console where
  streams : Array Stream
  /-- The time that has passed, in milliseconds. -/
  clock : Nat
  /-- The time at which the last program in the background ends. -/
  horizon : Nat
  /-- The files that were written, with their streams. -/
  written : List (Octets × Nat)
  /-- The files that were there before. -/
  files : Surroundings

namespace Console

def add (c : Console) (s : Stream) : Console × Nat :=
  ({ c with streams := c.streams.push s }, c.streams.size)

/-- The stream of a number. -/
def stream (c : Console) (i : Nat) : Stream :=
  c.streams.getD i .void

/-- Changes a stream. -/
def put (c : Console) (i : Nat) (s : Stream) : Console :=
  { c with streams := c.streams.setIfInBounds i s }

/-- What was written to a stream. -/
def writtenTo (c : Console) (i : Nat) : Octets :=
  match c.stream i with
  | .sink written => written.reverse
  | _ => []

/-- Turns what was written to a stream into what can be read from it. -/
def turn (c : Console) (i : Nat) : Console :=
  match c.stream i with
  | .sink written => c.put i (.source written.reverse)
  | _ => c

end Console

/-! ## §3 Tasks -/

/-- What a program does with its descriptors. -/
abbrev Task := ReaderT Descriptors (StateM Console)

/-- How a program ends: nothing if it never does. -/
abbrev Finish := Option Ending

/-- Ends with a status. -/
def finish (status : Nat) : Task Finish :=
  return some (.exited status)

/-- The number of the stream of a descriptor. -/
def streamOf (fd : Nat) : Task (Option Nat) := do
  return (← read).lookup fd

/-- Why bytes cannot be written or read. -/
inductive StreamProblem where
  /-- The descriptor is not open in the needed way. -/
  | badDescriptor
  | noSpace
  | isADirectory
  /-- There is no end of what can be read. -/
  | noEnd
  deriving DecidableEq, Repr

def StreamProblem.message : StreamProblem → String
  | badDescriptor => "Bad file descriptor"
  | noSpace => "No space left on device"
  | isADirectory => "Is a directory"
  | noEnd => "No end of file"

/-- Writes to a descriptor. -/
def emitTo (fd : Nat) (text : Octets) : Task (Option StreamProblem) := do
  match ← streamOf fd with
  | none => return some .badDescriptor
  | some i =>
    let c ← get
    match c.stream i with
    | .sink written =>
      set (c.put i (.sink (text.reverse ++ written)))
      return none
    | .void | .endless _ => return none
    | .full => return if text.isEmpty then none else some .noSpace
    | .source _ | .folder => return some .badDescriptor

/-- Writes to the standard error. -/
def complain (text : String) : Task Unit := do
  let _ ← emitTo 2 (Octets.ofString text)

/-- Writes to the standard error a message that holds text of bytes. -/
def complainOctets (text : Octets) : Task Unit := do
  let _ ← emitTo 2 text

/-- Splits a text behind its first characters. -/
def splitAtMost (n : Nat) (cs : Octets) : Octets × Octets :=
  (cs.take n, cs.drop n)

/-- Takes what the given function splits off from what waits at a stream. -/
def takeWith (i : Nat) (split : Octets → Octets × Octets) : Task (Except StreamProblem Octets) := do
  let c ← get
  match c.stream i with
  | .source rest =>
    set (c.put i (.source (split rest).2))
    return .ok (split rest).1
  | .void | .full => return .ok []
  | .endless _ => return .error .noEnd
  | .sink _ => return .error .badDescriptor
  | .folder => return .error .isADirectory

/-- Reads all that waits at a stream. -/
def takeAll (i : Nat) : Task (Except StreamProblem Octets) :=
  takeWith i fun rest => (rest, [])

/-- So many bytes of an endless repetition. -/
def repeatedOctets (period : Octets) (n : Nat) : Octets :=
  if period.isEmpty then [] else ((List.replicate (n / period.length + 1) period).flatten).take n

/-- Reads at most so many bytes of a stream. -/
def takeAtMost (i n : Nat) : Task (Except StreamProblem Octets) := do
  match (← get).stream i with
  | .endless period => return .ok (repeatedOctets period n)
  | _ => takeWith i (splitAtMost n)

/-- Splits a text behind its first line. -/
def splitFirstLine (cs : Octets) : Octets × Octets :=
  match cs.dropWhile (· ≠ '\n') with
  | [] => (cs, [])
  | c :: rest => (cs.takeWhile (· ≠ '\n') ++ [c], rest)

/-- Reads a line with its end. -/
def takeLine (i : Nat) : Task (Except StreamProblem Octets) := do
  match (← get).stream i with
  | .endless period =>
    if period.contains '\n' then return .ok (splitFirstLine period).1 else return .error .noEnd
  | _ => takeWith i splitFirstLine

/-! ## §4 Opening files -/

def descriptorNumber? (name : Octets) : Option Nat :=
  match name with
  | '/' :: 'd' :: 'e' :: 'v' :: '/' :: 'f' :: 'd' :: '/' :: ds =>
    if ds.isEmpty || !ds.all Char.isDigit then none else some (Octets.natOf 10 ds)
  | _ =>
    if name == "/dev/stdin".toList then some 0
    else if name == "/dev/stdout".toList then some 1
    else if name == "/dev/stderr".toList then some 2
    else none

def device? (name : Octets) : Option Stream :=
  if name == "/dev/null".toList then some .void
  else if name == "/dev/zero".toList then some (.endless [Char.ofNat 0])
  else if name == "/dev/full".toList then some .full
  else none

def addStream (s : Stream) : Task Nat :=
  modifyGet fun c => ((c.add s).2, (c.add s).1)

def openToRead (name : Octets) : Task (Except FileProblem Nat) := do
  match descriptorNumber? name with
  | some fd =>
    match ← streamOf fd with
    | some i => return .ok i
    | none => return .error .missing
  | none =>
    match device? name with
    | some s => return .ok (← addStream s)
    | none =>
      let c ← get
      match c.written.lookup name with
      | some i => return .ok (← addStream (.source (c.writtenTo i)))
      | none =>
        match c.files (Octets.toText name) with
        | .ok bs => return .ok (← addStream (.source (Octets.ofBytes bs)))
        | .error .isADirectory => return .ok (← addStream .folder)
        | .error p => return .error p

/-- The directory of a path, if it names one. -/
def parentOf (name : Octets) : Octets :=
  match (name.reverse.dropWhile (· ≠ '/')) with
  | [] => ['.']
  | [_] => ['/']
  | _ :: up => up.reverse

/-- Opens a file for writing; `atEnd` keeps what is in it. -/
def openToWrite (name : Octets) (atEnd : Bool) : Task (Except FileProblem Nat) := do
  match descriptorNumber? name with
  | some fd =>
    match ← streamOf fd with
    | some i => return .ok i
    | none => return .error .missing
  | none =>
    match device? name with
    | some s => return .ok (← addStream s)
    | none =>
      let c ← get
      match c.written.lookup name with
      | some i =>
        if !atEnd then set (c.put i (.sink []))
        return .ok i
      | none =>
        let before : Except FileProblem Octets :=
          match c.files (Octets.toText name) with
          | .ok bs => .ok (Octets.ofBytes bs)
          | .error .missing =>
            match c.files (Octets.toText (parentOf name)) with
            | .error .isADirectory => .ok []
            | .ok _ => .error .notADirectory
            | .error p => .error p
          | .error p => .error p
        match before with
        | .error p => return .error p
        | .ok before =>
          let i ← addStream (.sink (if atEnd then before.reverse else []))
          modify fun c => { c with written := (name, i) :: c.written }
          return .ok i

end QueryPlayground.Program
