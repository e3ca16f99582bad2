import QueryPlayground.Program.Console
import QueryPlayground.Program.Shell.Arithmetic
import QueryPlayground.Program.Shell.Pattern
import QueryPlayground.Program.Shell.Reader

/-!
# The state of a shell

What a shell knows while it runs a script, and how it leaves one. `Step` is a piece of a run: it
changes the state, and it gives a result or leaves. What was done before it left stays done.
-/

namespace QueryPlayground.Program.Shell

/-! ## §1 States -/

/-- What a shell knows. -/
structure State where
  name : Octets
  /-- The arguments of the script or of a function. -/
  args : List Octets
  /-- The variables with their values, the newest one first. -/
  bindings : List (Octets × Octets)
  /-- The variables that programs get. -/
  exported : List Octets
  functions : List (Octets × Command)
  /-- The signals with what is done on them, which is nothing for an empty text; zero is the end. -/
  traps : List (Nat × Octets)
  /-- The status of the last command. -/
  status : Nat
  /-- The status of the last substitution of a command, if there was one in the current one. -/
  substituted : Option Nat
  /-- The line of the script. -/
  line : Nat
  /-- The name of the command that the shell itself runs. -/
  command : Option Octets
  descriptors : Descriptors
  /-- The options that are set. -/
  options : List Char
  /-- The number of loops around a command. -/
  loops : Nat
  /-- The number of functions around a command. -/
  calls : Nat
  /-- The variables that a function has of its own, with their values before. -/
  locals : Option (List (Octets × Option Octets))
  /-- The number of the last command in the background. -/
  lastBackground : Octets
  /-- The streams, the time and the files. -/
  console : Console

/-- How a shell leaves what it does. -/
inductive Leave where
  /-- It ends with a status. -/
  | exit (status : Nat)
  /-- It ends by a signal. -/
  | killed (signal : Nat)
  /-- It never ends. -/
  | never
  /-- It gives up what it does after an error. -/
  | failed
  /-- It leaves so many loops. -/
  | stopLoop (n : Nat)
  /-- It goes on with a loop, after leaving all but one of so many. -/
  | nextRound (n : Nat)
  /-- It leaves a function with a status. -/
  | back (status : Nat)

/-- A piece of a run. -/
abbrev Step := ExceptT Leave (StateM State)

namespace State

/-- Whether an option is set. -/
def has (s : State) (option : Char) : Bool :=
  s.options.contains option

/-- The most functions around a command. -/
def callLimit : Nat := 1000

def processNumber : Nat := 4242

/-- The value of a variable. -/
def value? (s : State) (name : Octets) : Option Octets :=
  s.bindings.lookup name

/-- Gives a variable a value. -/
def assign (s : State) (name value : Octets) : State :=
  { s with
    bindings := (name, value) :: s.bindings.filter fun v => v.1 != name
    exported := if s.has 'a' then name :: s.exported else s.exported }

/-- Takes a variable away. -/
def forget (s : State) (name : Octets) : State :=
  { s with
    bindings := s.bindings.filter fun v => v.1 != name
    exported := s.exported.filter (· != name) }

/-- The characters between fields. -/
def separators (s : State) : Octets :=
  (s.value? "IFS".toList).getD [' ', '\t', '\n']

/-- The variables that a program gets. -/
def environment (s : State) : List (Octets × Octets) :=
  s.bindings.filter fun v => s.exported.contains v.1

/-- What stands before a message. -/
def lead (s : State) : Octets :=
  s.name ++ ": ".toList ++ Octets.ofNat s.line ++ ": ".toList ++
    s.command.elim [] fun c => c ++ ": ".toList

end State

/-! ## §2 Steps -/

/-- Does what a program does with the descriptors of the shell. -/
def perform {α : Type} (t : Task α) : Step α :=
  modifyGet fun s =>
    let (a, console) := (t.run s.descriptors).run s.console
    (a, { s with console := console })

/-- Writes a message. -/
def warn (message : Octets) : Step Unit := do
  perform (complainOctets ((← get).lead ++ message ++ ['\n']))

/-- The status after an error of the shell. -/
def errorStatus : Nat := 2

/-- Writes a message and gives up. -/
def fail {α : Type} (message : Octets) : Step α := do
  warn message
  throw .failed

def setStatus (status : Nat) : Step Nat := do
  modify fun s => { s with status := status }
  return status

/-- Runs a step and then changes the state, also if the step leaves. -/
def followedBy {α : Type} (after : State → State) (step : Step α) : Step α := do
  try
    let a ← step
    modify after
    return a
  catch e =>
    modify after
    throw e

/-- Runs a step as a command of the shell with a name. -/
def asCommand {α : Type} (name : Octets) (step : Step α) : Step α := do
  let before := (← get).command
  modify fun s => { s with command := some name }
  followedBy (fun s => { s with command := before }) step

/-- Runs a step inside a loop. -/
def inLoop {α : Type} (step : Step α) : Step α := do
  modify fun s => { s with loops := s.loops + 1 }
  followedBy (fun s => { s with loops := s.loops - 1 }) step

/-- Rounds that go on until one gives a result, or else up to the bound. -/
def rounds (round : State → Except Leave (Option Nat) × State) :
    Nat → State → Except Leave Nat × State
  | 0, s => (.error .never, s)
  | bound + 1, s =>
    match round s with
    | (.error e, s) => (.error e, s)
    | (.ok (some status), s) => (.ok status, s)
    | (.ok none, s) => rounds round bound s

/-- A round for each of some values, until one gives a result; the last status if none does. -/
def roundsFor (round : Octets → State → Except Leave (Option Nat) × State) :
    List Octets → State → Except Leave Nat × State
  | [], s => (.ok s.status, s)
  | x :: xs, s =>
    match round x s with
    | (.error e, s) => (.error e, s)
    | (.ok (some status), s) => (.ok status, s)
    | (.ok none, s) => roundsFor round xs s

/-- A round at each place of a script, until one gives no next place; the last status, which is zero if
there was no other round. -/
def roundsAt (round : Reader → State → Except Leave (Option Reader) × State) :
    Nat → Bool → Reader → State → Except Leave Nat × State
  | 0, _, _, s => (.ok s.status, s)
  | bound + 1, any, r, s =>
    match round r s with
    | (.error e, s) => (.error e, s)
    | (.ok none, s) => (.ok (if any then s.status else 0), s)
    | (.ok (some next), s) => roundsAt round bound true next s

/-- More rounds than a script that ends is taken to need. -/
def roundBound : Nat := 200000

def ofFunction {α : Type} (f : State → Except Leave α × State) : Step α :=
  ExceptT.mk (modifyGet f)

/-- Runs the body of a loop: nothing if the loop goes on, else its status. -/
def loopBody (body : Step Nat) : Step (Option Nat) := do
  try
    let _ ← body
    return none
  catch
    | .stopLoop n => if n ≤ 1 then return some 0 else throw (.stopLoop (n - 1))
    | .nextRound n => if n ≤ 1 then return none else throw (.nextRound (n - 1))
    | e => throw e

/-! ## §3 Fields -/

/-- A piece of an expanded word. -/
inductive Piece where
  /-- A character; whether it is quoted, and whether it can separate fields. -/
  | char (c : Char) (quoted splits : Bool)
  /-- A place between two fields. -/
  | between
  /-- A field is here even if it is empty. -/
  | here

/-- The pieces of the value of an expansion. -/
def valuePieces (quoted : Bool) (value : Octets) : List Piece :=
  (if quoted then [.here] else []) ++ value.map fun c => .char c quoted (!quoted)

/-- Where the splitting of a word stands. -/
structure Splitting where
  /-- The fields that are complete, the last one first. -/
  complete : List Octets
  /-- The field at hand, its last character first. -/
  current : Option Octets
  /-- Whether only white space stands behind the last complete field. -/
  afterSpace : Bool

/-- Ends the field at hand, if there is one. -/
def Splitting.close (s : Splitting) (afterSpace : Bool) : Splitting :=
  match s.current with
  | some f => ⟨f.reverse :: s.complete, none, afterSpace⟩
  | none => s

def Splitting.add (separators : Octets) (s : Splitting) (p : Piece) : Splitting :=
  match p with
  | .char c _ splits =>
    if splits && separators.contains c then
      if Octets.isSpace c then s.close true
      else if s.current.isSome then s.close false
      else if s.afterSpace then { s with afterSpace := false }
      else { s with complete := [] :: s.complete }
    else { s with current := some (c :: s.current.getD []), afterSpace := false }
  | .between => { s.close false with afterSpace := false }
  | .here => { s with current := some (s.current.getD []), afterSpace := false }

def fieldsOf (separators : Octets) (ps : List Piece) : List Octets :=
  ((ps.foldl (Splitting.add separators) ⟨[], none, false⟩).close false).complete.reverse

/-- The text of pieces that are one field. -/
def textOf (ps : List Piece) : Octets :=
  ps.filterMap fun p => match p with
    | .char c _ _ => some c
    | .between => some ' '
    | .here => none

def patternOf (ps : List Piece) : List Glob :=
  Glob.compile 0 (ps.filterMap fun p => match p with
    | .char c quoted _ => some (c, quoted)
    | _ => none)

/-- A text without the line breaks at its end. -/
def withoutBreaks (cs : Octets) : Octets :=
  (cs.reverse.dropWhile (· = '\n')).reverse

/-! ## §4 Parameters -/

/-- The value of a parameter other than all arguments. -/
def State.parameter? (s : State) (name : Octets) : Option Octets :=
  match name with
  | ['#'] => some (Octets.ofNat s.args.length)
  | ['?'] => some (Octets.ofNat s.status)
  | ['-'] => some s.options
  | ['$'] => some (Octets.ofNat State.processNumber)
  | ['!'] => if s.lastBackground.isEmpty then none else some s.lastBackground
  | ['0'] => some s.name
  | _ =>
    if name.head?.any Char.isDigit then
      let n := Octets.natOf 10 name
      if n = 0 then some s.name else s.args[n - 1]?
    else s.value? name

def State.argumentPieces (s : State) (star quoted : Bool) : List Piece :=
  if star && quoted then
    valuePieces true ((match s.separators with
      | [] => []
      | c :: _ => [c]).intercalate s.args)
  else ([Piece.between].intercalate (s.args.map (valuePieces quoted)))

end QueryPlayground.Program.Shell
