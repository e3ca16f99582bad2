import QueryPlayground.Program.Catalog
import QueryPlayground.Program.Shell.State

/-!
# Steps of a run

What a shell does between commands: it deals with the end of a child, directs descriptors and calculates.
-/

namespace QueryPlayground.Program.Shell

/-! ## §1 Children -/

/-- What is kept of a shell that was a copy. -/
def keepConsole (before after : State) : State :=
  { before with console := after.console }

/-- The message about a child that a signal ended. -/
def signalMessage (signal : Nat) : Octets :=
  match signal with
  | 2 => []
  | 13 => []
  | 1 => "Hangup\n".toList
  | 3 => "Quit\n".toList
  | 4 => "Illegal instruction\n".toList
  | 5 => "Trace/breakpoint trap\n".toList
  | 6 => "Aborted\n".toList
  | 7 => "Bus error\n".toList
  | 8 => "Floating point exception\n".toList
  | 9 => "Killed\n".toList
  | 10 => "User defined signal 1\n".toList
  | 11 => "Segmentation fault\n".toList
  | 12 => "User defined signal 2\n".toList
  | 14 => "Alarm clock\n".toList
  | 15 => "Terminated\n".toList
  | n => "Unknown signal ".toList ++ Octets.ofNat n ++ ['\n']

def childStatus (f : Finish) : Step Nat := do
  match f with
  | none => throw .never
  | some (.exited status) => return status
  | some (.signalled signal) =>
    perform (complainOctets (signalMessage signal))
    return 128 + signal

/-- Starts a program for a shell. -/
def runTool (run : Octets → List Octets → Task Finish) (name : Octets) (args : List Octets) :
    Step Nat := do
  childStatus (← perform (run name args))

/-- The status after a program that is not there. -/
def notFound (name : Octets) (denied : Bool) : Step Nat := do
  warn (name ++ (if denied || name.isEmpty then ": Permission denied" else ": not found").toList)
  return if denied then 126 else 127

/-! ## §2 Redirections -/

/-- The problem of a file in a redirection. -/
def cannotOpen (name : Octets) (p : FileProblem) : Octets :=
  "cannot open ".toList ++ name ++ ": ".toList ++
    (match p with
    | .missing | .notADirectory => "No such file"
    | p => p.message).toList

/-- The problem of a file that is to be written. -/
def cannotCreate (name : Octets) (p : FileProblem) : Octets :=
  "cannot create ".toList ++ name ++ ": ".toList ++
    (match p with
    | .missing | .notADirectory => "Directory nonexistent"
    | p => p.message).toList

/-- Directs a descriptor to a stream, or closes it. -/
def direct (descriptor : Nat) (stream : Option Nat) : Step Unit :=
  modify fun s =>
    { s with
      descriptors := (stream.map fun i => (descriptor, i)).toList ++
        s.descriptors.filter fun d => d.1 != descriptor }

/-- Opens a file for a redirection. -/
def openFor (descriptor : Nat) (opened : Task (Except FileProblem Nat))
    (message : FileProblem → Octets) : Step Unit := do
  match ← perform opened with
  | .ok i => direct descriptor (some i)
  | .error p => fail (message p)

/-- Does a redirection of which the target is expanded. -/
def redirectTo (descriptor : Nat) (d : Direction) (target : Octets) : Step Unit := do
  match d with
  | .input => openFor descriptor (openToRead target) (cannotOpen target)
  | .output => openFor descriptor (openToWrite target false) (cannotCreate target)
  | .append => openFor descriptor (openToWrite target true) (cannotCreate target)
  | .both => openFor descriptor (openToWrite target true) (cannotCreate target)
  | .document =>
    let i ← perform (addStream (.source target))
    direct descriptor (some i)
  | .duplicate =>
    match target with
    | ['-'] => direct descriptor none
    | [c] =>
      if c.isDigit then
        match (← get).descriptors.lookup (c.toNat - 48) with
        | some i => direct descriptor (some i)
        | none => fail (c :: ": Bad file descriptor".toList)
      else fail "Syntax error: Bad fd number".toList
    | _ => fail "Syntax error: Bad fd number".toList

/-! ## §3 Values -/

/-- The value of a parameter that must be set. -/
def unsetMessage (name : Octets) (message : Octets) : Octets :=
  name ++ ": ".toList ++ if message.isEmpty then "parameter not set".toList else message

/-- The value of an arithmetic expression. -/
def calculate (expression : Octets) : Step Octets := do
  let s ← get
  match (do
      let t ← Arithmetic.Term.read expression
      t.eval.run s.bindings : Except Arithmetic.Problem (Int × Arithmetic.Bindings)) with
  | .ok (n, bindings) =>
    let fresh := (bindings.take (bindings.length - s.bindings.length)).reverse
    for (name, value) in fresh do modify fun s => s.assign name value
    return Octets.ofInt n
  | .error (.illegalNumber value) => fail ("Illegal number: ".toList ++ value)
  | .error (.expecting what) => problem ("expecting " ++ what)
  | .error .divisionByZero => problem "division by zero"
where
  /-- Says what is wrong with the expression. -/
  problem (what : String) : Step Octets :=
    fail ("arithmetic expression: ".toList ++ what.toList ++ ": \"".toList ++ expression ++ ['"'])

end QueryPlayground.Program.Shell
