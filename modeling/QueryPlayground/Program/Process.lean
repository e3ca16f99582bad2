/-!
# Programs from the outside

What can be seen of a program that was started with a name, arguments and bytes on its standard
input: what it wrote, how it ended and how long that took; or why it could not be started.
-/

namespace QueryPlayground.Program

abbrev Bytes := List Nat

/-! ## §1 Endings -/

inductive Ending where
  /-- By itself, with an exit status. -/
  | exited (status : Nat)
  | signalled (signal : Nat)
  deriving DecidableEq, Repr

namespace Ending

/-- The names of the signals, from number one on. -/
def signalNames : List String :=
  ["HUP", "INT", "QUIT", "ILL", "TRAP", "ABRT", "BUS", "FPE", "KILL", "USR1", "SEGV", "USR2",
    "PIPE", "ALRM", "TERM", "STKFLT", "CHLD", "CONT", "STOP", "TSTP", "TTIN", "TTOU", "URG", "XCPU",
    "XFSZ", "VTALRM", "PROF", "WINCH", "IO", "PWR", "SYS"]

/-- Whether the program was successful. -/
def isSuccess (e : Ending) : Bool :=
  e == .exited 0

/-- An ending in words. -/
def describe : Ending → String
  | exited status => "exit status: " ++ toString status
  | signalled signal =>
    "signal: " ++ toString signal ++
      (match signalNames[signal - 1]? with
      | some name => if signal = 0 then "" else " (SIG" ++ name ++ ")"
      | none => "")

end Ending

/-! ## §2 Runs -/

/-- What is seen of a program. -/
structure Run where
  /-- What it wrote to its standard output. -/
  output : Bytes
  /-- What it wrote to its standard error. -/
  errors : Bytes
  ending : Ending
  /-- How long it took, in milliseconds; nothing if it never ends. -/
  duration : Option Nat
  deriving DecidableEq, Repr

/-- Why a program could not be started. -/
inductive StartFailure where
  /-- Its name or an argument holds a NUL. -/
  | nulByte
  /-- There is no such program. -/
  | notFound
  /-- It must not be executed. -/
  | permissionDenied
  /-- A part of its path is no directory. -/
  | notADirectory
  | argumentTooLong
  | nameTooLong
  deriving DecidableEq, Repr

def StartFailure.message : StartFailure → String
  | nulByte => "nul byte found in provided data"
  | notFound => "No such file or directory (os error 2)"
  | permissionDenied => "Permission denied (os error 13)"
  | notADirectory => "Not a directory (os error 20)"
  | argumentTooLong => "Argument list too long (os error 7)"
  | nameTooLong => "File name too long (os error 36)"

/-- Starts programs: the name, the arguments and the bytes of the standard input. -/
abbrev Launcher := String → List String → Bytes → Except StartFailure Run

end QueryPlayground.Program
