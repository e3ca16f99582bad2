import QueryPlayground.Coordinator.Machine
import QueryPlayground.Json.Stream
import QueryPlayground.Program.Process
import QueryPlayground.Text.Utf8

/-!
# Programs as evaluators

An evaluator may be a program. It gets the document as compact JSON on its standard input and the
query as its last argument. The JSON values on its standard output are the result: none stand for
`null`, one for itself, more for the array of all. A program that fails is quoted with what it wrote
to its standard error.
-/

namespace QueryPlayground

open QueryPlayground.Json (Value)
open QueryPlayground.Program (Ending Launcher Run StartFailure)

/-- A program that evaluates, with the arguments before the query. -/
structure Command where
  program : String
  /-- The arguments before the query. -/
  args : List String
  deriving DecidableEq, Repr

namespace Command

/-! ## §1 What goes in -/

/-- The bytes on the standard input for a value. -/
def inputBytes (v : Value) : Program.Bytes :=
  Text.utf8Encode v.compact.toList

/-! ## §2 What comes out -/

/-- The one value that several values stand for. -/
def combine : List Value → Value
  | [] => .null
  | [v] => v
  | vs => .arr vs

/-- The error of a program that cannot be started. -/
def startError (c : Command) (f : StartFailure) : Error :=
  .evaluation ("failed to start " ++ c.program ++ ": " ++ f.message)

/-- The error of a program that was not successful: its own words, or how it ended. -/
def exitError (c : Command) (errors : Program.Bytes) (ending : Ending) : Error :=
  let words := Text.trimBlanks (Text.utf8Lossy errors)
  .evaluation
    (if words.isEmpty then c.program ++ " exited with " ++ ending.describe else String.ofList words)

def outputValues (c : Command) (output : Program.Bytes) : Except Error (List Value) :=
  (Value.parseStream (Text.utf8Lossy output)).mapError fun reason =>
    .evaluation ("invalid output from " ++ c.program ++ ": " ++ reason)

def answerOf (c : Command) (r : EvalRequest) (run : Run) : Except Error Document :=
  if run.ending.isSuccess then
    match c.outputValues run.output with
    | .error e => .error e
    | .ok vs => (render (combine vs) r.outputType r.indent).mapError (·.toError)
  else .error (c.exitError run.errors run.ending)

/-! ## §3 Evaluations -/

def start (launch : Launcher) (c : Command) (r : EvalRequest) : Except Error Run :=
  match r.data.value with
  | .error f => .error f.toError
  | .ok v => (launch c.program (c.args ++ [r.query]) (inputBytes v)).mapError c.startError

/-- The answer to a request; a cancelled one is given up as soon as the program runs. -/
def evaluate (launch : Launcher) (c : Command) (cancelled : Bool) (r : EvalRequest) :
    Except Error Document :=
  match c.start launch r with
  | .error e => .error e
  | .ok run => if cancelled then .error .evaluationCancelled else c.answerOf r run

/-- The program as an evaluator for the coordinator, which can cancel it at any time. -/
def evaluator (launch : Launcher) (c : Command) : Coordinator.Evaluator := fun r =>
  match c.start launch r with
  | .error e => ⟨.none, false, .error e⟩
  | .ok run =>
    ⟨match run.duration with
      | some d => .time d
      | none => .gate,
      false, c.answerOf r run⟩

end Command

end QueryPlayground
