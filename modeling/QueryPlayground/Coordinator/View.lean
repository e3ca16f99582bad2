import QueryPlayground.Evaluation

/-!
# What an apply works on and what it shows

The inputs of an apply, the settings of the coordinator, and the view: the last output, the error of
the last apply if it failed, and a line about the evaluation in progress.
-/

namespace QueryPlayground.Coordinator

/-! ## §1 Settings and inputs -/

/-- How queries are applied. -/
structure Settings where
  /-- Whether edits apply the query by themselves. -/
  autoApply : Bool
  /-- The quiet time before they do, in milliseconds. -/
  debounceMs : Nat
  indent : Nat
  /-- The time that an evaluation may take, in milliseconds. -/
  timeout : Option Nat
  deriving DecidableEq, Repr

/-- What an apply works on. -/
structure Inputs where
  input : Document
  /-- The query, or a template. -/
  query : Document
  outputType : DocumentKind
  deriving DecidableEq, Repr

/-- Nothing entered yet. -/
def Inputs.default : Inputs :=
  ⟨.empty .json, .empty .query, .json⟩

def Inputs.request (i : Inputs) (indent : Nat) : EvalRequest :=
  ⟨i.query.content, i.input, i.outputType, indent⟩

/-- The line about applying inputs. -/
def Inputs.loadingText (i : Inputs) : String :=
  "Applying " ++ i.query.kind.name ++ " to " ++ i.input.kind.name ++ " input"

/-- The line about an evaluation that took too long. -/
def cancellingText : String := "Cancelling timed-out evaluation"

/-! ## §2 The view -/

/-- What a user sees. -/
structure View where
  output : Option Document
  error : Option String
  /-- A line about what is going on. -/
  loading : Option String
  deriving DecidableEq, Repr

namespace View

def empty : View :=
  ⟨none, none, none⟩

def showOutput (v : View) (d : Document) : View :=
  { v with output := some d, error := none }

/-- The view once an apply has failed, which leaves the output. -/
def showError (v : View) (message : String) : View :=
  { v with error := some message }

def showLoading (v : View) (loading : Option String) : View :=
  { v with loading := loading }

end View

/-- How an apply ended. -/
inductive Outcome where
  | applied (d : Document)
  | failed (message : String)
  /-- It was not started, because another one was in progress. -/
  | dropped
  deriving DecidableEq, Repr

end QueryPlayground.Coordinator
