import QueryPlayground.Document
import QueryPlayground.Error
import QueryPlayground.Json.Reader
import QueryPlayground.Json.Printer
import QueryPlayground.Path.Parser
import QueryPlayground.Yaml.Compose
import QueryPlayground.Yaml.Printer

/-!
# Evaluating a query

A request asks for the part of a document that a query selects, as a document of some kind. The
built-in evaluator parses the query, reads the document, walks the path and renders what it finds;
where the path runs off the document that is `null`. The first of the four steps that fails decides
the message.
-/

namespace QueryPlayground

open QueryPlayground.Json (Value)

/-! ## §1 Requests -/

/-- A query to evaluate on a document. -/
structure EvalRequest where
  query : String
  data : Document
  /-- The kind of the answer. -/
  outputType : DocumentKind
  /-- The indentation of the answer, zero for none. -/
  indent : Nat
  deriving DecidableEq, Repr

/-! ## §2 Failures -/

/-- Why a request has no answer. -/
inductive EvalFailure where
  /-- The query is malformed at a byte position. -/
  | syntaxError (fault : Path.Fault) (position : Nat)
  | invalidJson (reason : String)
  | invalidYaml (reason : String)
  /-- Documents of this kind are no data. -/
  | unsupportedInput (kind : DocumentKind)
  /-- A segment of the path does not fit. -/
  | misfit (m : Path.Misfit)
  /-- Answers of this kind cannot be rendered. -/
  | unsupportedOutput (kind : DocumentKind)
  deriving DecidableEq, Repr

namespace EvalFailure

def message : EvalFailure → String
  | syntaxError fault position =>
    "syntax error at position " ++ toString position ++ ": " ++ fault.message
  | invalidJson reason => "invalid JSON input: " ++ reason
  | invalidYaml reason => "invalid YAML input: " ++ reason
  | unsupportedInput kind => "unsupported input type: " ++ kind.name
  | misfit m => m.message
  | unsupportedOutput kind => "unsupported output type: " ++ kind.name

def toError (f : EvalFailure) : Error :=
  .evaluation f.message

end EvalFailure

/-! ## §3 The steps -/

def Document.value (d : Document) : Except EvalFailure Value :=
  match d.kind with
  | .json => (Value.parse d.content).mapError .invalidJson
  | .yaml => (Yaml.parse d.content).mapError .invalidYaml
  | kind => .error (.unsupportedInput kind)

/-- A value as JSON text: compact, or indented by a number of spaces. -/
def renderJson (indent : Nat) (v : Value) : String :=
  if indent = 0 then v.compact else v.pretty indent

/-- A value as YAML text without blanks at its end. -/
def renderYaml (v : Value) : String :=
  String.ofList (Text.dropBlanksRight (Yaml.renderChars v))

def render (v : Value) (kind : DocumentKind) (indent : Nat) : Except EvalFailure Document :=
  match kind with
  | .json => .ok ⟨renderJson indent v, kind⟩
  | .yaml => .ok ⟨renderYaml v, kind⟩
  | kind => .error (.unsupportedOutput kind)

def parseQuery (query : String) : Except EvalFailure (List Path.Segment) :=
  (Path.parse query).mapError fun e => .syntaxError e.1 e.2

/-- The value that a path selects, `null` where it runs off the document. -/
def selectValue (v : Value) (path : List Path.Segment) : Except EvalFailure Value :=
  ((Path.select v path).mapError .misfit).map (·.getD .null)

/-! ## §4 The built-in evaluator -/

namespace EvalRequest

/-- The answer to a request. -/
def evaluate (r : EvalRequest) : Except EvalFailure Document := do
  let path ← parseQuery r.query
  let input ← r.data.value
  let selected ← selectValue input path
  render selected r.outputType r.indent

/-- The answer to a request, or the error that a user sees. -/
def answer (r : EvalRequest) : Except Error Document :=
  r.evaluate.mapError (·.toError)

end EvalRequest

end QueryPlayground
