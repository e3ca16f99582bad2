import QueryPlayground.Path.Segment
import QueryPlayground.Json.Failure
import QueryPlayground.Text.Blank
import QueryPlayground.Text.Letter
import QueryPlayground.MachineWord

/-!
# The query language

A query is blank, a single point, or a path: an optional point, a segment, and then any number of
segments in brackets or after a point. A segment is a name or stands in brackets, where it is a
quoted field name or a position.

`parse` reads the trimmed query. A refusal keeps the text from the offending place on, so that its
position is the number of bytes before that text.
-/

namespace QueryPlayground.Path

open QueryPlayground.Text

/-! ## §1 Refusals -/

/-- What is wrong with a query. -/
inductive Fault where
  /-- The closing bracket is missing; something else stands there. -/
  | expectedClose (found : Char)
  /-- The closing bracket is missing at the end of the query. -/
  | missingClose
  /-- The digits give no position. -/
  | invalidIndex (digits : String)
  /-- Neither a quote nor a number follows the opening bracket. -/
  | unexpectedInBrackets (found : Char)
  /-- The query ends after an opening bracket. -/
  | unterminatedBracket
  /-- A quoted name does not end. -/
  | unterminatedString
  /-- No segment starts with this character. -/
  | unexpected (found : Char)
  /-- The query ends where a segment is due. -/
  | expectedField
  deriving DecidableEq, Repr

def Fault.message : Fault → String
  | expectedClose found => "expected ']', found '" ++ String.singleton found ++ "'"
  | missingClose => "expected ']', found end of query"
  | invalidIndex digits => "invalid index '" ++ digits ++ "'"
  | unexpectedInBrackets found => "unexpected '" ++ String.singleton found ++ "' inside brackets"
  | unterminatedBracket => "unterminated '['"
  | unterminatedString => "unterminated string"
  | unexpected found => "unexpected '" ++ String.singleton found ++ "'"
  | expectedField => "expected a field name"

/-- A fault and the text from the offending place on. -/
structure Refusal where
  fault : Fault
  /-- The text from the offending place on. -/
  rest : List Char
  deriving DecidableEq, Repr

/-- The byte position of a refusal in the text that was read. -/
def Refusal.position (text : List Char) (r : Refusal) : Nat :=
  Json.Failure.byteCount text - Json.Failure.byteCount r.rest

/-! ## §2 Segments -/

def isNameStart (c : Char) : Bool :=
  isAlphabetic c || c = '_'

def isNameChar (c : Char) : Bool :=
  isAlphanumeric c || c = '_' || c = '-'

/-- Reads the rest of a quoted name, in which a backslash makes the next character literal. -/
def quotedFrom (done : List Char) : List Char → Option (String × List Char)
  | [] => none
  | '"' :: rest => some (String.ofList done.reverse, rest)
  | ['\\'] => none
  | '\\' :: c :: rest => quotedFrom (c :: done) rest
  | c :: rest => quotedFrom (c :: done) rest

/-- The number that digits write. -/
def digitsValue (digits : List Char) : Nat :=
  digits.foldl (fun n c => n * 10 + (c.toNat - 48)) 0

/-- The position that a sign and digits write, if it is a machine integer. -/
def indexValue? (negative : Bool) (digits : List Char) : Option Int :=
  let n := digitsValue digits
  if digits.isEmpty then none
  else if negative then (if n ≤ MachineWord.half then some (-(n : Int)) else none)
  else if n < MachineWord.half then some n else none

/-- Reads a closing bracket. -/
def close (s : Segment) (cs : List Char) : Except Refusal (Segment × List Char) :=
  match cs with
  | [] => .error ⟨.missingClose, []⟩
  | ']' :: rest => .ok (s, rest)
  | c :: rest => .error ⟨.expectedClose c, c :: rest⟩

/-- Reads a position and the closing bracket. -/
def position (cs : List Char) : Except Refusal (Segment × List Char) :=
  let negative := cs.head? == some '-'
  let body := if negative then cs.drop 1 else cs
  let digits := body.takeWhile Char.isDigit
  match indexValue? negative digits with
  | some i => close (.index i) (body.dropWhile Char.isDigit)
  | none => .error ⟨.invalidIndex (String.ofList ((if negative then ['-'] else []) ++ digits)), cs⟩

/-- Reads what stands in brackets, of which the opening one is read. -/
def bracket (cs : List Char) : Except Refusal (Segment × List Char) :=
  match cs with
  | [] => .error ⟨.unterminatedBracket, []⟩
  | '"' :: rest =>
    match quotedFrom [] rest with
    | some (name, rest) => close (.field name) rest
    | none => .error ⟨.unterminatedString, cs⟩
  | c :: _ =>
    if c = '-' || c.isDigit then position cs else .error ⟨.unexpectedInBrackets c, cs⟩

/-- Reads a segment at the start of a path or after a point. -/
def segment (cs : List Char) : Except Refusal (Segment × List Char) :=
  match cs with
  | [] => .error ⟨.expectedField, []⟩
  | '[' :: rest => bracket rest
  | c :: _ =>
    if isNameStart c then
      .ok (.field (String.ofList (cs.takeWhile isNameChar)), cs.dropWhile isNameChar)
    else .error ⟨.unexpected c, cs⟩

/-! ## §3 Paths -/

/-- Reads the segments that follow, with the ones read so far in reverse. -/
def segmentsFrom : Nat → List Segment → List Char → Except Refusal (List Segment)
  | 0, done, _ => .ok done.reverse
  | fuel + 1, done, cs =>
    match cs with
    | [] => .ok done.reverse
    | '.' :: rest =>
      match segment rest with
      | .ok (s, rest) => segmentsFrom fuel (s :: done) rest
      | .error e => .error e
    | '[' :: rest =>
      match bracket rest with
      | .ok (s, rest) => segmentsFrom fuel (s :: done) rest
      | .error e => .error e
    | c :: rest => .error ⟨.unexpected c, c :: rest⟩

/-- Reads a first segment and the segments that follow it. -/
def segments (cs : List Char) : Except Refusal (List Segment) :=
  match segment cs with
  | .ok (s, rest) => segmentsFrom (rest.length + 1) [s] rest
  | .error e => .error e

/-- Reads a trimmed query. -/
def parseTrimmed (cs : List Char) : Except Refusal (List Segment) :=
  match cs with
  | [] => .ok []
  | ['.'] => .ok []
  | '.' :: rest => segments rest
  | _ => segments cs

/-- The path that a query writes, or the fault with its byte position in the trimmed query. -/
def parse (query : String) : Except (Fault × Nat) (List Segment) :=
  let cs := trimBlanks query.toList
  (parseTrimmed cs).mapError fun r => (r.fault, r.position cs)

end QueryPlayground.Path
