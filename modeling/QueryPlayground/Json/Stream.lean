import QueryPlayground.Json.Reader

/-!
# Streams of JSON values

A text may hold several values one after the other. Arrays, objects and strings show their own end;
after any other value a space or the beginning of a mark has to follow. Every value takes at least
one character, so the number of characters bounds the number of values.
-/

namespace QueryPlayground.Json

/-! ## §1 Ends of values -/

/-- Whether a value that begins with a character shows its own end. -/
def showsEnd (c : Char) : Bool :=
  c = '[' || c = '"' || c = '\x7b'

/-- The characters that end a number or a word. -/
def isDelimiter (c : Char) : Bool :=
  isSpace c || c = '"' || c = '[' || c = ']' || c = '\x7b' || c = '\x7d' || c = ',' || c = ':'

/-- A number or a word has to end here. -/
def endOfWord (cs : List Char) : Except Failure Unit :=
  match cs with
  | [] => .ok ()
  | c :: _ => if isDelimiter c then .ok () else .error (.peek .trailingCharacters cs)

/-! ## §2 Streams -/

namespace Value

/-- Reads the value in front of a stream, which has no space in front. -/
def readItem (cs : List Char) : Except Failure (Value × List Char) :=
  match read cs with
  | .error f => .error f
  | .ok (v, rest) =>
    if cs.head?.any showsEnd then .ok (v, rest)
    else
      match endOfWord rest with
      | .error f => .error f
      | .ok () => .ok (v, rest)

/-- Reads the values of a stream, of which there are at most as many as the fuel. -/
def readStream : Nat → List Char → Except Failure (List Value)
  | 0, _ => .ok []
  | fuel + 1, cs =>
    match skipSpace cs with
    | [] => .ok []
    | rest =>
      match readItem rest with
      | .error f => .error f
      | .ok (v, rest) =>
        match readStream fuel rest with
        | .error f => .error f
        | .ok vs => .ok (v :: vs)

/-- The values of a stream; a refusal is described with its line and column. -/
def parseStream (cs : List Char) : Except String (List Value) :=
  (readStream (cs.length + 1) cs).mapError (·.describe cs)

end Value

end QueryPlayground.Json
