/-!
# Why JSON text is refused

A failure has a cause and the place where it was noticed. Places count bytes: a place is the text
that was still unread and the number of bytes of it that the complaint counts as read. `describe`
turns it into a line and a column.
-/

namespace QueryPlayground.Json

/-! ## §1 Causes -/

/-- What is wrong with the text. -/
inductive Cause where
  /-- The text ends inside an array. -/
  | endInArray
  /-- The text ends inside an object. -/
  | endInObject
  | endInString
  /-- The text ends where a value is due. -/
  | endInValue
  /-- A key is not followed by a colon. -/
  | expectedColon
  /-- An item of an array is followed by something else. -/
  | expectedCommaOrBracket
  /-- A member of an object is followed by something else. -/
  | expectedCommaOrBrace
  /-- A word that is not `null`, `true` or `false`. -/
  | expectedWord
  /-- No value starts here. -/
  | expectedValue
  /-- An unknown escape, or a bad hexadecimal digit. -/
  | invalidEscape
  | invalidNumber
  /-- A number beyond the doubles. -/
  | numberOutOfRange
  /-- A bare control character inside a string. -/
  | controlCharacter
  | keyMustBeString
  /-- Half of a surrogate pair. -/
  | loneSurrogate
  /-- The second half of a surrogate pair is missing. -/
  | endInHexEscape
  /-- A comma before a closing bracket. -/
  | trailingComma
  /-- Something after the end of the value. -/
  | trailingCharacters
  /-- Too many nested arrays and objects. -/
  | tooDeep
  /-- The value is well formed but not of the type that is due. -/
  | mismatch (text : String)
  deriving DecidableEq, Repr

def Cause.message : Cause → String
  | endInArray => "EOF while parsing a list"
  | endInObject => "EOF while parsing an object"
  | endInString => "EOF while parsing a string"
  | endInValue => "EOF while parsing a value"
  | expectedColon => "expected `:`"
  | expectedCommaOrBracket => "expected `,` or `]`"
  | expectedCommaOrBrace => "expected `,` or `\x7d`"
  | expectedWord => "expected ident"
  | expectedValue => "expected value"
  | invalidEscape => "invalid escape"
  | invalidNumber => "invalid number"
  | numberOutOfRange => "number out of range"
  | controlCharacter => "control character (\\u0000-\\u001F) found while parsing a string"
  | keyMustBeString => "key must be a string"
  | loneSurrogate => "lone leading surrogate in hex escape"
  | endInHexEscape => "unexpected end of hex escape"
  | trailingComma => "trailing comma"
  | trailingCharacters => "trailing characters"
  | tooDeep => "recursion limit exceeded"
  | mismatch text => text

/-! ## §2 Places -/

/-- A cause and its place: the unread text and how many of its bytes count as read. -/
structure Failure where
  /-- What is wrong. -/
  cause : Cause
  /-- The text that was still unread. -/
  rest : List Char
  /-- How many bytes of it the complaint counts as read. -/
  ahead : Nat
  deriving Repr

namespace Failure

def byteCount (cs : List Char) : Nat :=
  cs.foldl (fun n c => n + c.utf8Size) 0

/-- A failure before the first unread byte. -/
def here (cause : Cause) (rest : List Char) : Failure :=
  ⟨cause, rest, 0⟩

/-- A failure at the first unread byte. -/
def peek (cause : Cause) (rest : List Char) : Failure :=
  ⟨cause, rest, 1⟩

/-- The line and the column of a byte offset: the lines that ended before it, and the bytes since. -/
def lineColumn : List Char → Nat → Nat → Nat → Nat × Nat
  | [], offset, line, column => (line, column + offset)
  | c :: cs, offset, line, column =>
    if offset = 0 then (line, column)
    else if c = '\n' then lineColumn cs (offset - 1) (line + 1) 0
    else if offset < c.utf8Size then (line, column + offset)
    else lineColumn cs (offset - c.utf8Size) line (column + c.utf8Size)

/-- The message with the place in the text that was read. -/
def describe (text : List Char) (f : Failure) : String :=
  let total := byteCount text
  let offset := min total (total - byteCount f.rest + f.ahead)
  let (line, column) := lineColumn text offset 1 0
  f.cause.message ++ " at line " ++ toString line ++ " column " ++ toString column

end Failure

end QueryPlayground.Json
