import QueryPlayground.Yaml.Failure

/-!
# Walking through YAML text

A cursor is the unread text with the number of characters read and the mark of the next one. Line
breaks are carriage return, line feed, the two together, next line, and the line and paragraph
separators; they are the only characters that begin a new line.
-/

namespace QueryPlayground.Yaml

/-! ## §1 Classes of characters -/

/-- A space or a tab. -/
def isBlankChar (c : Char) : Bool :=
  c = ' ' || c = '\t'

def isBreakChar (c : Char) : Bool :=
  c = '\n' || c = '\r' || c.toNat = 0x85 || c.toNat = 0x2028 || c.toNat = 0x2029

/-- A letter, digit, underscore or hyphen of ASCII. -/
def isWordChar (c : Char) : Bool :=
  c.isAlphanum || c = '_' || c = '-'

/-- A hexadecimal digit. -/
def isHexChar (c : Char) : Bool :=
  c.isDigit || ('a' ≤ c && c ≤ 'f') || ('A' ≤ c && c ≤ 'F')

/-- The value of a hexadecimal digit. -/
def hexCharValue (c : Char) : Nat :=
  if c.isDigit then c.toNat - 48 else if 'a' ≤ c then c.toNat - 87 else c.toNat - 55

/-- Whether the text starts with a line break or is at its end. -/
def atBreakOrEnd : List Char → Bool
  | [] => true
  | c :: _ => isBreakChar c

/-- Whether the text starts with a blank or a line break or is at its end. -/
def atBlankOrEnd : List Char → Bool
  | [] => true
  | c :: _ => isBlankChar c || isBreakChar c

def startsWith (c : Char) : List Char → Bool
  | [] => false
  | d :: _ => d = c

/-- Whether the text starts with three of a character, and a blank or the end after them. -/
def startsWithThree (c : Char) : List Char → Bool
  | x :: y :: z :: rest => x = c && y = c && z = c && atBlankOrEnd rest
  | _ => false

/-- The text of a line break as content: every break but the separators is a line feed. -/
def breakText (c : Char) : Char :=
  if c.toNat = 0x2028 || c.toNat = 0x2029 then c else '\n'

/-! ## §2 The cursor -/

/-- A place in a text, with the text from there on. -/
structure Cursor where
  /-- The unread text. -/
  rest : List Char
  /-- The number of characters read. -/
  index : Nat
  /-- The line of the next character. -/
  line : Nat
  /-- The column of the next character. -/
  column : Nat
  deriving Repr, Inhabited

namespace Cursor

def start (text : List Char) : Cursor :=
  ⟨text, 0, 0, 0⟩

/-- The mark of the next character. -/
def mark (c : Cursor) : Mark :=
  ⟨c.line, c.column⟩

/-- Passes over characters that are no line breaks. -/
def skip (c : Cursor) (n : Nat) : Cursor :=
  { c with rest := c.rest.drop n, index := c.index + n, column := c.column + n }

/-- Passes over a line break, if one is next. -/
def skipBreak (c : Cursor) : Cursor :=
  match c.rest with
  | '\r' :: '\n' :: rest => ⟨rest, c.index + 2, c.line + 1, 0⟩
  | d :: rest => if isBreakChar d then ⟨rest, c.index + 1, c.line + 1, 0⟩ else c
  | [] => c

/-- The content that the next line break stands for. -/
def breakContent (c : Cursor) : List Char :=
  match c.rest with
  | d :: _ => if isBreakChar d then [breakText d] else []
  | [] => []

/-- The characters in front that satisfy a test. -/
def taken (c : Cursor) (p : Char → Bool) : List Char :=
  c.rest.takeWhile p

/-- Passes over the characters in front that satisfy a test; none of them may be a line break. -/
def skipWhile (c : Cursor) (p : Char → Bool) : Cursor :=
  c.skip (c.taken p).length

/-- Passes over blanks and then over a comment. -/
def skipComment (c : Cursor) : Cursor :=
  if startsWith '#' c.rest then c.skipWhile (!isBreakChar ·) else c

/-- Whether a document indicator is next, at the beginning of a line. -/
def atDocumentIndicator (c : Cursor) : Bool :=
  c.column == 0 && (startsWithThree '-' c.rest || startsWithThree '.' c.rest)

end Cursor

end QueryPlayground.Yaml
