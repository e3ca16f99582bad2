import QueryPlayground.Yaml.Cursor
import QueryPlayground.Yaml.Scalar
import QueryPlayground.Json.Printer

/-!
# YAML text of a value

Collections are written in block style with two columns a level; empty ones are brackets or braces.
A sequence that is the value of a simple key stands at the column of that key. A string is plain where
that reads back as the same string, else in single quotes, else in double quotes; a string with a line
feed is a literal block where that can hold it. Lines are never folded.

The writer keeps the column and two facts about the current line: whether it ends in space, and
whether only indentation and indicators stand on it.
-/

namespace QueryPlayground.Yaml

open QueryPlayground.Json (Value intChars)
open QueryPlayground.Decimal (Layout)

/-! ## §1 The writer -/

/-- Text being written. -/
structure Writer where
  /-- The text so far, in reverse. -/
  out : List Char
  column : Nat
  /-- Whether the text ends in space. -/
  spaced : Bool
  /-- Whether only indentation and indicators stand on the line. -/
  fresh : Bool
  deriving Inhabited

namespace Writer

/-- Nothing written. -/
def empty : Writer :=
  ⟨[], 0, true, true⟩

def put (w : Writer) (c : Char) : Writer :=
  { w with out := c :: w.out, column := w.column + 1 }

/-- Writes characters of one line. -/
def putAll (w : Writer) (cs : List Char) : Writer :=
  cs.foldl put w

/-- Writes a line break. -/
def newLine (w : Writer) (c : Char) : Writer :=
  { w with out := c :: w.out, column := 0 }

/-- Writes spaces up to a column. -/
def padTo (w : Writer) (column : Nat) : Writer :=
  w.putAll (List.replicate (column - w.column) ' ')

/-- Moves to a column on a line of its own. -/
def indentTo (w : Writer) (indent : Nat) : Writer :=
  let w :=
    if !w.fresh || indent < w.column || (w.column == indent && !w.spaced) then w.newLine '\n'
    else w
  { w.padTo indent with spaced := true, fresh := true }

/-- Writes an indicator, with a space before it if one is needed. -/
def indicator (w : Writer) (text : List Char) (needsSpace isSpace keepsFresh : Bool) : Writer :=
  let w := if needsSpace && !w.spaced then w.put ' ' else w
  { w.putAll text with spaced := isSpace, fresh := w.fresh && keepsFresh }

def endScalar (w : Writer) : Writer :=
  { w with spaced := false, fresh := false }

end Writer

/-! ## §2 What a string allows -/

/-- Whether a character can stand in a text without an escape. -/
def isPrintable (c : Char) : Bool :=
  let n := c.toNat
  n == 10 || (32 ≤ n && n ≤ 0x7E) || (0xA0 ≤ n && n ≠ 0xFEFF && n ≠ 0xFFFE && n ≠ 0xFFFF)

/-- Whether a character is a blank, a break or the null character. -/
def isGap (c : Char) : Bool :=
  isBlankChar c || isBreakChar c || c.toNat == 0

/-- Whether a text starts with a gap or is at its end. -/
def atGap : List Char → Bool
  | [] => true
  | c :: _ => isGap c

/-- Whether a character in front of a text makes it unfit to be plain. -/
def leadsIndicator (cs : List Char) : Bool :=
  match cs with
  | [] => false
  | c :: rest =>
    ['#', ',', '[', ']', '\x7b', '\x7d', '&', '*', '!', '|', '>', '\'', '"', '%', '@',
      Char.ofNat 96].contains c ||
    ((c = '?' || c = ':' || c = '-') && atGap rest)

/-- Whether an indicator inside a text makes it unfit to be plain: a colon before a gap, or a number
sign behind one. -/
def holdsIndicator (afterGap : Bool) : List Char → Bool
  | [] => false
  | c :: rest =>
    (c = ':' && atGap rest) || (c = '#' && afterGap) || holdsIndicator (isGap c) rest

/-- Whether a text starts with a document indicator. -/
def startsLikeDocument (cs : List Char) : Bool :=
  match cs with
  | a :: b :: c :: _ => a = b && b = c && (a = '-' || a = '.')
  | _ => false

/-- Whether one of the first characters is directly followed by one of the second. -/
def holdsPair (p q : Char → Bool) : List Char → Bool
  | c :: d :: rest => (p c && q d) || holdsPair p q (d :: rest)
  | _ => false

def isSpaceChar (c : Char) : Bool :=
  c = ' '

/-- What the characters of a string allow. -/
structure Shape where
  /-- The string has a line break. -/
  multiline : Bool
  plain : Bool
  /-- It may stand in single quotes. -/
  single : Bool
  block : Bool

def Shape.of (cs : List Char) : Shape :=
  if cs.isEmpty then ⟨false, true, true, false⟩
  else
    let breaks := cs.any isBreakChar
    let special := cs.any fun c => !isPrintable c
    let ends (p : Char → Bool) : Bool := cs.getLast?.any p
    let edges :=
      cs.head?.any (fun c => isSpaceChar c || isBreakChar c) ||
        ends fun c => isSpaceChar c || isBreakChar c
    let breakSpace := holdsPair isBreakChar isSpaceChar cs
    let spaceBreak := holdsPair isSpaceChar isBreakChar cs
    let indicators :=
      leadsIndicator cs || startsLikeDocument cs || holdsIndicator (cs.head?.any isGap) (cs.drop 1)
    { multiline := breaks
      plain := !(edges || breaks || special || breakSpace || spaceBreak || indicators)
      single := !(breakSpace || spaceBreak || special)
      block := !(ends isSpaceChar || spaceBreak || special) }

/-! ## §3 Scalars -/

inductive StringStyle where
  | plain
  | single
  | double
  | literal
  deriving DecidableEq, Repr

/-- The style of a string; a simple key is never a block. -/
def styleOf (simpleKey : Bool) (s : String) : StringStyle :=
  let cs := s.toList
  let shape := Shape.of cs
  let quoted := if shape.single then StringStyle.single else .double
  if simpleKey && shape.multiline then .double
  else if cs.contains '\n' then
    if shape.block && !simpleKey then .literal else .double
  else if isAmbiguous s || !shape.plain then quoted
  else .plain

/-- The uppercase hexadecimal digits of a number, as many as asked for. -/
def upperHex : Nat → Nat → List Char
  | 0, _ => []
  | width + 1, n => upperHex width (n / 16) ++ [(Nat.digitChar (n % 16)).toUpper]

def escapeLetter? (c : Char) : Option Char :=
  match c.toNat with
  | 0x00 => some '0'
  | 0x07 => some 'a'
  | 0x08 => some 'b'
  | 0x09 => some 't'
  | 0x0A => some 'n'
  | 0x0B => some 'v'
  | 0x0C => some 'f'
  | 0x0D => some 'r'
  | 0x1B => some 'e'
  | 0x22 => some '"'
  | 0x5C => some '\\'
  | 0x85 => some 'N'
  | 0xA0 => some '_'
  | 0x2028 => some 'L'
  | 0x2029 => some 'P'
  | _ => none

/-- A character as it stands in double quotes. -/
def doubleChar (c : Char) : List Char :=
  if isPrintable c && !isBreakChar c && c ≠ '"' && c ≠ '\\' then [c]
  else
    match escapeLetter? c with
    | some l => ['\\', l]
    | none =>
      let n := c.toNat
      if n ≤ 0xFF then '\\' :: 'x' :: upperHex 2 n
      else if n ≤ 0xFFFF then '\\' :: 'u' :: upperHex 4 n
      else '\\' :: 'U' :: upperHex 8 n

namespace Writer

/-- Writes the content of single quotes; a break is followed by the indentation, and `broken` says
whether one has just been written. -/
def singleContent (indent : Nat) : Bool → List Char → Writer → Writer
  | broken, [], w => if broken then w.indentTo indent else w
  | broken, c :: cs, w =>
    if c = ' ' then singleContent indent broken cs (w.put c)
    else if isBreakChar c then
      let w := if !broken && c = '\n' then w.newLine '\n' else w
      singleContent indent true cs { w.newLine c with fresh := true }
    else
      let w := if broken then w.indentTo indent else w
      let w := if c = '\'' then w.put c else w
      singleContent indent false cs { w.put c with fresh := false }

/-- Writes the lines of a literal block. -/
def literalContent (indent : Nat) : Bool → List Char → Writer → Writer
  | _, [], w => w
  | broken, c :: cs, w =>
    if isBreakChar c then literalContent indent true cs { w.newLine c with fresh := true }
    else
      let w := if broken then w.indentTo indent else w
      literalContent indent false cs { w.put c with fresh := false }

/-- The hint about the line breaks at the end of a block. -/
def chompingHint (cs : List Char) : List Char :=
  match cs.reverse with
  | [] => ['-']
  | [c] => if isBreakChar c then ['+'] else ['-']
  | c :: d :: _ => if !isBreakChar c then ['-'] else if isBreakChar d then ['+'] else []

/-- The hint about the indentation of a block whose first line has none of its own. -/
def indentHint (cs : List Char) : List Char :=
  if cs.head?.any (fun c => isSpaceChar c || isBreakChar c) then ['2'] else []

/-- Writes plain text. -/
def plain (w : Writer) (cs : List Char) : Writer :=
  let w := if !w.spaced && !cs.isEmpty then w.put ' ' else w
  (w.putAll cs).endScalar

/-- Writes a string whose lines are indented to a column. -/
def string (w : Writer) (indent : Nat) (simpleKey : Bool) (s : String) : Writer :=
  let cs := s.toList
  match styleOf simpleKey s with
  | .plain => w.plain cs
  | .single =>
    let w := singleContent indent false cs (w.indicator ['\''] true false false)
    (w.indicator ['\''] false false false).endScalar
  | .double =>
    let w := (w.indicator ['"'] true false false).putAll (cs.flatMap doubleChar)
    (w.indicator ['"'] false false false).endScalar
  | .literal =>
    let w := w.indicator ('|' :: (indentHint cs ++ chompingHint cs)) true false false
    literalContent indent true cs { w.newLine '\n' with spaced := true, fresh := true }

end Writer

/-! ## §4 Values -/

def deeper (indent : Option Nat) : Nat :=
  match indent with
  | none => 0
  | some n => n + 2

/-- The indentation of the lines of a scalar. -/
def scalarIndent (indent : Option Nat) : Nat :=
  indent.getD 0 + 2

/-- The longest simple key, in bytes. -/
def longestSimpleKey : Nat := 128

/-- Whether a key can stand on one line before its colon. -/
def isSimpleKey (k : String) : Bool :=
  !(Shape.of k.toList).multiline && k.utf8ByteSize ≤ longestSimpleKey

mutual

/-- Writes a value inside a collection of the given indentation, `none` at the top; `inMapping` says
whether that is a mapping. -/
def writeValue (indent : Option Nat) (inMapping : Bool) : Value → Writer → Writer
  | .null, w => w.plain ['n', 'u', 'l', 'l']
  | .bool true, w => w.plain ['t', 'r', 'u', 'e']
  | .bool false, w => w.plain ['f', 'a', 'l', 's', 'e']
  | .int n, w => w.plain (intChars n)
  | .real x, w => w.plain (Layout.yaml.render x)
  | .str s, w => w.string (scalarIndent indent) false s
  | .arr [], w => (w.indicator ['['] true true false).indicator [']'] false false false
  | .arr (v :: rest), w =>
    let inner := if inMapping && !w.fresh then indent.getD 0 else deeper indent
    writeItems inner (v :: rest) w
  | .obj [], w => (w.indicator ['\x7b'] true true false).indicator ['\x7d'] false false false
  | .obj (m :: rest), w => writeMembers (deeper indent) (m :: rest) w

/-- Writes the items of a sequence, each behind a dash. -/
def writeItems (indent : Nat) : List Value → Writer → Writer
  | [], w => w
  | v :: rest, w =>
    let w := (w.indentTo indent).indicator ['-'] true false true
    writeItems indent rest (writeValue (some indent) false v w)

/-- Writes the members of a mapping: a simple key before a colon, any other one behind a question
mark. -/
def writeMembers (indent : Nat) : List (String × Value) → Writer → Writer
  | [], w => w
  | (k, v) :: rest, w =>
    let w := w.indentTo indent
    let w :=
      if isSimpleKey k then
        (w.string (scalarIndent (some indent)) true k).indicator [':'] false false false
      else
        let w := (w.indicator ['?'] true false true).string (scalarIndent (some indent)) false k
        (w.indentTo indent).indicator [':'] true false true
    writeMembers indent rest (writeValue (some indent) true v w)

end

/-- The characters of a value as YAML text, without the line break at the end. -/
def renderChars (v : Value) : List Char :=
  (writeValue none false v .empty).out.reverse

/-- The characters of a value as a whole YAML document, whose last line is ended. -/
def documentChars (v : Value) : List Char :=
  ((writeValue none false v .empty).indentTo 0).out.reverse

end QueryPlayground.Yaml
