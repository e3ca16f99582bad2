import QueryPlayground.Program.Octets

/-!
# Escapes with a backslash

The tools that write text read the same escapes but for a few, so the rules are a record: which
letters are known, and how digits are counted. An unknown escape stands for itself.
-/

namespace QueryPlayground.Program

/-- Which escapes are known. -/
structure EscapeRules where
  /-- Whether a double quote may be escaped. -/
  quote : Bool
  /-- Whether `\x` takes one or two hexadecimal digits. -/
  hex : Bool
  /-- Whether `\u` and `\U` take four or eight digits; `\x` without digits is then an error. -/
  universal : Bool
  /-- Whether `\c` stops all output. -/
  stops : Bool
  /-- Whether a zero before octal digits is not one of them. -/
  leadingZero : Bool

inductive Escape where
  /-- Text; so many characters behind the backslash are used up. -/
  | text (out : Octets) (used : Nat)
  /-- The end of all output. -/
  | stop
  /-- Nothing. -/
  | wrong (message : String)

namespace EscapeRules

def letter? (r : EscapeRules) (c : Char) : Option Char :=
  match c with
  | 'a' => some (Char.ofNat 7)
  | 'b' => some (Char.ofNat 8)
  | 'e' => some (Char.ofNat 27)
  | 'f' => some (Char.ofNat 12)
  | 'n' => some '\n'
  | 'r' => some '\r'
  | 't' => some '\t'
  | 'v' => some (Char.ofNat 11)
  | '\\' => some '\\'
  | '"' => if r.quote then some '"' else none
  | _ => none

/-- A code point in its written form: as it is if it is ASCII, else as an escape. -/
def universalText (letter : Char) (digits : Octets) : Escape :=
  let n := Octets.natOf 16 digits
  if 0xD800 ≤ n && n ≤ 0xDFFF then
    .wrong ("invalid universal character name \\" ++ String.ofList (letter :: digits))
  else if n < 128 then .text [Char.ofNat n] (digits.length + 1)
  else if n < 0x10000 then
    .text ('\\' :: 'u' :: (digits.map Char.toUpper).drop (digits.length - 4)) (digits.length + 1)
  else .text ('\\' :: 'U' :: digits.map Char.toUpper) (digits.length + 1)

/-- What the text behind a backslash starts with. -/
def next (r : EscapeRules) (cs : Octets) : Escape :=
  match cs with
  | [] => .text ['\\'] 0
  | c :: rest =>
    if Octets.isDigitOf 8 c then
      let zero := r.leadingZero && c = '0'
      let digits := ((if zero then rest else cs).takeWhile (Octets.isDigitOf 8)).take 3
      .text [Octets.byte (Octets.natOf 8 digits)] (digits.length + if zero then 1 else 0)
    else if c = 'c' && r.stops then .stop
    else if c = 'x' && r.hex then
      let digits := (rest.takeWhile (Octets.isDigitOf 16)).take 2
      if !digits.isEmpty then .text [Octets.byte (Octets.natOf 16 digits)] (digits.length + 1)
      else if r.universal then .wrong "missing hexadecimal number in escape"
      else .text ['\\', 'x'] 1
    else if (c = 'u' || c = 'U') && r.universal then
      let width := if c = 'u' then 4 else 8
      let digits := (rest.takeWhile (Octets.isDigitOf 16)).take width
      if digits.length < width then .wrong "missing hexadecimal number in escape"
      else universalText c digits
    else
      match r.letter? c with
      | some x => .text [x] 1
      | none => .text ['\\', c] 1

end EscapeRules

/-- A text without its escapes. -/
structure Expanded where
  text : Octets
  /-- Whether all output ends with it. -/
  stopped : Bool
  /-- What is wrong with it. -/
  problem : Option String

/-- Reads the escapes of a text, after so many characters that are used up. -/
def EscapeRules.expand (r : EscapeRules) : Nat → Octets → Expanded
  | _, [] => ⟨[], false, none⟩
  | used + 1, _ :: cs => r.expand used cs
  | 0, c :: cs =>
    if c = '\\' then
      match r.next cs with
      | .text out used =>
        let tail := r.expand used cs
        { tail with text := out ++ tail.text }
      | .stop => ⟨[], true, none⟩
      | .wrong message => ⟨[], true, some message⟩
    else
      let tail := r.expand 0 cs
      { tail with text := c :: tail.text }

/-- The escapes that `echo` reads inside a shell. -/
def EscapeRules.shellEcho : EscapeRules :=
  ⟨true, false, false, true, true⟩

/-- The escapes that the program `echo` reads if it is told to. -/
def EscapeRules.echo : EscapeRules :=
  ⟨false, true, false, true, true⟩

end QueryPlayground.Program
