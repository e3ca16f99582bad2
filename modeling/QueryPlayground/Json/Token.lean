import QueryPlayground.Json.Value
import QueryPlayground.Json.Failure
import QueryPlayground.MachineWord

/-!
# Words, strings and numbers of JSON text

The parts of JSON text that hold no other value. Every function takes the unread text and answers
with what it read and the text after it, or with a `Failure`.

Integers are read exactly as long as they fit in sixty-four bits. Other numbers take their first
digits as an integer and scale it by a power of ten, rounding once for the digits and once for the
scale.
-/

namespace QueryPlayground.Json

open QueryPlayground.Decimal

/-! ## §1 Space and words -/

/-- The four space characters of JSON. -/
def isSpace (c : Char) : Bool :=
  c = ' ' || c = '\n' || c = '\t' || c = '\r'

/-- The text without the space in front. -/
def skipSpace (cs : List Char) : List Char :=
  cs.dropWhile isSpace

/-- Reads the rest of a word. -/
def word : List Char → List Char → Except Failure (List Char)
  | [], cs => .ok cs
  | _ :: _, [] => .error (.here .endInValue [])
  | w :: ws, c :: cs => if c = w then word ws cs else .error (.peek .expectedWord (c :: cs))

/-! ## §2 Strings -/

/-- The value of a hexadecimal digit. -/
def hexValue? (c : Char) : Option Nat :=
  if '0' ≤ c ∧ c ≤ '9' then some (c.toNat - 48)
  else if 'a' ≤ c ∧ c ≤ 'f' then some (c.toNat - 87)
  else if 'A' ≤ c ∧ c ≤ 'F' then some (c.toNat - 55)
  else none

/-- Reads four hexadecimal digits. -/
def hexUnit (cs : List Char) : Except Failure (Nat × List Char) :=
  if Failure.byteCount (cs.take 4) < 4 then .error (.here .endInString [])
  else
    match cs with
    | a :: b :: c :: d :: rest =>
      match hexValue? a, hexValue? b, hexValue? c, hexValue? d with
      | some a, some b, some c, some d => .ok (((a * 16 + b) * 16 + c) * 16 + d, rest)
      | _, _, _, _ => .error ⟨.invalidEscape, cs, 4⟩
    | _ => .error ⟨.invalidEscape, cs, 4⟩

/-- Reads one character that the second half of a surrogate pair needs. -/
def pairChar (c : Char) : List Char → Except Failure (List Char)
  | [] => .error (.here .endInString [])
  | d :: rest => if d = c then .ok rest else .error (.peek .endInHexEscape (d :: rest))

/-- Reads the code point of an escape by hexadecimal digits, of which the `u` is read. -/
def hexEscape (cs : List Char) : Except Failure (Char × List Char) := do
  let (high, rest) ← hexUnit cs
  if 0xDC00 ≤ high ∧ high ≤ 0xDFFF then .error (.here .loneSurrogate rest)
  else if high < 0xD800 ∨ 0xDBFF < high then .ok (Char.ofNat high, rest)
  else do
    let rest ← pairChar '\\' rest
    let rest ← pairChar 'u' rest
    let (low, rest) ← hexUnit rest
    if low < 0xDC00 ∨ 0xDFFF < low then .error (.here .loneSurrogate rest)
    else .ok (Char.ofNat (0x10000 + (high - 0xD800) * 0x400 + (low - 0xDC00)), rest)

/-- The character that an escape of one letter stands for. -/
def simpleEscape? (c : Char) : Option Char :=
  match c with
  | '"' => some '"'
  | '\\' => some '\\'
  | '/' => some '/'
  | 'b' => some '\x08'
  | 'f' => some '\x0c'
  | 'n' => some '\n'
  | 'r' => some '\r'
  | 't' => some '\t'
  | _ => none

/-- Reads an escape, of which the backslash is read. -/
def escape (cs : List Char) : Except Failure (Char × List Char) :=
  match cs with
  | [] => .error (.here .endInString [])
  | c :: rest =>
    match simpleEscape? c with
    | some d => .ok (d, rest)
    | none => if c = 'u' then hexEscape rest else .error (.peek .invalidEscape cs)

/-- Reads the rest of a string, with the characters read so far in reverse. -/
def stringFrom : Nat → List Char → List Char → Except Failure (String × List Char)
  | 0, _, cs => .error (.here .endInString cs)
  | _ + 1, _, [] => .error (.here .endInString [])
  | fuel + 1, done, c :: cs =>
    if c = '"' then .ok (String.ofList done.reverse, cs)
    else if c = '\\' then
      match escape cs with
      | .ok (d, rest) => stringFrom fuel (d :: done) rest
      | .error f => .error f
    else if c.toNat < 32 then .error (.peek .controlCharacter (c :: cs))
    else stringFrom fuel (c :: done) cs

/-- Reads a string, of which the opening quote is read. -/
def string (cs : List Char) : Except Failure (String × List Char) :=
  stringFrom (cs.length + 1) [] cs

/-! ## §3 Numbers -/

/-- The largest exponent that is read digit by digit. -/
def maxExponent : Nat := 0x7FFFFFFF

def digitValue (c : Char) : Nat :=
  c.toNat - 48

/-- Reads digits as long as the number stays within a limit, and counts them. -/
def digitsWithin (limit : Nat) : Nat → Nat → List Char → Nat × Nat × List Char
  | n, count, [] => (n, count, [])
  | n, count, c :: cs =>
    if c.isDigit && n * 10 + digitValue c ≤ limit then
      digitsWithin limit (n * 10 + digitValue c) (count + 1) cs
    else (n, count, c :: cs)

def startsWithDigit : List Char → Bool
  | [] => false
  | c :: _ => c.isDigit

/-- Whether the text starts with the mark of an exponent. -/
def startsWithExponent : List Char → Bool
  | [] => false
  | c :: _ => c = 'e' || c = 'E'

/-- The power of ten as a double, for exponents up to 308. -/
def powerOfTen (e : Nat) : Double :=
  (Double.ofScientific? false 1 e).getD (.zero false)

/-- Scales a double by a power of ten, in steps of at most 308; `none` where it overflows. -/
def scaleByTen : Nat → Double → Int → Option Double
  | 0, x, _ => some x
  | fuel + 1, x, e =>
    if e.natAbs ≤ 308 then
      if 0 ≤ e then x.mul? (powerOfTen e.natAbs) else x.div? (powerOfTen e.natAbs)
    else if x.isZero then some x
    else if 0 ≤ e then none
    else
      match x.div? (powerOfTen 308) with
      | some y => scaleByTen fuel y (e + 308)
      | none => none

/-- The number `± digits * 10 ^ exponent`, with the text after it. -/
def scaled (negative : Bool) (digits : Nat) (exponent : Int) (rest : List Char) :
    Except Failure (Value × List Char) :=
  ((Double.ofNat? digits).bind (scaleByTen 4 · exponent)).elim
    (.error (.here .numberOutOfRange rest))
    fun x => .ok (.real { x with negative := negative }, rest)

def exponentDigits (negative : Bool) (digits : Nat) (start : Int) (down : Bool) (cs : List Char) :
    Except Failure (Value × List Char) :=
  match cs with
  | [] => .error (.here .endInValue [])
  | c :: _ =>
    if c.isDigit then
      let (e, _, rest) := digitsWithin maxExponent 0 0 cs
      if startsWithDigit rest then
        if digits ≠ 0 ∧ !down then .error (.peek .numberOutOfRange rest)
        else .ok (.real (.zero negative), rest.dropWhile Char.isDigit)
      else scaled negative digits (if down then start - e else start + e) rest
    else .error (.peek .invalidNumber cs)

/-- Reads an exponent, of which the mark is read. -/
def exponent (negative : Bool) (digits : Nat) (start : Int) (cs : List Char) :
    Except Failure (Value × List Char) :=
  match cs with
  | '+' :: rest => exponentDigits negative digits start false rest
  | '-' :: rest => exponentDigits negative digits start true rest
  | _ => exponentDigits negative digits start false cs

def exponentIfAny (negative : Bool) (digits : Nat) (start : Int) (cs : List Char) :
    Except Failure (Value × List Char) :=
  if startsWithExponent cs then exponent negative digits start (cs.drop 1)
  else scaled negative digits start cs

/-- Reads a fraction, of which the point is read. Digits that no longer fit are passed over. -/
def fraction (negative : Bool) (digits : Nat) (start : Int) (cs : List Char) :
    Except Failure (Value × List Char) :=
  let (n, count, rest) := digitsWithin MachineWord.maxUnsigned digits 0 cs
  if startsWithDigit rest then
    exponentIfAny negative n (start - count) (rest.dropWhile Char.isDigit)
  else if count = 0 then
    .error (.peek (if rest.isEmpty then .endInValue else .invalidNumber) rest)
  else exponentIfAny negative n (start - count) rest

/-- The integer, negated if asked for; one that fits in no machine integer becomes a double. -/
def integer (negative : Bool) (n : Nat) (rest : List Char) : Except Failure (Value × List Char) :=
  if !negative then .ok (.int n, rest)
  else if n ≠ 0 ∧ n ≤ MachineWord.half then .ok (.int (-n), rest)
  else scaled true n 0 rest

/-- Reads what follows the digits before the point. -/
def afterDigits (negative : Bool) (n : Nat) (cs : List Char) : Except Failure (Value × List Char) :=
  match cs with
  | '.' :: rest => fraction negative n 0 rest
  | _ => if startsWithExponent cs then exponent negative n 0 (cs.drop 1) else integer negative n cs

/-- Reads the rest of a number whose digits no longer fit: the ones left only count. -/
def afterManyDigits (negative : Bool) (n : Nat) (cs : List Char) :
    Except Failure (Value × List Char) :=
  let more := (cs.takeWhile Char.isDigit).length
  match cs.dropWhile Char.isDigit with
  | '.' :: rest => fraction negative n more rest
  | rest => exponentIfAny negative n more rest

/-- Reads a number, of which the minus sign is read. -/
def number (negative : Bool) (cs : List Char) : Except Failure (Value × List Char) :=
  match cs with
  | [] => .error (.here .endInValue [])
  | c :: rest =>
    if c = '0' then
      if startsWithDigit rest then .error (.peek .invalidNumber rest)
      else afterDigits negative 0 rest
    else if c.isDigit then
      let (n, _, rest) := digitsWithin MachineWord.maxUnsigned 0 0 cs
      if startsWithDigit rest then afterManyDigits negative n rest else afterDigits negative n rest
    else .error (.peek .invalidNumber cs)

end QueryPlayground.Json
