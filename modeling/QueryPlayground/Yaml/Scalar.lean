import QueryPlayground.Json.Value
import QueryPlayground.Text.Printable
import QueryPlayground.MachineWord

/-!
# What a scalar means

A plain scalar is null, a truth value, a number or a string by its spelling. Integers come in four
radixes; one that fits in a hundred and twenty-eight bits but in no machine word is refused, and a
larger one is a double. A number with leading zeros is a string. Infinities and not-a-number have no
place in a JSON value and become null.
-/

namespace QueryPlayground.Yaml

open QueryPlayground.Decimal
open QueryPlayground.Json (Value)

/-! ## §1 Words -/

def isNull (s : String) : Bool :=
  s == "null" || s == "Null" || s == "NULL" || s == "~"

/-- The truth value of a spelling. -/
def truth? (s : String) : Option Bool :=
  if s == "true" || s == "True" || s == "TRUE" then some true
  else if s == "false" || s == "False" || s == "FALSE" then some false
  else none

/-! ## §2 Integers -/

def digitIn? (radix : Nat) (c : Char) : Option Nat :=
  let n :=
    if c.isDigit then c.toNat - 48
    else if 'a' ≤ c && c ≤ 'z' then c.toNat - 87
    else if 'A' ≤ c && c ≤ 'Z' then c.toNat - 55
    else radix
  if n < radix then some n else none

/-- The number that digits write in a radix, behind a number read so far. -/
def digitsIn? (radix : Nat) (n : Nat) : List Char → Option Nat
  | [] => some n
  | c :: cs =>
    match digitIn? radix c with
    | some d => digitsIn? radix (n * radix + d) cs
    | none => none

/-- The number that one or more digits write in a radix, if it is within a limit. -/
def natural? (radix limit : Nat) (cs : List Char) : Option Nat :=
  if cs.isEmpty then none else (digitsIn? radix 0 cs).filter (· ≤ limit)

def startsWithSign : List Char → Bool
  | '+' :: _ => true
  | '-' :: _ => true
  | _ => false

/-- The text without one plus sign in front. -/
def dropPlus : List Char → List Char
  | '+' :: cs => cs
  | cs => cs

/-- The text without one sign in front. -/
def dropSign : List Char → List Char
  | '+' :: cs => cs
  | '-' :: cs => cs
  | cs => cs

/-- Whether a text has only digits, more than one, and starts with zero. -/
def hasLeadingZero (cs : List Char) : Bool :=
  match dropSign cs with
  | '0' :: c :: rest => (c :: rest).all Char.isDigit
  | _ => false

/-- The radix that a mark announces, with the digits behind the mark. -/
def radixOf? : List Char → Option (Nat × List Char)
  | '0' :: 'x' :: cs => some (16, cs)
  | '0' :: 'o' :: cs => some (8, cs)
  | '0' :: 'b' :: cs => some (2, cs)
  | _ => none

/-- A non-negative integer within a limit. -/
def unsigned? (limit : Nat) (cs : List Char) : Option Nat :=
  let body := dropPlus cs
  match radixOf? body with
  | some (radix, digits) => natural? radix limit digits
  | none => if startsWithSign body || hasLeadingZero cs then none else natural? 10 limit body

/-- A negative integer down to a limit. -/
def negative? (limit : Nat) (cs : List Char) : Option Int :=
  match cs with
  | '-' :: body =>
    let n := match radixOf? body with
      | some (radix, digits) => natural? radix limit digits
      | none => if hasLeadingZero cs then none else natural? 10 limit body
    n.map fun n => -(n : Int)
  | _ => none

/-- The greatest integer of two machine words without a sign. -/
def maxDouble : Nat := MachineWord.count * MachineWord.count - 1

/-- The greatest magnitude of a negative integer of two machine words. -/
def halfDouble : Nat := MachineWord.count * MachineWord.half

/-- An integer as a value: the inner `none` is an integer that no machine word holds. -/
def integer? (cs : List Char) : Option (Option Value) :=
  match unsigned? MachineWord.maxUnsigned cs with
  | some n => some (some (.int n))
  | none =>
    match negative? MachineWord.half cs with
    | some n => some (some (.int n))
    | none =>
      if (unsigned? maxDouble cs).isSome || (negative? halfDouble cs).isSome then some none
      else none

/-! ## §3 Numbers with a point or an exponent -/

/-- The exponent behind the mantissa, or zero where there is none. -/
def exponentPart? (cs : List Char) : Option Int :=
  match cs with
  | [] => some 0
  | c :: rest =>
    if c = 'e' || c = 'E' then
      let digits := dropSign rest
      if digits.isEmpty then none
      else
        match digitsIn? 10 0 digits with
        | some n => some (if rest.head? == some '-' then -(n : Int) else n)
        | none => none
    else none

/-- The double that digits scaled by a power of ten round to, where far too large or small exponents
are settled without computing. -/
def decimal? (negative : Bool) (digits : List Char) (exponent : Int) : Option Double :=
  let n := (digitsIn? 10 0 digits).getD 0
  if n = 0 then some (.zero negative)
  else if exponent + digits.length < -400 then some (.zero negative)
  else if 400 < exponent then none
  else Double.ofScientific? negative n exponent

/-- A finite double in decimal notation, without a sign. -/
def unsignedReal? (negative : Bool) (cs : List Char) : Option Double :=
  let whole := cs.takeWhile Char.isDigit
  let rest := cs.dropWhile Char.isDigit
  let (part, rest) :=
    match rest with
    | '.' :: more => (more.takeWhile Char.isDigit, more.dropWhile Char.isDigit)
    | _ => ([], rest)
  if whole.isEmpty && part.isEmpty then none
  else
    match exponentPart? rest with
    | some e => decimal? negative (whole ++ part) (e - part.length)
    | none => none

/-- The spellings of the infinities and of not-a-number. -/
def isUnbounded (s : String) : Bool :=
  [".inf", ".Inf", ".INF", "+.inf", "+.Inf", "+.INF", "-.inf", "-.Inf", "-.INF", ".nan", ".NaN",
    ".NAN"].contains s

/-- A number as a value. -/
def real? (s : String) : Option Value :=
  let cs := s.toList
  if isUnbounded s then some .null
  else
    let body := dropPlus cs
    if body.length < cs.length && startsWithSign body then none
    else (unsignedReal? (body.head? == some '-') (dropSign body)).map .real

/-! ## §4 Resolution -/

def tooLarge : String := "JSON number out of range"

/-- The value of a plain scalar without a tag. -/
def resolvePlain (s : String) : Except String Value :=
  let cs := s.toList
  if cs.isEmpty || isNull s then .ok .null
  else
    match truth? s with
    | some b => .ok (.bool b)
    | none =>
      match integer? cs with
      | some (some v) => .ok v
      | some none => .error tooLarge
      | none =>
        if hasLeadingZero cs then .ok (.str s) else .ok ((real? s).getD (.str s))

/-- Whether a plain scalar with this content would be no string. -/
def isAmbiguous (s : String) : Bool :=
  let cs := s.toList
  cs.isEmpty || isNull s || (truth? s).isSome || (integer? cs).isSome || hasLeadingZero cs ||
    (real? s).isSome

inductive ScalarTag where
  /-- The tag of truth values. -/
  | bool
  /-- The tag of integers. -/
  | int
  /-- The tag of doubles. -/
  | float
  | null
  deriving DecidableEq, Repr

/-- The scalar type of a tag, given by its bytes. -/
def ScalarTag.ofBytes? (bytes : List Nat) : Option ScalarTag :=
  let is (s : String) : Bool := bytes == s.toList.map Char.toNat
  if is "tag:yaml.org,2002:bool" then some bool
  else if is "tag:yaml.org,2002:int" then some int
  else if is "tag:yaml.org,2002:float" then some float
  else if is "tag:yaml.org,2002:null" then some null
  else none

/-- The content does not fit its tag. -/
def unfit (s expected : String) : String :=
  "invalid value: string " ++ Text.shown s ++ ", expected " ++ expected

/-- The value of a scalar of a known type. -/
def resolveTagged (tag : ScalarTag) (s : String) : Except String Value :=
  match tag with
  | .bool =>
    match truth? s with
    | some b => .ok (.bool b)
    | none => .error (unfit s "a boolean")
  | .int =>
    match integer? s.toList with
    | some (some v) => .ok v
    | some none => .error tooLarge
    | none => .error (unfit s "an integer")
  | .float =>
    match real? s with
    | some v => .ok v
    | none => .error (unfit s "a float")
  | .null => if isNull s then .ok .null else .error (unfit s "null")

end QueryPlayground.Yaml
