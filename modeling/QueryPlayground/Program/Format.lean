import QueryPlayground.Program.Octets
import QueryPlayground.Decimal.Double

/-!
# Formatted fields

A directive asks for a text, an integer or a real number in a field: with flags, a width and a
precision. Real numbers are doubles, and their decimal digits are those of the exact value, rounded
half to even.
-/

namespace QueryPlayground.Program

open QueryPlayground.Decimal (Double)

/-! ## §1 Fields -/

/-- How a value is laid out in its field. -/
structure Field where
  flags : List Char
  /-- The least width; the field is filled on the right if it is negative. -/
  width : Int
  /-- The precision, if one is given. -/
  precision : Option Nat

namespace Field

/-- Whether a flag is set. -/
def has (f : Field) (flag : Char) : Bool :=
  f.flags.contains flag

/-- Whether the field is filled on the right. -/
def isLeft (f : Field) : Bool :=
  f.has '-' || f.width < 0

/-- Fills a field with blanks. -/
def fill (f : Field) (cs : Octets) : Octets :=
  let blanks := List.replicate (f.width.natAbs - cs.length) ' '
  if f.isLeft then cs ++ blanks else blanks ++ cs

/-- Fills a field of a number, of which the sign stands before any zeros. -/
def fillNumber (f : Field) (zeros : Bool) (sign digits : Octets) : Octets :=
  if zeros && f.has '0' && !f.isLeft then
    sign ++ List.replicate (f.width.natAbs - (sign.length + digits.length)) '0' ++ digits
  else f.fill (sign ++ digits)

def text (f : Field) (cs : Octets) : Octets :=
  f.fill (match f.precision with
    | some n => cs.take n
    | none => cs)

/-- The sign of a number. -/
def sign (f : Field) (negative : Bool) : Octets :=
  if negative then ['-'] else if f.has '+' then ['+'] else if f.has ' ' then [' '] else []

/-- At least so many digits. -/
def atLeast (n : Nat) (ds : Octets) : Octets :=
  List.replicate (n - ds.length) '0' ++ ds

/-- The digits of a number under a precision; none are needed for zero. -/
def digitsOf (f : Field) (base n : Nat) : Octets :=
  match f.precision with
  | some p => if p = 0 && n = 0 then [] else atLeast p (Nat.toDigits base n)
  | none => Nat.toDigits base n

/-- A signed integer. -/
def signed (f : Field) (n : Int) : Octets :=
  f.fillNumber f.precision.isNone (f.sign (n < 0)) (f.digitsOf 10 n.natAbs)

/-- A natural number in a base, with the mark of that base if it is asked for. -/
def unsigned (f : Field) (base : Nat) (upper : Bool) (n : Nat) : Octets :=
  let ds := f.digitsOf base n
  let ds := if upper then ds.map Char.toUpper else ds
  let marked := f.has '#'
  if base = 8 && marked && ds.head? != some '0' then f.fillNumber f.precision.isNone [] ('0' :: ds)
  else if base = 16 && marked && n ≠ 0 then
    f.fillNumber f.precision.isNone ['0', if upper then 'X' else 'x'] ds
  else f.fillNumber f.precision.isNone [] ds

/-! ## §2 Real numbers -/

/-- A number of digits with a point before the last ones. -/
def withPoint (always : Bool) (places n : Nat) : Octets :=
  let ds := atLeast (places + 1) (Nat.toDigits 10 n)
  let whole := ds.take (ds.length - places)
  if places = 0 then whole ++ (if always then ['.'] else [])
  else whole ++ '.' :: ds.drop (ds.length - places)

/-- The digits of a fraction with so many places. -/
def fixedDigits (always : Bool) (places num den : Nat) : Octets :=
  withPoint always places (Double.roundHalfEven (num * Nat.pow 10 places) den)

/-- The exponent of ten of the first digit of a fraction that is not zero. -/
def leadingExponent (num den : Nat) : Int :=
  let guess : Int := (Nat.toDigits 10 num).length - (Nat.toDigits 10 den).length
  let below : Bool :=
    match guess with
    | .ofNat e => num < den * Nat.pow 10 e
    | .negSucc e => num * Nat.pow 10 (e + 1) < den
  if below then guess - 1 else guess

/-- The digits of a fraction before an exponent, as a number with so many places, and the exponent. -/
def scaledDigits (places num den : Nat) : Nat × Int :=
  if num = 0 then (0, 0)
  else
    let e := leadingExponent num den
    let n :=
      match (places : Int) - e with
      | .ofNat k => Double.roundHalfEven (num * Nat.pow 10 k) den
      | .negSucc k => Double.roundHalfEven num (den * Nat.pow 10 (k + 1))
    if n = Nat.pow 10 (places + 1) then (n / 10, e + 1) else (n, e)

/-- An exponent with its sign and at least two digits. -/
def exponentText (letter : Char) (e : Int) : Octets :=
  letter :: (if e < 0 then '-' else '+') :: atLeast 2 (Nat.toDigits 10 e.natAbs)

/-- A text with a point without the zeros at its end. -/
def withoutZeros (cs : Octets) : Octets :=
  if cs.contains '.' then ((cs.reverse.dropWhile (· = '0')).dropWhile (· = '.')).reverse else cs

/-- The digits of a fraction in the shorter of the two forms. -/
def generalDigits (f : Field) (letter : Char) (num den : Nat) : Octets :=
  let p := max 1 (f.precision.getD 6)
  let (n, e) := scaledDigits (p - 1) num den
  let trim := if f.has '#' then id else withoutZeros
  if -4 ≤ e && e < p then trim (fixedDigits (f.has '#') ((p : Int) - 1 - e).toNat num den)
  else trim (withPoint (f.has '#') (p - 1) n) ++ exponentText letter e

/-- A real number. -/
def real (f : Field) (conversion : Char) (x : Double) : Octets :=
  let num := x.weight
  let den := Double.unit
  let places := f.precision.getD 6
  let digits :=
    match conversion with
    | 'e' => (let (n, e) := scaledDigits places num den
              withPoint (f.has '#') places n ++ exponentText 'e' e)
    | 'E' => (let (n, e) := scaledDigits places num den
              withPoint (f.has '#') places n ++ exponentText 'E' e)
    | 'g' => f.generalDigits 'e' num den
    | 'G' => f.generalDigits 'E' num den
    | _ => fixedDigits (f.has '#') places num den
  f.fillNumber true (f.sign x.negative) digits

end Field

/-! ## §3 Reading real numbers -/

/-- The double at the start of a text, behind white space and a sign, and the rest. -/
def Octets.double? (cs : Octets) : Option (Double × Octets) :=
  let cs := cs.dropWhile isSpace
  let negative := cs.head? == some '-'
  let body := if negative || cs.head? == some '+' then cs.drop 1 else cs
  let whole := body.takeWhile Char.isDigit
  let afterWhole := body.dropWhile Char.isDigit
  let (places, rest) :=
    match afterWhole with
    | '.' :: rest => (rest.takeWhile Char.isDigit, rest.dropWhile Char.isDigit)
    | _ => ([], afterWhole)
  if whole.isEmpty && places.isEmpty then none
  else
    let (exponent, rest) : Int × Octets :=
      match rest with
      | e :: ds =>
        if e = 'e' || e = 'E' then
          let minus := ds.head? == some '-'
          let ds := if minus || ds.head? == some '+' then ds.drop 1 else ds
          if ds.head?.any Char.isDigit then
            let n := min 400 (natOf 10 (ds.takeWhile Char.isDigit))
            (if minus then -(n : Int) else n, ds.dropWhile Char.isDigit)
          else (0, rest)
        else (0, rest)
      | [] => (0, rest)
    (Double.ofScientific? negative (natOf 10 (whole ++ places)) (exponent - places.length)).map
      fun x => (x, rest)

end QueryPlayground.Program
