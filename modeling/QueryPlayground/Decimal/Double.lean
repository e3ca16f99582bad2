/-!
# Finite binary64 numbers

A finite double is a sign, a mantissa and a scale, and stands for
`± mantissa * 2 ^ scale / 2 ^ 1074`. Rounding is one function, `Double.nearest`, from an exact
quotient of natural numbers to the nearest double, with ties to the even mantissa. Products,
quotients and conversions round the exact result once.
-/

namespace QueryPlayground.Decimal

/-! ## §1 The type -/

/-- A finite double, `± mantissa * 2 ^ scale / 2 ^ 1074`. -/
structure Double where
  /-- The sign; zero has one too. -/
  negative : Bool
  /-- The mantissa, less than `2 ^ 53`. -/
  mantissa : Nat
  /-- The exponent of two above the least one. -/
  scale : Nat
  deriving DecidableEq, Repr, Inhabited

namespace Double

def mantissaBits : Nat := 53

/-- The least mantissa with all its bits. -/
def leadingMantissa : Nat := 0x10000000000000

/-- The denominator shared by all doubles. -/
def unit : Nat := Nat.pow 2 1074

def maxScale : Nat := 2045

/-- Zero of either sign. -/
def zero (negative : Bool) : Double :=
  ⟨negative, 0, 0⟩

def isZero (x : Double) : Bool :=
  x.mantissa == 0

/-- The number with the other sign. -/
def neg (x : Double) : Double :=
  { x with negative := !x.negative }

/-- The magnitude in units of `1 / unit`. -/
def weight (x : Double) : Nat :=
  x.mantissa * Nat.pow 2 x.scale

/-! ## §2 Rounding -/

/-- The quotient rounded to the nearest natural number, a half to the even neighbour. -/
def roundHalfEven (num den : Nat) : Nat :=
  let q := num / den
  let r := num % den
  if 2 * r < den then q
  else if den < 2 * r then q + 1
  else if q % 2 == 0 then q else q + 1

/-- The double nearest to `± num / den`, or `none` where that overflows. -/
def nearest (negative : Bool) (num den : Nat) : Option Double :=
  let scaled := num * unit
  let scale := (scaled / den).log2 + 1 - mantissaBits
  let mantissa := roundHalfEven scaled (den * Nat.pow 2 scale)
  let (mantissa, scale) :=
    if mantissa == 2 * leadingMantissa then (mantissa / 2, scale + 1) else (mantissa, scale)
  if maxScale < scale then none else some ⟨negative, mantissa, scale⟩

/-! ## §3 Arithmetic -/

/-- The natural number as a double. -/
def ofNat? (n : Nat) : Option Double :=
  nearest false n 1

/-- The rounded product, or `none` where it overflows. -/
def mul? (x y : Double) : Option Double :=
  nearest (x.negative != y.negative) (x.weight * y.weight) (unit * unit)

/-- The rounded quotient, or `none` where it overflows or the divisor is zero. -/
def div? (x y : Double) : Option Double :=
  if y.isZero then none else nearest (x.negative != y.negative) x.weight y.weight

/-- The double nearest to `± digits * 10 ^ exponent`, or `none` where that overflows. -/
def ofScientific? (negative : Bool) (digits : Nat) (exponent : Int) : Option Double :=
  match exponent with
  | .ofNat e => nearest negative (digits * Nat.pow 10 e) 1
  | .negSucc e => nearest negative digits (Nat.pow 10 (e + 1))

end Double

end QueryPlayground.Decimal
