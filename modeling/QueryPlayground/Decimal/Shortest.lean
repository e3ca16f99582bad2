import QueryPlayground.Decimal.Double

/-!
# The shortest decimal that reads back

A double stands for an interval of reals that round to it. `Shortest.ofDouble` looks for the
coarsest decimal grid with a point in that interval: for one digit, two digits and so on it tests
the two grid points around the number, all in exact natural arithmetic. Of two points the nearer
one wins, and of two equally near ones the even one.
-/

namespace QueryPlayground.Decimal

/-! ## §1 Numerals -/

/-- The number `digits * 10 ^ exponent`. -/
structure Numeral where
  /-- The significant digits as one number. -/
  digits : Nat
  /-- The power of ten. -/
  exponent : Int
  deriving DecidableEq, Repr, Inhabited

/-- The decimal digits of a number, `0` having one. -/
def digitChars (n : Nat) : List Char :=
  Nat.toDigits 10 n

namespace Numeral

/-- Strips trailing zeros from the digits, at most `fuel` of them. -/
def stripZeros : Nat → Numeral → Numeral
  | 0, d => d
  | fuel + 1, d =>
    if d.digits % 10 == 0 then stripZeros fuel ⟨d.digits / 10, d.exponent + 1⟩ else d

/-- The exponent of the first digit. -/
def leading (d : Numeral) : Int :=
  d.exponent + (digitChars d.digits).length - 1

end Numeral

/-! ## §2 The search -/

namespace Shortest

/-- The reals that round to a double, in quarters of its last place: `centre` is the double itself. -/
structure Interval where
  lower : Nat
  /-- The double. -/
  centre : Nat
  upper : Nat
  /-- Whether the ends belong to the interval. -/
  closed : Bool

/-- The interval of a double that is not zero. -/
def interval (x : Double) : Interval :=
  let m := 4 * x.mantissa
  let below := if x.mantissa == Double.leadingMantissa && 0 < x.scale then 1 else 2
  ⟨(m - below) * Nat.pow 2 x.scale, m * Nat.pow 2 x.scale, (m + 2) * Nat.pow 2 x.scale, x.mantissa % 2 == 0⟩

/-- The greatest `e` with `10 ^ e ≤ num / den`, for positive numbers. -/
def leadingExponent (num den : Nat) : Int :=
  if den ≤ num then ((digitChars (num / den)).length : Int) - 1
  else
    let d := (digitChars (den / num)).length
    if den ≤ num * Nat.pow 10 (d - 1) then 1 - (d : Int) else -(d : Int)

/-- Whether `value / scale` lies in the interval, which is in units of `1 / unit`. -/
def Interval.contains (i : Interval) (value scale : Nat) : Bool :=
  if i.closed then i.lower * scale ≤ value && value ≤ i.upper * scale
  else i.lower * scale < value && value < i.upper * scale

/-- The better of the two points `k * 10 ^ exponent` and `(k + 1) * 10 ^ exponent` around the
centre, if one of them lies in the interval. -/
def pick (i : Interval) (unit : Nat) (exponent : Int) : Option Numeral :=
  let up := Nat.pow 10 exponent.toNat
  let down := Nat.pow 10 (-exponent).toNat
  let step := unit * up
  let centre := i.centre * down
  let k := centre / step
  let low := i.contains (k * step) down
  let high := i.contains ((k + 1) * step) down
  let below := centre - k * step
  let above := (k + 1) * step - centre
  match low, high with
  | false, false => none
  | true, false => some ⟨k, exponent⟩
  | false, true => some ⟨k + 1, exponent⟩
  | true, true =>
    if below < above || (below == above && k % 2 == 0) then some ⟨k, exponent⟩
    else some ⟨k + 1, exponent⟩

/-- The first grid with a point in the interval, from `count` digits on. -/
def search (i : Interval) (unit : Nat) (leading : Int) : Nat → Nat → Numeral
  | 0, _ => ⟨i.centre, 0⟩
  | fuel + 1, count =>
    match pick i unit (leading - count + 1) with
    | some d => d
    | none => search i unit leading fuel (count + 1)

/-- The decimal with the fewest digits that rounds to the double's magnitude, and of those the
nearest one. -/
def ofDouble (x : Double) : Numeral :=
  if x.isZero then ⟨0, 0⟩
  else
    let i := interval x
    let unit := 4 * Double.unit
    (search i unit (leadingExponent i.centre unit) 17 1).stripZeros 17

end Shortest

end QueryPlayground.Decimal
