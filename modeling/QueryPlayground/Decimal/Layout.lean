import QueryPlayground.Decimal.Shortest

/-!
# The written form of a double

A double is written from its shortest decimal, positionally where the first digit's power of ten
is near zero and with an exponent elsewhere. A `Layout` says where the one ends and the other begins
and whether a positive exponent carries a sign.
-/

namespace QueryPlayground.Decimal

/-- How doubles are written in one format. -/
structure Layout where
  /-- The least exponent of a number that is written positionally. -/
  least : Int
  /-- The greatest exponent of a number that is written positionally. -/
  greatest : Int
  /-- Whether a positive exponent is written with a plus sign. -/
  signed : Bool
  deriving DecidableEq, Repr

namespace Layout

/-- In JSON text the powers from `10 ^ -5` to `10 ^ 15` are positional, and exponents are signed. -/
def json : Layout := ⟨-5, 15, true⟩

/-- In YAML text the same powers are positional, and only negative exponents are signed. -/
def yaml : Layout := ⟨-5, 15, false⟩

/-- The digits with the point inside, in front or behind, always with a digit on either side. -/
def positional (digits : List Char) (leading : Int) : List Char :=
  match leading with
  | .ofNat e =>
    let whole := digits.take (e + 1)
    let rest := digits.drop (e + 1)
    whole ++ List.replicate (e + 1 - digits.length) '0' ++ ['.'] ++
      (if rest.isEmpty then ['0'] else rest)
  | .negSucc e => ['0', '.'] ++ List.replicate e '0' ++ digits

/-- The digits with the point after the first one, if there are more, and the exponent. -/
def scientific (l : Layout) (digits : List Char) (leading : Int) : List Char :=
  let fraction := digits.drop 1
  let sign := if leading < 0 then ['-'] else if l.signed then ['+'] else []
  digits.take 1 ++ (if fraction.isEmpty then [] else '.' :: fraction) ++ ['e'] ++ sign ++
    digitChars leading.natAbs

/-- The written form of a double. -/
def render (l : Layout) (x : Double) : List Char :=
  let d := Shortest.ofDouble x
  let digits := digitChars d.digits
  let body :=
    if l.least ≤ d.leading && d.leading ≤ l.greatest then positional digits d.leading
    else scientific l digits d.leading
  if x.negative then '-' :: body else body

end Layout

end QueryPlayground.Decimal
