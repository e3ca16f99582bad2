/-!
# Sets of code points by their boundaries

A set of code points is the increasing list of the points where membership changes: the first point
in the set, the first one no longer in it, and so on. A point is in the set when an odd number of
boundaries is not beyond it.
-/

namespace QueryPlayground.Text

/-- The increasing list of points where membership changes. -/
abbrev Boundaries := List Nat

namespace Boundaries

/-- Membership of a point, counting on from a number of boundaries already passed. -/
def holds (inside : Bool) : Boundaries → Nat → Bool
  | [], _ => inside
  | b :: bs, n => if n < b then inside else holds (!inside) bs n

def contains (bs : Boundaries) (c : Char) : Bool :=
  holds false bs c.toNat

end Boundaries

end QueryPlayground.Text
