import QueryPlayground.Decimal.Double

/-!
# JSON values

A JSON document as data. Numbers are integers or finite doubles, kept apart because they are
written differently. The members of an object are a list of pairs; documents that were read keep
it sorted by key with one value per key, which is what `Members.insert` maintains.
-/

namespace QueryPlayground.Json

open QueryPlayground.Decimal

/-- A JSON value. -/
inductive Value where
  | null
  | bool (b : Bool)
  | int (n : Int)
  /-- A number with a fraction or an exponent, or too large for an integer. -/
  | real (x : Double)
  | str (s : String)
  | arr (items : List Value)
  | obj (members : List (String × Value))
  deriving Inhabited, Repr

/-! ## §1 Members of an object -/

namespace Members

/-- Puts a member at its place in the order of keys; an earlier member with the key gives way. -/
def insert (key : String) (value : Value) : List (String × Value) → List (String × Value)
  | [] => [(key, value)]
  | (k, v) :: rest =>
    if key = k then (key, value) :: rest
    else if key < k then (key, value) :: (k, v) :: rest
    else (k, v) :: insert key value rest

def get? (key : String) : List (String × Value) → Option Value
  | [] => none
  | (k, v) :: rest => if key = k then some v else get? key rest

end Members

/-! ## §2 Names of the types -/

namespace Value

def typeName : Value → String
  | null => "null"
  | bool _ => "boolean"
  | int _ | real _ => "number"
  | str _ => "string"
  | arr _ => "array"
  | obj _ => "object"

end Value

end QueryPlayground.Json
