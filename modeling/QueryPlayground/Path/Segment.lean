import QueryPlayground.Json.Value

/-!
# Paths into a document and selection

A path is a list of segments, each a field name or an array position. `select` walks it from the
root of a document. Where the path runs off the document, over a missing field, an array position
out of range or a `null`, the answer is `none`; a value of a type that does not fit the segment is an
error.
-/

namespace QueryPlayground.Path

open QueryPlayground.Json

/-! ## §1 Paths -/

/-- One step into a document. -/
inductive Segment where
  /-- The member of an object with this key. -/
  | field (name : String)
  /-- The item of an array at this position; a negative position counts from the end. -/
  | index (position : Int)
  deriving DecidableEq, Repr

/-! ## §2 Selection -/

/-- Why a segment does not fit a value. -/
inductive Misfit where
  /-- A field of something that is no object. -/
  | field (typeName name : String)
  /-- A position in something that is no array. -/
  | index (typeName : String)
  deriving DecidableEq, Repr

def Misfit.message : Misfit → String
  | field typeName name => "cannot index " ++ typeName ++ " with \"" ++ name ++ "\""
  | index typeName => "cannot index " ++ typeName ++ " with number"

/-- The item at a position, counted from the end if the position is negative. -/
def itemAt? (items : List Value) (position : Int) : Option Value :=
  let resolved := if position < 0 then items.length + position else position
  if resolved < 0 then none else items[resolved.toNat]?

/-- The value one segment below a value that is not `null`. -/
def step (v : Value) (s : Segment) : Except Misfit (Option Value) :=
  match v, s with
  | .obj members, .field name => .ok (Members.get? name members)
  | .arr items, .index position => .ok (itemAt? items position)
  | v, .field name => .error (.field v.typeName name)
  | v, .index _ => .error (.index v.typeName)

/-- The value at the end of a path, or `none` where the path runs off the document. -/
def select (root : Value) : List Segment → Except Misfit (Option Value)
  | [] => .ok (some root)
  | s :: rest =>
    match root with
    | .null => .ok none
    | v =>
      match step v s with
      | .error e => .error e
      | .ok none => .ok none
      | .ok (some w) => select w rest

end QueryPlayground.Path
