import QueryPlayground.Json.Schema

/-!
# Types with a written form

A codec ties a type to its JSON text: the schema of the text, the value that is written for an
element, and the element that a value in normal form stands for.
-/

namespace QueryPlayground.Json

/-! ## §1 Codecs -/

/-- The written form of a type. -/
structure Codec (α : Type) where
  /-- What the text has to hold. -/
  schema : Schema
  encode : α → Value
  /-- The element of a value in normal form. -/
  decode? : Value → Option α

namespace Codec

/-- The text of an element, without spaces and with fields in declared order. -/
def print {α : Type} (c : Codec α) (a : α) : String :=
  (c.encode a).compact

/-- Reads an element from a text. -/
def parse {α : Type} (c : Codec α) (text : String) : Except String α := do
  let v ← c.schema.parse text
  match c.decode? v with
  | some a => return a
  | none => .error "value out of shape"

end Codec

/-! ## §2 Common shapes -/

def textSchema : Schema := .text "a string"

/-- A file name. -/
def pathSchema : Schema := .text "path string"

/-- A signed integer of a machine word. -/
def signedSchema : Schema := .integer MachineWord.minSigned MachineWord.maxSigned "i64"

/-- An unsigned integer of a machine word. -/
def unsignedSchema : Schema := .integer 0 MachineWord.maxUnsigned "u64"

def sizeSchema : Schema := .integer 0 MachineWord.maxUnsigned "usize"

/-- The names of a choice that have no other spelling. -/
def names (l : List String) : List (String × String) :=
  l.map fun n => (n, n)

/-! ## §3 Parts of a value in normal form -/

namespace Value

def text? : Value → Option String
  | str s => some s
  | _ => none

def flag? : Value → Option Bool
  | bool b => some b
  | _ => none

def int? : Value → Option Int
  | int n => some n
  | _ => none

/-- The natural number. -/
def nat? : Value → Option Nat
  | int (.ofNat n) => some n
  | _ => none

def items? : Value → Option (List Value)
  | arr vs => some vs
  | _ => none

def member? (name : String) : Value → Option Value
  | obj ms => Members.get? name ms
  | _ => none

end Value

end QueryPlayground.Json
