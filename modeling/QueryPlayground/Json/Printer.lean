import QueryPlayground.Json.Value
import QueryPlayground.Decimal.Layout

/-!
# JSON text of a value

`Value.compact` writes a value without any space; `Value.pretty` writes one item a line, indented
by a given number of spaces for each level. Strings escape the quote, the backslash and the
control characters, and nothing else.
-/

namespace QueryPlayground.Json

open QueryPlayground.Decimal

/-! ## §1 Strings -/

/-- The lowercase hexadecimal digit of a number below sixteen. -/
def hexDigit (n : Nat) : Char :=
  Nat.digitChar n

/-- The four hexadecimal digits of a number below `2 ^ 16`. -/
def hexFour (n : Nat) : List Char :=
  [hexDigit (n / 4096 % 16), hexDigit (n / 256 % 16), hexDigit (n / 16 % 16), hexDigit (n % 16)]

/-- A character as it stands inside a string. -/
def escapeChar (c : Char) : List Char :=
  if c = '"' then ['\\', '"']
  else if c = '\\' then ['\\', '\\']
  else if c = '\n' then ['\\', 'n']
  else if c = '\r' then ['\\', 'r']
  else if c = '\t' then ['\\', 't']
  else if c = '\x08' then ['\\', 'b']
  else if c = '\x0c' then ['\\', 'f']
  else if c.toNat < 32 then ['\\', 'u'] ++ hexFour c.toNat
  else [c]

def quote (s : String) : List Char :=
  '"' :: (s.toList.flatMap escapeChar ++ ['"'])

/-! ## §2 Numbers -/

/-- An integer in decimal digits. -/
def intChars (n : Int) : List Char :=
  match n with
  | .ofNat k => digitChars k
  | .negSucc k => '-' :: digitChars (k + 1)

/-- A double in the layout of JSON. -/
def realChars (x : Double) : List Char :=
  Layout.json.render x

/-! ## §3 Values -/

namespace Value

mutual

/-- The characters of a value without spaces. -/
def compactChars : Value → List Char
  | null => ['n', 'u', 'l', 'l']
  | bool true => ['t', 'r', 'u', 'e']
  | bool false => ['f', 'a', 'l', 's', 'e']
  | int n => intChars n
  | real x => realChars x
  | str s => quote s
  | arr items => '[' :: (compactItems items ++ [']'])
  | obj members => '{' :: (compactMembers members ++ ['}'])

/-- The items of an array, separated by commas. -/
def compactItems : List Value → List Char
  | [] => []
  | [v] => compactChars v
  | v :: w :: rest => compactChars v ++ ',' :: compactItems (w :: rest)

/-- The members of an object, separated by commas. -/
def compactMembers : List (String × Value) → List Char
  | [] => []
  | [(k, v)] => quote k ++ ':' :: compactChars v
  | (k, v) :: m :: rest => quote k ++ ':' :: (compactChars v ++ ',' :: compactMembers (m :: rest))

end

def newLine (indent level : Nat) : List Char :=
  '\n' :: List.replicate (indent * level) ' '

mutual

/-- The characters of a value with one item a line, at a level. -/
def prettyChars (indent level : Nat) : Value → List Char
  | null => ['n', 'u', 'l', 'l']
  | bool true => ['t', 'r', 'u', 'e']
  | bool false => ['f', 'a', 'l', 's', 'e']
  | int n => intChars n
  | real x => realChars x
  | str s => quote s
  | arr [] => ['[', ']']
  | arr (v :: rest) =>
    '[' :: (prettyItems indent (level + 1) (v :: rest) ++ (newLine indent level ++ [']']))
  | obj [] => ['{', '}']
  | obj (m :: rest) =>
    '{' :: (prettyMembers indent (level + 1) (m :: rest) ++ (newLine indent level ++ ['}']))

/-- The items of an array, each on a line of its own. -/
def prettyItems (indent level : Nat) : List Value → List Char
  | [] => []
  | [v] => newLine indent level ++ prettyChars indent level v
  | v :: w :: rest =>
    newLine indent level ++ (prettyChars indent level v ++
      ',' :: prettyItems indent level (w :: rest))

/-- The members of an object, each on a line of its own. -/
def prettyMembers (indent level : Nat) : List (String × Value) → List Char
  | [] => []
  | [(k, v)] => newLine indent level ++ (quote k ++ ':' :: ' ' :: prettyChars indent level v)
  | (k, v) :: m :: rest =>
    newLine indent level ++ (quote k ++ ':' :: ' ' :: (prettyChars indent level v ++
      ',' :: prettyMembers indent level (m :: rest)))

end

/-- The value as JSON text without spaces. -/
def compact (v : Value) : String :=
  String.ofList v.compactChars

/-- The value as JSON text with one item a line. -/
def pretty (indent : Nat) (v : Value) : String :=
  String.ofList (v.prettyChars indent 0)

end Value

end QueryPlayground.Json
