import QueryPlayground.Json.Token

/-!
# Reading JSON text

`Value.read` reads the longest value in front of a text, `Value.parse` a whole text. Arrays and
objects nest at most `maxDepth` deep. The recursion runs on fuel; `enough` computes from the text an
amount that no text exhausts.
-/

namespace QueryPlayground.Json

/-- How deep arrays and objects may nest. -/
def maxDepth : Nat := 127

/-- Fuel for reading a text: two steps a character. -/
def enough (cs : List Char) : Nat :=
  2 * cs.length + 2

/-! ## §1 Separators -/

/-- Reads the colon after a key. -/
def colon (cs : List Char) : Except Failure (List Char) :=
  match skipSpace cs with
  | [] => .error (.peek .endInObject [])
  | ':' :: rest => .ok rest
  | rest => .error (.peek .expectedColon rest)

/-- Looks for the next item of an array: `none` at the closing bracket, which stays unread. -/
def nextItem (first : Bool) (cs : List Char) : Except Failure (Option (List Char)) :=
  match skipSpace cs with
  | [] => .error (.peek .endInArray [])
  | ']' :: _ => .ok none
  | rest@(c :: after) =>
    if first then .ok (some rest)
    else if c = ',' then
      match skipSpace after with
      | [] => .error (.peek .endInValue [])
      | rest@(']' :: _) => .error (.peek .trailingComma rest)
      | rest => .ok (some rest)
    else .error (.peek .expectedCommaOrBracket rest)

/-- Looks for the next member of an object: `none` at the closing brace, which stays unread, and
otherwise the text after the opening quote of the key. -/
def nextKey (first : Bool) (cs : List Char) : Except Failure (Option (List Char)) :=
  match skipSpace cs with
  | [] => .error (.peek .endInObject [])
  | '\x7d' :: _ => .ok none
  | rest@(c :: after) =>
    if first then
      if c = '"' then .ok (some after) else .error (.peek .keyMustBeString rest)
    else if c = ',' then
      match skipSpace after with
      | [] => .error (.peek .endInValue [])
      | '"' :: key => .ok (some key)
      | rest@('\x7d' :: _) => .error (.peek .trailingComma rest)
      | rest => .error (.peek .keyMustBeString rest)
    else .error (.peek .expectedCommaOrBrace rest)

/-- The text after the bracket or brace that closes here. -/
def afterClose (cs : List Char) : List Char :=
  (skipSpace cs).drop 1

/-! ## §2 Values -/

mutual

def readValue : Nat → Nat → List Char → Except Failure (Value × List Char)
  | 0, _, cs => .error (.peek .endInValue cs)
  | fuel + 1, depth, cs =>
    match skipSpace cs with
    | [] => .error (.peek .endInValue [])
    | 'n' :: rest => return (.null, ← word ['u', 'l', 'l'] rest)
    | 't' :: rest => return (.bool true, ← word ['r', 'u', 'e'] rest)
    | 'f' :: rest => return (.bool false, ← word ['a', 'l', 's', 'e'] rest)
    | '-' :: rest => number true rest
    | '"' :: rest => do
      let (s, rest) ← string rest
      return (.str s, rest)
    | '[' :: rest =>
      match depth with
      | 0 => .error (.peek .tooDeep ('[' :: rest))
      | depth + 1 => readItems fuel depth true [] rest
    | '\x7b' :: rest =>
      match depth with
      | 0 => .error (.peek .tooDeep ('\x7b' :: rest))
      | depth + 1 => readMembers fuel depth true [] rest
    | c :: rest =>
      if c.isDigit then number false (c :: rest) else .error (.peek .expectedValue (c :: rest))

/-- Reads the items of an array and its closing bracket, with the items read so far in reverse. -/
def readItems : Nat → Nat → Bool → List Value → List Char → Except Failure (Value × List Char)
  | 0, _, _, _, cs => .error (.peek .endInArray cs)
  | fuel + 1, depth, first, done, cs =>
    match nextItem first cs with
    | .error f => .error f
    | .ok none => .ok (.arr done.reverse, afterClose cs)
    | .ok (some rest) =>
      match readValue fuel depth rest with
      | .error f => .error f
      | .ok (v, rest) => readItems fuel depth false (v :: done) rest

/-- Reads the members of an object and its closing brace, beside the members read so far. -/
def readMembers : Nat → Nat → Bool → List (String × Value) → List Char →
    Except Failure (Value × List Char)
  | 0, _, _, _, cs => .error (.peek .endInObject cs)
  | fuel + 1, depth, first, done, cs =>
    match nextKey first cs with
    | .error f => .error f
    | .ok none => .ok (.obj done, afterClose cs)
    | .ok (some rest) =>
      match string rest with
      | .error f => .error f
      | .ok (key, rest) =>
        match colon rest with
        | .error f => .error f
        | .ok rest =>
          match readValue fuel depth rest with
          | .error f => .error f
          | .ok (v, rest) => readMembers fuel depth false (Members.insert key v done) rest

end

/-! ## §3 Whole texts -/

/-- Nothing but space may be left. -/
def atEnd (cs : List Char) : Except Failure Unit :=
  match skipSpace cs with
  | [] => .ok ()
  | rest => .error (.peek .trailingCharacters rest)

namespace Value

/-- Reads the value in front of a text. -/
def read (cs : List Char) : Except Failure (Value × List Char) :=
  readValue (enough cs) maxDepth cs

/-- Reads a text that is one value. -/
def parseChars (cs : List Char) : Except Failure Value := do
  let (v, rest) ← read cs
  atEnd rest
  return v

/-- Reads a text that is one value; a refusal is described with its line and column. -/
def parse (text : String) : Except String Value :=
  let cs := text.toList
  (parseChars cs).mapError (·.describe cs)

end Value

end QueryPlayground.Json
