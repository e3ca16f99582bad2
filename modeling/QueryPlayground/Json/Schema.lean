import QueryPlayground.Json.Skip
import QueryPlayground.Json.Printer
import QueryPlayground.Text.Printable

/-!
# Reading JSON text of a known shape

A schema says what a text has to hold: strings, truth values, integers of a range, one of several
names, lists, optional values, and records. `Schema.read` reads a value of that shape and refuses any
other one at the place where it goes wrong. The answer is a JSON value in normal form: a name is the
main one of its spellings, an absent optional value is `null`, and a record has all its fields in
declared order.

A record is written as an object, with its fields in any order and unknown members passed over, or as
an array of its fields.
-/

namespace QueryPlayground.Json

/-! ## §1 Schemas -/

/-- What a text has to hold. -/
inductive Schema where
  /-- A string; the wording is what a refusal says is expected. -/
  | text (expected : String)
  /-- A truth value. -/
  | flag
  /-- An integer of a range, with the name of the range. -/
  | integer (least greatest : Int) (expected : String)
  /-- One of several spellings, each with the name it means. -/
  | choice (spellings : List (String × String))
  | list (item : Schema)
  /-- A value or `null`. -/
  | optional (item : Schema)
  /-- A record: its name, and its fields with the value of an absent one, if it may be absent. -/
  | record (name : String) (fields : List (String × Schema × Option Value))

/-- The names in backquotes, with commas between them. -/
def quotedNames : List String → String
  | [] => ""
  | [n] => "`" ++ n ++ "`"
  | n :: rest => "`" ++ n ++ "`, " ++ quotedNames rest

/-- The wording for a choice of names. -/
def expectedNames (names : List String) : String :=
  match names with
  | [a, b] => "`" ++ a ++ "` or `" ++ b ++ "`"
  | [a] => "`" ++ a ++ "`"
  | names => "one of " ++ quotedNames names

/-! ## §2 Values of another type -/

/-- The value is of another type. -/
def invalidType (found expected : String) : Cause :=
  .mismatch ("invalid type: " ++ found ++ ", expected " ++ expected)

/-- How a message names a scalar. -/
def foundName : Value → String
  | .null => "null"
  | .bool true => "boolean `true`"
  | .bool false => "boolean `false`"
  | .int n => "integer `" ++ String.ofList (intChars n) ++ "`"
  | .real x => "floating point `" ++ String.ofList (realChars x) ++ "`"
  | .str s => "string " ++ Text.shown s
  | .arr _ => "sequence"
  | .obj _ => "map"

/-- Refuses the value in front of a text, which is of another type than expected. -/
def refuse {α : Type} (expected : String) (cs : List Char) : Except Failure α :=
  match cs with
  | '[' :: _ => .error (.here (invalidType "sequence" expected) cs)
  | '\x7b' :: _ => .error (.here (invalidType "map" expected) cs)
  | _ =>
    match readValue 2 0 cs with
    | .ok (v, rest) => .error (.here (invalidType (foundName v) expected) rest)
    | .error f => .error f

/-! ## §3 Scalars -/

def readText (expected : String) (cs : List Char) : Except Failure (String × List Char) :=
  match skipSpace cs with
  | [] => .error (.peek .endInValue [])
  | '"' :: rest => string rest
  | rest => refuse expected rest

def readFlag (cs : List Char) : Except Failure (Value × List Char) :=
  match skipSpace cs with
  | [] => .error (.peek .endInValue [])
  | 't' :: rest => (word ['r', 'u', 'e'] rest).map (.bool true, ·)
  | 'f' :: rest => (word ['a', 'l', 's', 'e'] rest).map (.bool false, ·)
  | rest => refuse "a boolean" rest

/-- Takes an integer of a range. -/
def inRange (least greatest : Int) (expected : String) (v : Value) (rest : List Char) :
    Except Failure (Value × List Char) :=
  match v with
  | .int n =>
    if least ≤ n ∧ n ≤ greatest then .ok (.int n, rest)
    else
      .error (.here (.mismatch ("invalid value: integer `" ++ String.ofList (intChars n) ++
        "`, expected " ++ expected)) rest)
  | v => .error (.here (invalidType (foundName v) expected) rest)

def readInteger (least greatest : Int) (expected : String) (cs : List Char) :
    Except Failure (Value × List Char) :=
  match skipSpace cs with
  | [] => .error (.peek .endInValue [])
  | '-' :: rest => do
    let (v, rest) ← number true rest
    inRange least greatest expected v rest
  | c :: rest =>
    if c.isDigit then do
      let (v, rest) ← number false (c :: rest)
      inRange least greatest expected v rest
    else refuse expected (c :: rest)

/-- Reads one of several spellings, as a string. -/
def readName (spellings : List (String × String)) (cs : List Char) :
    Except Failure (Value × List Char) := do
  let (s, rest) ← readText "variant identifier" cs
  match spellings.lookup s with
  | some name => return (.str name, rest)
  | none =>
    .error (.here (.mismatch ("unknown variant `" ++ s ++ "`, expected " ++
      expectedNames (spellings.map (·.1)))) rest)

/-- Reads the `null` that may stand behind a name in an object. -/
def readUnit (cs : List Char) : Except Failure (List Char) :=
  match skipSpace cs with
  | [] => .error (.peek .endInValue [])
  | 'n' :: rest => word ['u', 'l', 'l'] rest
  | rest => refuse "unit" rest

/-- Reads one of several spellings: a string, or an object of the name and `null`. -/
def readChoice (depth : Nat) (spellings : List (String × String)) (cs : List Char) :
    Except Failure (Value × List Char) :=
  match skipSpace cs with
  | [] => .error (.peek .endInValue [])
  | '"' :: rest => readName spellings ('"' :: rest)
  | '\x7b' :: rest =>
    if depth = 0 then .error (.peek .tooDeep ('\x7b' :: rest))
    else do
      let (v, rest) ← readName spellings rest
      let rest ← colon rest
      let rest ← readUnit rest
      match skipSpace rest with
      | [] => .error (.here .endInObject [])
      | '\x7d' :: rest => return (v, rest)
      | rest => .error (.here .expectedValue rest)
  | rest => .error (.peek .expectedValue rest)

/-! ## §4 Records -/

/-- A failure of a whole array or object, which is placed behind its closing bracket if that is
next. -/
def failAt (closer : Char) (cause : Cause) (cs : List Char) : Failure :=
  match skipSpace cs with
  | [] => .here cause []
  | c :: rest => if c = closer then .here cause rest else .here cause (c :: rest)

/-- The fields of a record in declared order, from those that were found. -/
def finishRecord (fields : List (String × Schema × Option Value)) (found : List (String × Value)) :
    Except Cause (List (String × Value)) :=
  match fields with
  | [] => .ok []
  | (name, _, absent) :: fields =>
    match found.lookup name with
    | some v => (finishRecord fields found).map ((name, v) :: ·)
    | none =>
      match absent with
      | some v => (finishRecord fields found).map ((name, v) :: ·)
      | none => .error (.mismatch ("missing field `" ++ name ++ "`"))

/-- Reads the closing bracket behind the fields of a record. -/
def endItems (cs : List Char) : Except Failure (List Char) :=
  match skipSpace cs with
  | [] => .error (.peek .endInArray [])
  | ']' :: rest => .ok rest
  | ',' :: rest =>
    match skipSpace rest with
    | ']' :: rest => .error (.peek .trailingComma (']' :: rest))
    | rest => .error (.peek .trailingCharacters rest)
  | rest => .error (.peek .trailingCharacters rest)

/-- A record as an array ends before a field that may not be absent. -/
def tooFewItems (record : String) (count total : Nat) : Cause :=
  .mismatch ("invalid length " ++ toString count ++ ", expected struct " ++ record ++ " with " ++
    toString total ++ (if total = 1 then " element" else " elements"))

namespace Schema

mutual

/-- Reads a value of a shape. -/
def readFrom : Nat → Nat → Schema → List Char → Except Failure (Value × List Char)
  | 0, _, _, cs => .error (.peek .endInValue cs)
  | fuel + 1, depth, schema, cs =>
    match schema with
    | .text expected => do
      let (s, rest) ← readText expected cs
      return (.str s, rest)
    | .flag => readFlag cs
    | .integer least greatest expected => readInteger least greatest expected cs
    | .choice spellings => readChoice depth spellings cs
    | .optional item =>
      match skipSpace cs with
      | 'n' :: rest => return (.null, ← word ['u', 'l', 'l'] rest)
      | _ => readFrom fuel depth item cs
    | .list item =>
      match skipSpace cs with
      | [] => .error (.peek .endInValue [])
      | '[' :: rest =>
        match depth with
        | 0 => .error (.peek .tooDeep ('[' :: rest))
        | depth + 1 => readList fuel depth item true [] rest
      | rest => refuse "a sequence" rest
    | .record name fields =>
      match skipSpace cs with
      | [] => .error (.peek .endInValue [])
      | '[' :: rest =>
        match depth with
        | 0 => .error (.peek .tooDeep ('[' :: rest))
        | depth + 1 => readItems fuel depth name fields.length fields true [] rest
      | '\x7b' :: rest =>
        match depth with
        | 0 => .error (.peek .tooDeep ('\x7b' :: rest))
        | depth + 1 => readMembers fuel depth fields true [] rest
      | rest => refuse ("struct " ++ name) rest

/-- Reads the items of a list and its end, behind those read so far in reverse. -/
def readList : Nat → Nat → Schema → Bool → List Value → List Char →
    Except Failure (Value × List Char)
  | 0, _, _, _, _, cs => .error (.peek .endInArray cs)
  | fuel + 1, depth, item, first, done, cs =>
    match nextItem first cs with
    | .error f => .error f
    | .ok none => .ok (.arr done.reverse, afterClose cs)
    | .ok (some rest) =>
      match readFrom fuel depth item rest with
      | .error f => .error f
      | .ok (v, rest) => readList fuel depth item false (v :: done) rest

/-- Reads the fields of a record that is written as an array, behind those read so far in reverse. -/
def readItems : Nat → Nat → String → Nat → List (String × Schema × Option Value) → Bool →
    List (String × Value) → List Char → Except Failure (Value × List Char)
  | 0, _, _, _, _, _, _, cs => .error (.peek .endInArray cs)
  | fuel + 1, depth, owner, total, fields, first, done, cs =>
    match fields with
    | [] => do
      let rest ← endItems cs
      return (.obj done.reverse, rest)
    | (name, schema, absent) :: fields =>
      match nextItem first cs with
      | .error f => .error f
      | .ok none =>
        match absent with
        | some v => readItems fuel depth owner total fields first ((name, v) :: done) cs
        | none => .error (failAt ']' (tooFewItems owner done.length total) cs)
      | .ok (some rest) =>
        match readFrom fuel depth schema rest with
        | .error f => .error f
        | .ok (v, rest) => readItems fuel depth owner total fields false ((name, v) :: done) rest

/-- Reads the members of a record that is written as an object, beside the fields found so far. -/
def readMembers : Nat → Nat → List (String × Schema × Option Value) → Bool →
    List (String × Value) → List Char → Except Failure (Value × List Char)
  | 0, _, _, _, _, cs => .error (.peek .endInObject cs)
  | fuel + 1, depth, fields, first, found, cs =>
    match nextKey first cs with
    | .error f => .error f
    | .ok none =>
      match finishRecord fields found with
      | .ok members => .ok (.obj members, afterClose cs)
      | .error cause => .error (failAt '\x7d' cause cs)
    | .ok (some rest) =>
      match string rest with
      | .error f => .error f
      | .ok (key, rest) =>
        match fields.lookup key with
        | none =>
          match colon rest with
          | .error f => .error f
          | .ok rest =>
            match skipValue rest with
            | .error f => .error f
            | .ok rest => readMembers fuel depth fields false found rest
        | some (schema, _) =>
          if (found.lookup key).isSome then
            .error (failAt '\x7d' (.mismatch ("duplicate field `" ++ key ++ "`")) rest)
          else
            match colon rest with
            | .error f => .error f
            | .ok rest =>
              match readFrom fuel depth schema rest with
              | .error f => .error f
              | .ok (v, rest) => readMembers fuel depth fields false ((key, v) :: found) rest

end

/-- Reads a text that is one value of a shape. -/
def parseChars (schema : Schema) (cs : List Char) : Except Failure Value := do
  let (v, rest) ← readFrom (2 * enough cs + 64) maxDepth schema cs
  atEnd rest
  return v

/-- Reads a text that is one value of a shape; a refusal is described with its line and column. -/
def parse (schema : Schema) (text : String) : Except String Value :=
  let cs := text.toList
  (schema.parseChars cs).mapError (·.describe cs)

end Schema

end QueryPlayground.Json
