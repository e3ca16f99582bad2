import QueryPlayground.Json.Reader

/-!
# Passing over a value

A member that nobody asked for is passed over without being built. It has to be well formed, but its
numbers may be of any size, its escapes may be half a pair, and it may nest as deep as it likes: the
open brackets and braces wait on a list.
-/

namespace QueryPlayground.Json

/-! ## §1 Strings and numbers -/

/-- Passes over an escape, of which the backslash is read. -/
def skipEscape (cs : List Char) : Except Failure (List Char) :=
  match cs with
  | [] => .error (.here .endInString [])
  | c :: rest =>
    if (simpleEscape? c).isSome then .ok rest
    else if c = 'u' then (hexUnit rest).map (·.2)
    else .error (.peek .invalidEscape cs)

def skipStringFrom : Nat → List Char → Except Failure (List Char)
  | 0, cs => .error (.here .endInString cs)
  | _ + 1, [] => .error (.here .endInString [])
  | fuel + 1, c :: cs =>
    if c = '"' then .ok cs
    else if c = '\\' then
      match skipEscape cs with
      | .ok rest => skipStringFrom fuel rest
      | .error f => .error f
    else if c.toNat < 32 then .error (.here .controlCharacter (c :: cs))
    else skipStringFrom fuel cs

/-- Passes over a string, of which the opening quote is read. -/
def skipString (cs : List Char) : Except Failure (List Char) :=
  skipStringFrom (cs.length + 1) cs

/-- Passes over an exponent, of which the mark is read. -/
def skipExponent (cs : List Char) : Except Failure (List Char) :=
  let digits := match cs with
    | '+' :: rest => rest
    | '-' :: rest => rest
    | _ => cs
  if startsWithDigit digits then .ok (digits.dropWhile Char.isDigit)
  else .error (.peek .invalidNumber digits)

def skipExponentIfAny (cs : List Char) : Except Failure (List Char) :=
  if startsWithExponent cs then skipExponent (cs.drop 1) else .ok cs

/-- Passes over what follows the digits before the point. -/
def skipAfterDigits (cs : List Char) : Except Failure (List Char) :=
  match cs with
  | '.' :: rest =>
    if startsWithDigit rest then skipExponentIfAny (rest.dropWhile Char.isDigit)
    else .error (.peek .invalidNumber rest)
  | _ => skipExponentIfAny cs

/-- Passes over a number, of which the minus sign is read. -/
def skipNumber (cs : List Char) : Except Failure (List Char) :=
  match cs with
  | [] => .error (.here .invalidNumber [])
  | c :: rest =>
    if c = '0' then
      if startsWithDigit rest then .error (.peek .invalidNumber rest) else skipAfterDigits rest
    else if c.isDigit then skipAfterDigits (cs.dropWhile Char.isDigit)
    else .error (.peek .invalidNumber cs)

/-! ## §2 Values -/

/-- What is open: an array or an object. -/
inductive Frame where
  | array
  | object
  deriving DecidableEq, Repr

def Frame.closer : Frame → Char
  | array => ']'
  | object => '\x7d'

/-- The text ends inside a frame. -/
def Frame.ended : Frame → Cause
  | array => .endInArray
  | object => .endInObject

/-- Something else stands where a frame goes on. -/
def Frame.expected : Frame → Cause
  | array => .expectedCommaOrBracket
  | object => .expectedCommaOrBrace

def skipKey (cs : List Char) : Except Failure (List Char) :=
  match skipSpace cs with
  | [] => .error (.peek .endInObject [])
  | '"' :: rest => do
    let rest ← skipString rest
    colon rest
  | rest => .error (.peek .keyMustBeString rest)

/-- Passes over a scalar, or answers with the frame that opens. -/
def skipScalar (cs : List Char) : Except Failure (Option Frame × List Char) :=
  match skipSpace cs with
  | [] => .error (.peek .endInValue [])
  | 'n' :: rest => (word ['u', 'l', 'l'] rest).map (none, ·)
  | 't' :: rest => (word ['r', 'u', 'e'] rest).map (none, ·)
  | 'f' :: rest => (word ['a', 'l', 's', 'e'] rest).map (none, ·)
  | '-' :: rest => (skipNumber rest).map (none, ·)
  | '"' :: rest => (skipString rest).map (none, ·)
  | '[' :: rest => .ok (some .array, rest)
  | '\x7b' :: rest => .ok (some .object, rest)
  | c :: rest =>
    if c.isDigit then (skipNumber (c :: rest)).map (none, ·)
    else .error (.peek .expectedValue (c :: rest))

/-- Passes over what follows a value or an opening bracket inside the open frames: closing brackets,
and then a comma. Answers `none` once nothing is open, and otherwise with the frames in which another
value is due. -/
def skipClosers : Bool → List Frame → Nat → List Char →
    Except Failure (Option (List Frame) × List Char)
  | _, [], _, cs => .ok (none, cs)
  | _, _, 0, cs => .error (.peek .endInValue cs)
  | afterValue, frame :: outer, fuel + 1, cs =>
    match skipSpace cs with
    | [] => .error (.peek frame.ended [])
    | c :: rest =>
      if afterValue && c = ',' then .ok (some (frame :: outer), rest)
      else if c = frame.closer then skipClosers true outer fuel rest
      else if afterValue then .error (.peek frame.expected (c :: rest))
      else .ok (some (frame :: outer), c :: rest)

/-- Passes over a value inside the open frames, and over what closes them. -/
def skipValueFrom : Nat → List Frame → List Char → Except Failure (List Char)
  | 0, _, cs => .error (.peek .endInValue cs)
  | fuel + 1, frames, cs =>
    match skipScalar cs with
    | .error f => .error f
    | .ok (opened, rest) =>
      let frames' := match opened with
        | some frame => frame :: frames
        | none => frames
      match skipClosers opened.isNone frames' (rest.length + 1) rest with
      | .error f => .error f
      | .ok (none, rest) => .ok rest
      | .ok (some [], rest) => .ok rest
      | .ok (some (frame :: outer), rest) =>
        match frame with
        | .array => skipValueFrom fuel (frame :: outer) rest
        | .object =>
          match skipKey rest with
          | .error f => .error f
          | .ok rest => skipValueFrom fuel (frame :: outer) rest

def skipValue (cs : List Char) : Except Failure (List Char) :=
  skipValueFrom (cs.length + 1) [] cs

end QueryPlayground.Json
