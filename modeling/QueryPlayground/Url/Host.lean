import QueryPlayground.Text.Lowercase
import QueryPlayground.Url.Percent

/-!
# Hosts

The host of a URL is a domain name, four numbers, or eight numbers in brackets, each with one written
form: names in lowercase with labels beyond ASCII in their ASCII form, four numbers in decimal, eight
numbers in hexadecimal with the longest run of zeros left out.
-/

namespace QueryPlayground.Url

/-! ## §1 Four numbers -/

/-- The pieces of a text between separators, of which there is always at least one. -/
def splitAt (isSeparator : Char → Bool) : List Char → List (List Char)
  | [] => [[]]
  | c :: cs =>
    if isSeparator c then [] :: splitAt isSeparator cs
    else
      match splitAt isSeparator cs with
      | [] => [[c]]
      | piece :: pieces => (c :: piece) :: pieces

/-- The number that digits of a base stand for. -/
def numberIn? (base : Nat) (cs : List Char) : Option Nat :=
  cs.foldl
    (fun n c =>
      match n, hexValue? c with
      | some n, some d => if d < base then some (n * base + d) else none
      | _, _ => none)
    (some 0)

/-- A number of a host: decimal, octal after a zero, hexadecimal after `0x`. -/
def hostNumber? (cs : List Char) : Option Nat :=
  match cs with
  | [] => none
  | '0' :: 'x' :: rest => numberIn? 16 rest
  | '0' :: 'X' :: rest => numberIn? 16 rest
  | '0' :: c :: rest => numberIn? 8 (c :: rest)
  | cs => numberIn? 10 cs

/-- The labels without an empty one at the end. -/
def dropEmptyLast (parts : List (List Char)) : List (List Char) :=
  match parts.reverse with
  | [] :: rest => if rest.isEmpty then parts else rest.reverse
  | _ => parts

/-- Whether a name ends in a number, so that it has to be a list of numbers. -/
def endsInNumber (parts : List (List Char)) : Bool :=
  match (dropEmptyLast parts).getLast? with
  | none => false
  | some last => (!last.isEmpty && last.all Char.isDigit) || (hostNumber? last).isSome

/-- The address of at most four numbers, of which the last one fills the rest. -/
def addressOf? (numbers : List Nat) : Option Nat :=
  let n := numbers.length
  match numbers.reverse with
  | [] => none
  | last :: front =>
    if 4 < n || front.any (255 < ·) || Nat.pow 256 (5 - n) ≤ last then none
    else
      some ((front.reverse.zipIdx.foldl (fun a (p : Nat × Nat) => a + p.1 * Nat.pow 256 (3 - p.2)) 0) + last)

/-- An address as four decimal numbers. -/
def addressText (a : Nat) : String :=
  toString (a / 16777216 % 256) ++ "." ++ toString (a / 65536 % 256) ++ "." ++
    toString (a / 256 % 256) ++ "." ++ toString (a % 256)

def fourNumbers? (parts : List (List Char)) : Option String := do
  let numbers ← (dropEmptyLast parts).mapM hostNumber?
  let a ← addressOf? numbers
  return addressText a

/-! ## §2 Eight numbers -/

/-- Reads groups of up to four hexadecimal digits between single colons. -/
def groups? (cs : List Char) : Option (List Nat) :=
  if cs.isEmpty then some []
  else
    (splitAt (· == ':') cs).mapM fun g =>
      if g.isEmpty || 4 < g.length then none else numberIn? 16 g

/-- The text before and after the first double colon, if there is one. -/
def splitDouble? : List Char → Option (List Char × List Char)
  | ':' :: ':' :: rest => some ([], rest)
  | [] => none
  | c :: cs => (splitDouble? cs).map fun (a, b) => (c :: a, b)

def eightNumbers? (cs : List Char) : Option (List Nat) :=
  match splitDouble? cs with
  | none => do
    let gs ← groups? cs
    if gs.length = 8 then some gs else none
  | some (front, back) => do
    let a ← groups? front
    let b ← groups? back
    if 7 < a.length + b.length then none
    else some (a ++ List.replicate (8 - a.length - b.length) 0 ++ b)

/-- The lowercase hexadecimal digits of a number. -/
def hexText (n : Nat) : String :=
  String.ofList (Nat.toDigits 16 n)

/-- The place and the length of the first longest run of zeros, if it has at least two. -/
def longestZeros (ns : List Nat) : Option (Nat × Nat) :=
  let runs := (List.range ns.length).map fun i => (i, ((ns.drop i).takeWhile (· == 0)).length)
  runs.foldl
    (fun best (r : Nat × Nat) =>
      if r.2 < 2 then best
      else
        match best with
        | none => some r
        | some b => if b.2 < r.2 then some r else best)
    none

/-- Numbers in hexadecimal between colons. -/
def groupsText (ns : List Nat) : String :=
  String.intercalate ":" (ns.map hexText)

/-- Eight numbers in brackets. -/
def eightText (ns : List Nat) : String :=
  "[" ++
    (match longestZeros ns with
    | none => groupsText ns
    | some (i, n) => groupsText (ns.take i) ++ "::" ++ groupsText (ns.drop (i + n))) ++ "]"

/-! ## §3 Names beyond ASCII -/

/-- How the bias of the ASCII form goes on after a difference. -/
def adaptBias : Nat → Nat → Nat → Nat
  | 0, k, _ => k
  | fuel + 1, k, delta =>
    if 455 < delta then adaptBias fuel (k + 36) (delta / 35) else k + 36 * delta / (delta + 38)

/-- The digits of the ASCII form for a difference. -/
def differenceDigits (bias : Nat) : Nat → Nat → Nat → List Char
  | 0, _, _ => []
  | fuel + 1, k, q =>
    let t := if k ≤ bias then 1 else min 26 (k - bias)
    let digit (d : Nat) : Char := if d < 26 then Char.ofNat (97 + d) else Char.ofNat (22 + d)
    if q < t then [digit q]
    else digit (t + (q - t) % (36 - t)) :: differenceDigits bias fuel (k + 36) ((q - t) / (36 - t))

/-- The state of writing a label: the difference, the bias and how many characters are written. -/
structure LabelState where
  delta : Nat
  bias : Nat
  /-- How many characters are written. -/
  handled : Nat
  done : List Char

/-- Writes the characters of one code point of a label. -/
def LabelState.pass (basic : Nat) (s : LabelState) (n : Nat) (label : List Char) : LabelState :=
  label.foldl
    (fun s c =>
      if c.toNat < n then { s with delta := s.delta + 1 }
      else if c.toNat = n then
        let first := s.handled == basic
        let delta := if first then s.delta / 700 else s.delta / 2
        { delta := 0
          bias := adaptBias 32 0 (delta + delta / (s.handled + 1))
          handled := s.handled + 1
          done := s.done ++ differenceDigits s.bias 32 36 s.delta }
      else s)
    s

/-- The increasing code points of a label that are beyond ASCII. -/
def codePoints (label : List Char) : List Nat :=
  ((label.map Char.toNat).filter (128 ≤ ·)).mergeSort.eraseDups

def asciiLabel (label : List Char) : List Char :=
  let plain := label.filter (·.toNat < 128)
  if plain.length = label.length then label
  else
    let b := plain.length
    let start : LabelState := ⟨0, 72, b, []⟩
    let (s, _) := (codePoints label).foldl
      (fun (p : LabelState × Nat) m =>
        let (s, n) := p
        let s := { s with delta := s.delta + (m - n) * (s.handled + 1) }
        let s := s.pass b m label
        ({ s with delta := s.delta + 1 }, m + 1))
      (start, 128)
    "xn--".toList ++ plain ++ (if b = 0 then [] else ['-']) ++ s.done

def asciiName (cs : List Char) : List Char :=
  (((splitAt (· == '.') cs).map asciiLabel).intersperse ['.']).flatten

/-! ## §4 Hosts -/

/-- Whether a character must not be in a host. -/
def isForbidden (c : Char) : Bool :=
  c.toNat < 0x20 || c.toNat = 0x7F || isOneOf " #%/:<>?@[\\]^|" c

/-- The written form of a host between brackets. -/
def bracketHost? (cs : List Char) : Option String :=
  if cs.getLast? == some ']' then (eightNumbers? cs.dropLast).map eightText else none

/-- The written form of the host of a web address. -/
def webHost? (cs : List Char) : Option String :=
  match cs with
  | '[' :: rest => bracketHost? rest
  | cs =>
    let name := asciiName (Text.lowerChars (Text.utf8Lossy (percentDecode cs)))
    let parts := splitAt (· == '.') name
    if name.isEmpty || name.any isForbidden then none
    else if endsInNumber parts then fourNumbers? parts
    else some (String.ofList name)

/-- The written form of the host of another URL. -/
def otherHost? (cs : List Char) : Option String :=
  match cs with
  | '[' :: rest => bracketHost? rest
  | cs =>
    if cs.any fun c => isForbidden c && isPlain c && c != '%' then none
    else some (String.ofList (percentEncode isPlain cs))

end QueryPlayground.Url
