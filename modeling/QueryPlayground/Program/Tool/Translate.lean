import QueryPlayground.Program.Escape
import QueryPlayground.Program.Tool.Options

/-!
# Translating characters

`tr` replaces, deletes or squeezes the characters of a set. A set is written as its members, with
ranges, classes and escapes.
-/

namespace QueryPlayground.Program.Translate

/-! ## §1 Sets -/

/-- The escapes in a set. -/
def escapes : EscapeRules :=
  ⟨false, false, false, false, false⟩

def allBytes : Octets :=
  (List.range 256).map Char.ofNat

/-- The members of a class. -/
def class? (name : Octets) : Option Octets :=
  let members (p : Char → Bool) : Option Octets := some (allBytes.filter p)
  match Octets.toText name with
  | "alnum" => members Char.isAlphanum
  | "alpha" => members Char.isAlpha
  | "blank" => members fun c => c = ' ' || c = '\t'
  | "cntrl" => members fun c => c.toNat < 32 || c.toNat = 127
  | "digit" => members Char.isDigit
  | "graph" => members fun c => Octets.isPrinted c && c ≠ ' '
  | "lower" => members Char.isLower
  | "print" => members Octets.isPrinted
  | "punct" => members fun c => Octets.isPrinted c && c ≠ ' ' && !c.isAlphanum
  | "space" => members Octets.isSpace
  | "upper" => members Char.isUpper
  | "xdigit" => members (Octets.isDigitOf 16)
  | _ => none

/-- The characters of a range. -/
def range (a b : Char) : Octets :=
  (List.range (b.toNat + 1 - a.toNat)).map fun k => Char.ofNat (a.toNat + k)

/-- A character of a set, where an escape stands for one character, and the rest. -/
def character (cs : Octets) : Option (Char × Octets) :=
  match cs with
  | [] => none
  | '\\' :: rest =>
    match escapes.next rest with
    | .text [c] used => some (c, rest.drop used)
    | .text (_ :: c :: _) used => some (c, rest.drop used)
    | _ => some ('\\', rest)
  | c :: rest => some (c, rest)

/-- The members of a set in order; the fuel is the length of the text. -/
def members : Nat → Octets → Except Octets Octets
  | 0, _ => .ok []
  | fuel + 1, cs =>
    let name := (cs.drop 2).takeWhile (· ≠ ':')
    let afterName := (cs.drop 2).dropWhile (· ≠ ':')
    if cs.take 2 == ['[', ':'] && afterName.take 2 == [':', ']'] then
      match class? name with
      | some found => do return found ++ (← members fuel (afterName.drop 2))
      | none => .error ("invalid character class ".toList ++ Octets.quoted name)
    else
      match character cs with
      | none => .ok []
      | some (a, '-' :: rest) =>
        match character rest with
        | none => .ok [a, '-']
        | some (b, rest) =>
          if b < a then
            .error ("range-endpoints of ".toList ++ Octets.quoted [a, '-', b] ++
              " are in reverse collating sequence order".toList)
          else do return range a b ++ (← members fuel rest)
      | some (a, rest) => do return a :: (← members fuel rest)

/-! ## §2 The program -/

/-- What is replaced, deleted and squeezed. -/
structure Plan where
  replace : Char → Char
  deletes : Char → Bool
  /-- Whether a repetition of a character is dropped. -/
  squeezes : Char → Bool

/-- The text under a plan, behind a given character. -/
def Plan.apply (p : Plan) : Option Char → Octets → Octets
  | _, [] => []
  | last, c :: cs =>
    if p.deletes c then p.apply last cs
    else
      let d := p.replace c
      if p.squeezes d && last == some d then p.apply last cs else d :: p.apply (some d) cs

/-- The plan of options and sets. -/
def plan (a : Arguments) (first : Octets) (second : Option Octets) : Plan :=
  let complement := a.has 'c' || a.has 'C'
  let source := if complement then allBytes.filter (!first.contains ·) else first
  let isIn : Char → Bool := source.contains
  if a.has 'd' then
    ⟨id, isIn, fun c => a.has 's' && (second.getD []).contains c⟩
  else
    match second with
    | none => ⟨id, fun _ => false, isIn⟩
    | some target =>
      let final := target.getLastD ' '
      let pairs := (source.zip (target ++ List.replicate (source.length - target.length) final)).reverse
      ⟨fun c => (pairs.lookup c).getD c, fun _ => false, fun c => a.has 's' && target.contains c⟩

/-- The options. -/
def options : OptionRules :=
  { letters := "cCdst".toList.map fun c => (c, false)
    names := [("complement", 'c'), ("delete", 'd'), ("squeeze-repeats", 's'), ("truncate-set1", 't')] }

/-- The program `tr`. -/
def run (name : Octets) (args : List Octets) : Task Finish := do
  match options.arguments args with
  | .error message => misused name message
  | .ok a =>
    let go (first : Octets) (second : Option Octets) : Task Finish := do
      let sets : Except Octets (Octets × Option Octets) := do
        let one ← members first.length first
        match second with
        | none => return (one, none)
        | some second => return (one, some (← members second.length second))
      match sets with
      | .error message =>
        complainAs name message
        finish 1
      | .ok (_, some []) =>
        complainAs name "when not truncating set1, string2 must be non-empty".toList
        finish 1
      | .ok (one, two) =>
        match ← streamOf 0 with
        | none =>
          complainAs name "read error: Bad file descriptor".toList
          finish 1
        | some i =>
          match ← takeAll i with
          | .error .noEnd => return none
          | .error problem =>
            complainAs name ("read error: ".toList ++ problem.message.toList)
            finish 1
          | .ok text => conclude name ((plan a one two).apply none text) 0
    if a.asksAbout then usage name
    else
      match a.operands with
      | [] => misused name "missing operand".toList
      | [first] =>
        if a.has 'd' || a.has 's' then go first none
        else
          misused name ("missing operand after ".toList ++ Octets.quoted first ++
            "\nTwo strings must be given when translating.".toList)
      | [first, second] => go first (some second)
      | _ :: _ :: extra :: _ => misused name ("extra operand ".toList ++ Octets.quoted extra)

end QueryPlayground.Program.Translate
