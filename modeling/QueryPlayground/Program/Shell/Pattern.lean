import QueryPlayground.Program.Octets

/-!
# Patterns of the shell

A pattern matches a text. A star stands for any text, a question mark for any character, brackets for
a character of a set; what is quoted stands for itself.
-/

namespace QueryPlayground.Program.Shell

/-- A piece of a pattern. -/
inductive Glob where
  | char (c : Char)
  /-- Any character. -/
  | any
  /-- Any text. -/
  | star
  /-- A character in one of the ranges, or in none. -/
  | set (negated : Bool) (ranges : List (Char × Char))
  deriving DecidableEq, Repr

namespace Glob

/-- The ranges of a set up to its bracket, and the number of characters that they take. -/
def ranges : Bool → List (Char × Bool) → Option (List (Char × Char) × Nat)
  | _, [] => none
  | first, (c, q) :: cs =>
    if c = ']' && !q && !first then some ([], 1)
    else
      match cs with
      | ('-', false) :: (d, r) :: cs =>
        if d = ']' && !r then (ranges false (('-', false) :: (d, r) :: cs)).map fun (rs, n) => ((c, c) :: rs, n + 1)
        else (ranges false cs).map fun (rs, n) => ((c, d) :: rs, n + 3)
      | cs => (ranges false cs).map fun (rs, n) => ((c, c) :: rs, n + 1)

/-- The set at the start of a text behind a bracket, and the number of characters that it takes. -/
def set? (cs : List (Char × Bool)) : Option (Glob × Nat) :=
  match cs with
  | ('!', false) :: rest => (ranges true rest).map fun (rs, n) => (.set true rs, n + 1)
  | ('^', false) :: rest => (ranges true rest).map fun (rs, n) => (.set true rs, n + 1)
  | rest => (ranges true rest).map fun (rs, n) => (.set false rs, n)

/-- The pieces of a pattern, given as characters with whether they are quoted, after so many that are
used up. -/
def compile : Nat → List (Char × Bool) → List Glob
  | _, [] => []
  | used + 1, _ :: cs => compile used cs
  | 0, (c, quoted) :: cs =>
    if quoted then .char c :: compile 0 cs
    else if c = '*' then .star :: compile 0 cs
    else if c = '?' then .any :: compile 0 cs
    else if c = '[' then
      match set? cs with
      | some (g, n) => g :: compile n cs
      | none => .char c :: compile 0 cs
    else .char c :: compile 0 cs

/-- Whether a character belongs to a piece for one character. -/
def takes (g : Glob) (c : Char) : Bool :=
  match g with
  | char d => c == d
  | any => true
  | star => false
  | set negated rs => negated != rs.any fun (a, b) => a ≤ c && c ≤ b

/-- The results of a function on a text and on each of its ends. -/
def onEnds (f : Octets → Bool) : Octets → Bool
  | [] => f []
  | c :: cs => f (c :: cs) || onEnds f cs

/-- Whether pieces match a text. -/
def isMatch : List Glob → Octets → Bool
  | [], cs => cs.isEmpty
  | .star :: gs, cs => onEnds (isMatch gs) cs
  | g :: gs, c :: cs => g.takes c && isMatch gs cs
  | _ :: _, [] => false

/-- A text without what pieces match at its start. -/
def cutStart (gs : List Glob) (longest : Bool) (cs : Octets) : Octets :=
  let lengths := List.range (cs.length + 1)
  let lengths := if longest then lengths.reverse else lengths
  match lengths.find? fun n => isMatch gs (cs.take n) with
  | some n => cs.drop n
  | none => cs

/-- A text without what pieces match at its end. -/
def cutEnd (gs : List Glob) (longest : Bool) (cs : Octets) : Octets :=
  let lengths := List.range (cs.length + 1)
  let lengths := if longest then lengths else lengths.reverse
  match lengths.find? fun n => isMatch gs (cs.drop n) with
  | some n => cs.take n
  | none => cs

end Glob

end QueryPlayground.Program.Shell
