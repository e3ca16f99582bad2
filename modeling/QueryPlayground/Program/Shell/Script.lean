import QueryPlayground.Program.Octets

/-!
# Scripts of the shell

A script is made of commands, and a command of words. The parts of a word are characters, each quoted
or not, and expansions, of which some hold words and commands in turn.
-/

namespace QueryPlayground.Program.Shell

/-- How a descriptor is redirected. -/
inductive Direction where
  /-- To a file that is read. -/
  | input
  /-- To a file that is written anew. -/
  | output
  /-- To a file that is written at its end. -/
  | append
  /-- To a file that is read and written. -/
  | both
  /-- To where another descriptor leads, or to nothing. -/
  | duplicate
  /-- To a text in the script. -/
  | document
  deriving DecidableEq, Repr

mutual

/-- A part of a word. -/
inductive Part where
  | char (c : Char) (quoted : Bool)
  /-- Quotes with nothing between them. -/
  | quotes
  /-- The value of a parameter, changed. -/
  | parameter (name : Octets) (change : Change) (quoted : Bool)
  /-- The value of an arithmetic expression. -/
  | arithmetic (body : List Part) (quoted : Bool)
  | output (body : Command) (quoted : Bool)
  /-- An expansion without a meaning. -/
  | meaningless

/-- What is made of the value of a parameter. -/
inductive Change where
  /-- Nothing. -/
  | keep
  | length
  /-- A word if it is not set; `filled` counts an empty value as not set. -/
  | orElse (filled : Bool) (word : List Part)
  /-- The same, and the word becomes the value. -/
  | assign (filled : Bool) (word : List Part)
  /-- An error if it is not set. -/
  | require (filled : Bool) (word : List Part)
  /-- A word if it is set. -/
  | instead (filled : Bool) (word : List Part)
  /-- The value without what a pattern matches at one end. -/
  | cut (atEnd longest : Bool) (pattern : List Part)

/-- A redirection of a descriptor. -/
inductive Redirection where
  | mk (descriptor : Nat) (direction : Direction) (target : List Part)

inductive Command where
  | nothing
  /-- Assignments and words, with redirections. -/
  | simple (line : Nat) (assignments : List (Octets × List Part)) (words : List (List Part))
      (redirections : List Redirection)
  /-- Commands of which each reads what the one before it writes. -/
  | pipeline (commands : List Command)
  /-- A command of which the status is negated. -/
  | negated (body : Command)
  /-- The second command follows if the first one was successful. -/
  | andThen (first second : Command)
  /-- The second command follows if the first one was not successful. -/
  | orElse (first second : Command)
  /-- One command after the other. -/
  | sequence (first second : Command)
  /-- A command that is not waited for. -/
  | background (body : Command)
  | redirected (line : Nat) (body : Command) (redirections : List Redirection)
  /-- A command in a shell of its own. -/
  | subshell (line : Nat) (body : Command) (redirections : List Redirection)
  /-- A choice by the status of a command. -/
  | choose (condition yes no : Command)
  /-- A command that is repeated while a condition has the wanted success. -/
  | loop (wanted : Bool) (condition body : Command)
  /-- A command for each word, or for each argument. -/
  | each (line : Nat) (name : Octets) (words : Option (List (List Part))) (body : Command)
  /-- A choice by patterns. -/
  | select (line : Nat) (word : List Part) (clauses : List (List (List Part) × Command))
  /-- The definition of a function. -/
  | define (name : Octets) (body : Command)

end

instance : Inhabited Part := ⟨.meaningless⟩

instance : Inhabited Command := ⟨.nothing⟩

abbrev Word := List Part

namespace Word

/-- The characters of a word that has no quotes and no expansions. -/
def plain? (w : Word) : Option Octets :=
  w.mapM fun p => match p with
    | .char c false => some c
    | _ => none

/-- Whether any part of a word is quoted. -/
def isQuoted (w : Word) : Bool :=
  w.any fun p => match p with
    | .char _ q => q
    | .quotes => true
    | .parameter _ _ q => q
    | .arithmetic _ q => q
    | .output _ q => q
    | .meaningless => false

/-- The characters of a word as it is written, without its quotes. -/
def spelled (w : Word) : Octets :=
  w.filterMap fun p => match p with
    | .char c _ => some c
    | _ => none

end Word

/-! ## §2 Names -/

def startsName (c : Char) : Bool :=
  c.isAlpha || c = '_'

/-- Whether a name can go on with a character. -/
def continuesName (c : Char) : Bool :=
  c.isAlphanum || c = '_'

/-- Whether a text is a name. -/
def isName (cs : Octets) : Bool :=
  cs.head?.any startsName && cs.all continuesName

/-- The name and the value of a word that is an assignment. -/
def assignment? (w : Word) : Option (Octets × Word) :=
  let isEquals (p : Part) : Bool := match p with
    | .char '=' false => true
    | _ => false
  match w.dropWhile (!isEquals ·) with
  | _ :: value => ((Word.plain? (w.takeWhile (!isEquals ·))).filter isName).map fun name => (name, value)
  | [] => none

end QueryPlayground.Program.Shell
