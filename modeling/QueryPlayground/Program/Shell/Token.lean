import QueryPlayground.Program.Shell.Script

/-!
# Tokens of the shell

A token is an operator, a redirection, a word or a reserved word. `Reader` is a place in a script;
the last token can be put back. What is wrong with a script is said with the line.
-/

namespace QueryPlayground.Program.Shell

/-! ## §1 Tokens -/

inductive Token where
  /-- The end of the script. -/
  | finish
  /-- The end of a line. -/
  | newline
  /-- An operator of one or two characters. -/
  | operator (text : String)
  | redirection (r : Redirection)
  | word (w : Word)
  /-- A reserved word. -/
  | reserved (text : String)
  deriving Inhabited

def reservedWords : List String :=
  ["!", "case", "do", "done", "elif", "else", "esac", "fi", "for", "if", "in", "then", "until", "while",
    "\x7b", "\x7d"]

/-- The reserved words that end a list of commands. -/
def closingWords : List String :=
  ["do", "done", "elif", "else", "esac", "fi", "then", "\x7d"]

namespace Token

/-- A token in a message. -/
def describe : Token → String
  | finish => "end of file"
  | newline => "newline"
  | operator text => "\"" ++ text ++ "\""
  | redirection _ => "redirection"
  | word _ => "word"
  | reserved text => "\"" ++ text ++ "\""

def isOperator (t : Token) (text : String) : Bool :=
  match t with
  | operator s => s == text
  | _ => false

/-- Whether a token is a reserved word. -/
def isReserved (t : Token) (text : String) : Bool :=
  match t with
  | reserved s => s == text
  | _ => false

/-- Whether a token ends a list of commands. -/
def endsList : Token → Bool
  | finish => true
  | operator s => s == ")" || s == ";;"
  | reserved s => closingWords.contains s
  | _ => false

/-- A word as the reserved word that it spells. -/
def withReserved (t : Token) : Token :=
  match t with
  | word w =>
    match (w.plain?.map String.ofList).filter reservedWords.contains with
    | some text => reserved text
    | none => t
  | _ => t

end Token

/-! ## §2 Places in a script -/

/-- What is wrong with a script. -/
structure Failure where
  line : Nat
  /-- What is wrong. -/
  message : String

/-- A place in a script. -/
structure Reader where
  /-- What is not read yet. -/
  rest : Octets
  line : Nat
  last : Token
  /-- Whether the last token is to be read again. -/
  again : Bool
  deriving Inhabited

/-- The beginning of a script. -/
def Reader.start (text : Octets) (line : Nat) : Reader :=
  ⟨text, line, .newline, false⟩

/-- A reading of a script. -/
abbrev Reads := StateT Reader (Except Failure)

/-- Gives up on a script. -/
def reject {α : Type} (message : String) : Reads α := do
  throw ⟨(← get).line, "Syntax error: " ++ message⟩

/-- Gives up at the last token; `wanted` is what was expected. -/
def unexpected {α : Type} (wanted : Option Token) : Reads α := do
  reject ((← get).last.describe ++ " unexpected" ++
    wanted.elim "" fun t => " (expecting " ++ t.describe ++ ")")

/-- Puts the last token back. -/
def putBack : Reads Unit :=
  modify fun r => { r with again := true }

/-- Removes the line breaks behind a backslash at the start of a text; the fuel is its length. -/
def skipJoins : Nat → Reader → Reader
  | 0, r => r
  | fuel + 1, r =>
    match r.rest with
    | '\\' :: '\n' :: rest => skipJoins fuel { r with rest := rest, line := r.line + 1 }
    | _ => r

/-- The next character, without taking it. -/
def peekChar : Reads (Option Char) := do
  modify fun r => skipJoins r.rest.length r
  return (← get).rest.head?

def takeChar : Reads (Option Char) := do
  let c ← peekChar
  modify fun r =>
    { r with rest := r.rest.drop 1, line := if c = some '\n' then r.line + 1 else r.line }
  return c

/-- Takes a character as it stands. -/
def takeRaw : Reads (Option Char) :=
  modifyGet fun r =>
    (r.rest.head?,
      { r with
        rest := r.rest.drop 1
        line := if r.rest.head? = some '\n' then r.line + 1 else r.line })

def takeIf (c : Char) : Reads Bool := do
  if (← peekChar) = some c then
    let _ ← takeChar
    return true
  else return false

/-- Takes the characters of a class at the start of what is left. -/
def takeWhileChar (p : Char → Bool) : Reads Octets :=
  modifyGet fun r => (r.rest.takeWhile p, { r with rest := r.rest.dropWhile p })

/-- What a redirection operator asks for. -/
inductive Arrow where
  /-- A direction for a target. -/
  | to (d : Direction)
  /-- A text in the script; whether tabs in front of its lines are dropped. -/
  | document (strip : Bool)

/-- Reads the rest of a redirection operator behind its first character. -/
def readArrow (outward : Bool) : Reads Arrow := do
  if ← takeIf '&' then return .to .duplicate
  if ← takeIf '>' then return .to (if outward then .append else .both)
  if outward then
    let _ ← takeIf '|'
    return .to .output
  if ← takeIf '<' then return .document (← takeIf '-')
  return .to .input

/-! ## §3 Documents in a script -/

/-- Takes a text up to the line that is its end: the text, and what follows. -/
def documentLines (ending : Octets) (strip : Bool) : Nat → Octets → Octets × Octets
  | 0, rest => ([], rest)
  | fuel + 1, rest =>
    if rest.isEmpty then ([], [])
    else
      let line := rest.takeWhile (· ≠ '\n')
      let after := (rest.dropWhile (· ≠ '\n')).drop 1
      let line := if strip then line.dropWhile (· = '\t') else line
      if line == ending then ([], after)
      else
        if rest.contains '\n' then
          let (body, rest) := documentLines ending strip fuel after
          (line ++ '\n' :: body, rest)
        else (line, [])

/-- Takes the text behind the current line out of the script. -/
def takeDocument (ending : Octets) (strip : Bool) : Reads Octets :=
  modifyGet fun r =>
    let line := r.rest.takeWhile (· ≠ '\n')
    let after := (r.rest.dropWhile (· ≠ '\n')).drop 1
    let (body, rest) := documentLines ending strip (after.length + 1) after
    (body, { r with rest := line ++ '\n' :: rest })

end QueryPlayground.Program.Shell
