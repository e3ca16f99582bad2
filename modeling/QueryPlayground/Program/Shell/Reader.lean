import QueryPlayground.Program.Shell.Token

/-!
# Reading scripts

A script is read command by command: `Reader.next` gives the next complete command of a script and
the place behind it. Words hold commands, so words and commands are read by one recursion; its fuel is
in proportion to the length of the script.
-/

namespace QueryPlayground.Program.Shell

/-! ## §1 Where words end -/

/-- Where a word or a part of one ends. -/
inductive Limit where
  /-- Before a blank or an operator. -/
  | word
  /-- Behind a double quote. -/
  | doubleQuote
  /-- Behind a brace; the word stands in double quotes or not. -/
  | brace (quoted : Bool)
  /-- Behind two parentheses, with so many others open. -/
  | parentheses (depth : Nat)
  /-- At the end of the text. -/
  | text
  deriving DecidableEq

/-- The character that starts a substitution in the old form. -/
def backquote : Char := Char.ofNat 96

/-- Whether characters up to a limit are quoted. -/
def Limit.isQuoted : Limit → Bool
  | word => false
  | brace quoted => quoted
  | _ => true

def endsWord (c : Char) : Bool :=
  " \t\n;&|<>()".toList.contains c

/-- Whether a backslash takes the meaning from a character up to a limit. -/
def Limit.escapes (limit : Limit) (c : Char) : Bool :=
  c = '$' || c = backquote || c = '\\' || (c = '"' && limit != .text) ||
    (c = '\x7d' && limit == .brace true)

/-- Whether a character names a special parameter. -/
def isSpecial (c : Char) : Bool :=
  "@*#?-$!0123456789".toList.contains c

/-- A text in the old form of a substitution without its backslashes, up to the end, and the rest. -/
def splitBackquote (quoted : Bool) : Octets → Option (Octets × Octets)
  | [] => none
  | [c] => if c = backquote then some ([], []) else none
  | c :: d :: cs =>
    if c = backquote then some ([], d :: cs)
    else if c = '\\' then
      let drops := d = '$' || d = backquote || d = '\\' || (quoted && d = '"')
      (splitBackquote quoted cs).map fun (text, rest) =>
        (if drops then d :: text else c :: d :: text, rest)
    else (splitBackquote quoted (d :: cs)).map fun (text, rest) => (c :: text, rest)

/-- The characters of a text, all quoted. -/
def allQuoted (cs : Octets) : Word :=
  cs.map fun c => .char c true

/-- The name of a command that cannot be a function. -/
def isSpecialCommand (name : Octets) : Bool :=
  [".", ":", "break", "continue", "eval", "exec", "exit", "export", "readonly", "return", "set", "shift",
    "times", "trap", "unset"].contains (String.ofList name)

def Command.followedBy (first second : Command) : Command :=
  match first with
  | .nothing => second
  | _ => .sequence first second

/-! ## §2 Words and commands -/

mutual

def readParts : Nat → Limit → Reads Word
  | 0, _ => reject "too deep"
  | fuel + 1, limit => do
    match ← peekChar with
    | none =>
      match limit with
      | .word | .text => return []
      | .doubleQuote => reject "Unterminated quoted string"
      | .brace _ => reject "Missing '\x7d'"
      | .parentheses _ => reject "Missing '))'"
    | some c =>
      if limit = .word && endsWord c then return []
      else
        let _ ← takeChar
        if c = '\\' then
          match ← takeRaw with
          | none => return [.char '\\' limit.isQuoted]
          | some d =>
            let parts : Word :=
              if !limit.isQuoted || limit.escapes d then [.char d true]
              else [.char '\\' true, .char d true]
            return parts ++ (← readParts fuel limit)
        else if c = '$' then
          return (← readDollar fuel limit.isQuoted) ++ (← readParts fuel limit)
        else if c = backquote then
          return (← readBackquote fuel limit.isQuoted) ++ (← readParts fuel limit)
        else if c = '\'' && !limit.isQuoted then
          let text ← takeWhileChar (· ≠ '\'')
          modify fun r => { r with line := r.line + text.count '\n' }
          if (← takeRaw).isNone then reject "Unterminated quoted string"
          return (if text.isEmpty then [.quotes] else allQuoted text) ++ (← readParts fuel limit)
        else if c = '"' then
          match limit with
          | .doubleQuote => return []
          | .text | .parentheses _ => return .char c true :: (← readParts fuel limit)
          | .word | .brace _ =>
            let text ← readParts fuel .doubleQuote
            return (if text.isEmpty then [.quotes] else text) ++ (← readParts fuel limit)
        else
          match limit with
          | .brace _ =>
            if c = '\x7d' then return []
            else return .char c limit.isQuoted :: (← readParts fuel limit)
          | .parentheses depth =>
            if c = '(' then return .char c true :: (← readParts fuel (.parentheses (depth + 1)))
            else if c = ')' then
              if depth = 0 then
                if ← takeIf ')' then return []
                else return .char c true :: (← readParts fuel limit)
              else return .char c true :: (← readParts fuel (.parentheses (depth - 1)))
            else return .char c true :: (← readParts fuel limit)
          | _ => return .char c limit.isQuoted :: (← readParts fuel limit)

/-- Reads what stands behind a dollar sign. -/
def readDollar : Nat → Bool → Reads Word
  | 0, _ => reject "too deep"
  | fuel + 1, quoted => do
    match ← peekChar with
    | none => return [.char '$' quoted]
    | some c =>
      if c = '(' then
        let _ ← takeChar
        if ← takeIf '(' then return [.arithmetic (← readParts fuel (.parentheses 0)) quoted]
        else
          let outer ← get
          set { outer with again := false }
          let body ← readList fuel false true .nothing
          let t ← readToken fuel false false
          if !t.isOperator ")" then unexpected (some (.operator ")"))
          modify fun r => { r with last := outer.last, again := outer.again }
          return [.output body quoted]
      else if c = '\x7b' then
        let _ ← takeChar
        readBraced fuel quoted
      else if startsName c then
        return [.parameter (← takeWhileChar continuesName) .keep quoted]
      else if isSpecial c then
        let _ ← takeChar
        return [.parameter [c] .keep quoted]
      else return [.char '$' quoted]

/-- Reads what stands in braces behind a dollar sign. -/
def readBraced : Nat → Bool → Reads Word
  | 0, _ => reject "too deep"
  | fuel + 1, quoted => do
    let meaningless : Reads Word := do
      let _ ← readParts fuel (.brace quoted)
      return [.meaningless]
    let named (fuel : Nat) : Reads (Option Octets) := do
      match ← peekChar with
      | none => return none
      | some c =>
        if startsName c then return some (← takeWhileChar continuesName)
        else if c.isDigit then return some (← takeWhileChar Char.isDigit)
        else if isSpecial c && 0 < fuel then
          let _ ← takeChar
          return some [c]
        else return none
    let r ← get
    let isLength := match r.rest with
      | '#' :: c :: d :: _ => c ≠ '\x7d' && (startsName c || c.isDigit || (isSpecial c && d = '\x7d'))
      | _ => false
    if isLength then
      let _ ← takeChar
      match ← named 1 with
      | some name =>
        if ← takeIf '\x7d' then return [.parameter name .length quoted] else meaningless
      | none => meaningless
    else
      match ← named 1 with
      | none => meaningless
      | some name =>
        let filled ← takeIf ':'
        match ← peekChar with
        | none => reject "Missing '\x7d'"
        | some c =>
          if c = '\x7d' then
            let _ ← takeChar
            if filled then
              let _ ← readParts fuel (.brace quoted)
            return [.parameter name .keep quoted]
          else if c = '-' || c = '=' || c = '?' || c = '+' then
            let _ ← takeChar
            let word ← readParts fuel (.brace quoted)
            let change : Change :=
              if c = '-' then .orElse filled word
              else if c = '=' then .assign filled word
              else if c = '?' then .require filled word
              else .instead filled word
            return [.parameter name change quoted]
          else if (c = '%' || c = '#') && !filled then
            let _ ← takeChar
            let longest ← takeIf c
            let pattern ← readParts fuel (.brace false)
            return [.parameter name (.cut (c = '%') longest pattern) quoted]
          else meaningless

/-- Reads the old form of a substitution. -/
def readBackquote : Nat → Bool → Reads Word
  | 0, _ => reject "too deep"
  | fuel + 1, quoted => do
    let r ← get
    match splitBackquote quoted r.rest with
    | none => reject "EOF in backquote substitution"
    | some (text, rest) =>
      set (Reader.start text 1)
      let body ← readList fuel false true .nothing
      let t ← readToken fuel false false
      match t with
      | .finish =>
        set { r with
          rest := rest
          line := r.line + (r.rest.take (r.rest.length - rest.length)).count '\n' }
        return [.output body quoted]
      | _ => unexpected none

/-- Reads a token; `overLines` skips line breaks, and `reserved` looks for reserved words. -/
def readToken : Nat → Bool → Bool → Reads Token
  | 0, _, _ => reject "too deep"
  | fuel + 1, overLines, reserved => do
    let r ← get
    let t ← if r.again then
        (do
          set { r with again := false }
          return r.last)
      else scanToken fuel
    match overLines, t with
    | true, .newline => readToken fuel overLines reserved
    | _, _ =>
      let t := if reserved then t.withReserved else t
      modify fun r => { r with last := t }
      return t

def scanToken : Nat → Reads Token
  | 0 => reject "too deep"
  | fuel + 1 => do
    match ← peekChar with
    | none => return .finish
    | some c =>
      if c = ' ' || c = '\t' then
        let _ ← takeChar
        scanToken fuel
      else if c = '#' then
        let _ ← takeWhileChar (· ≠ '\n')
        scanToken fuel
      else if c = '\n' then
        let _ ← takeChar
        return .newline
      else if c = '(' || c = ')' then
        let _ ← takeChar
        return .operator (String.ofList [c])
      else if c = '&' || c = '|' || c = ';' then
        let _ ← takeChar
        if ← takeIf c then return .operator (String.ofList [c, c])
        else return .operator (String.ofList [c])
      else if c = '<' || c = '>' then readRedirection fuel none
      else
        let w ← readParts fuel .word
        match w, (← get).rest.head? with
        | [.char d false], some e =>
          if d.isDigit && (e = '<' || e = '>') then readRedirection fuel (some (d.toNat - 48))
          else return .word w
        | _, _ => return .word w

/-- Reads a redirection with its target. -/
def readRedirection : Nat → Option Nat → Reads Token
  | 0, _ => reject "too deep"
  | fuel + 1, descriptor => do
    let outward := (← takeChar) = some '>'
    let outer ← get
    let arrow ← readArrow outward
    modify fun r => { r with again := false }
    let target ← readToken fuel false false
    let w ← match target with
      | .word w => pure w
      | _ => unexpected none
    let descriptor := descriptor.getD (if outward then 1 else 0)
    let r ← match arrow with
      | .to .duplicate =>
        if w.plain?.all fun cs => cs.length = 1 && cs.all fun c => c.isDigit || c = '-' then
          pure (Redirection.mk descriptor .duplicate w)
        else reject "Bad fd number"
      | .to d => pure (Redirection.mk descriptor d w)
      | .document strip => readDocument fuel descriptor w strip
    modify fun r => { r with last := outer.last, again := false }
    return .redirection r

/-- Reads the text that is redirected to a descriptor, behind the word that ends it. -/
def readDocument : Nat → Nat → Word → Bool → Reads Redirection
  | 0, _, _, _ => reject "too deep"
  | fuel + 1, descriptor, ending, strip => do
    let text ← takeDocument ending.spelled strip
    if ending.isQuoted then return .mk descriptor .document (allQuoted text)
    else
      let r ← get
      set (Reader.start text r.line)
      let body ← readParts fuel .text
      set r
      return .mk descriptor .document body

/-- Reads commands with separators between them. At the top a line break ends them; inside, a closing
word does, which must not come first unless `mayEnd`. -/
def readList : Nat → Bool → Bool → Command → Reads Command
  | 0, _, _, _ => reject "too deep"
  | fuel + 1, top, mayEnd, before => do
    let t ← readToken fuel (!top) true
    match t with
    | .newline => return before
    | .finish =>
      putBack
      return before
    | _ =>
      putBack
      if !top && mayEnd && t.endsList then return before
      let c ← readAndOr fuel
      let t ← readToken fuel false false
      let c := if t.isOperator "&" then .background c else c
      let all := before.followedBy c
      match t with
      | .finish =>
        putBack
        return all
      | .newline =>
        putBack
        readList fuel top true all
      | _ =>
        if t.isOperator "&" || t.isOperator ";" then readList fuel top true all
        else if top then unexpected none
        else
          putBack
          return all

/-- Reads pipelines that are joined by conditions. -/
def readAndOr : Nat → Reads Command
  | 0 => reject "too deep"
  | fuel + 1 => do
    let first ← readPipeline fuel true
    readConditions fuel first

/-- Reads what follows under conditions. -/
def readConditions : Nat → Command → Reads Command
  | 0, _ => reject "too deep"
  | fuel + 1, first => do
    let t ← readToken fuel false false
    if t.isOperator "&&" then
      let second ← readPipeline fuel false
      readConditions fuel (.andThen first second)
    else if t.isOperator "||" then
      let second ← readPipeline fuel false
      readConditions fuel (.orElse first second)
    else
      putBack
      return first

/-- Reads a pipeline; behind an operator it may stand on a new line. -/
def readPipeline : Nat → Bool → Reads Command
  | 0, _ => reject "too deep"
  | fuel + 1, atStart => do
    let t ← readToken fuel (!atStart) (!atStart)
    let negated := t.isReserved "!"
    if negated then
      let _ ← readToken fuel false true
    putBack
    let first ← readCommand fuel
    let all ← readPipes fuel [first]
    let c := match all with
      | [c] => c
      | cs => .pipeline cs
    return if negated then .negated c else c

/-- Reads the commands behind bars; the ones before come last first. -/
def readPipes : Nat → List Command → Reads (List Command)
  | 0, _ => reject "too deep"
  | fuel + 1, before => do
    let t ← readToken fuel false false
    if t.isOperator "|" then
      let _ ← readToken fuel true true
      putBack
      let c ← readCommand fuel
      readPipes fuel (c :: before)
    else
      putBack
      return before.reverse

def readCommand : Nat → Reads Command
  | 0 => reject "too deep"
  | fuel + 1 => do
    let line := (← get).line
    let t ← readToken fuel false false
    match t with
    | .word _ | .redirection _ =>
      putBack
      readSimple fuel line [] [] [] true
    | .operator "(" =>
      let body ← readList fuel false false .nothing
      expect fuel (.operator ")")
      let rs ← readRedirections fuel
      return .subshell line body rs
    | .reserved word =>
      let body ← readCompound fuel line word
      let rs ← readRedirections fuel
      return if rs.isEmpty then body else .redirected line body rs
    | _ => unexpected none

/-- Reads the token that must come. -/
def expect : Nat → Token → Reads Unit
  | 0, _ => reject "too deep"
  | fuel + 1, wanted => do
    let t ← readToken fuel false true
    if t.describe != wanted.describe then unexpected (some wanted)

/-- Reads the redirections behind a command. -/
def readRedirections : Nat → Reads (List Redirection)
  | 0 => reject "too deep"
  | fuel + 1 => do
    match ← readToken fuel false true with
    | .redirection r => return r :: (← readRedirections fuel)
    | _ =>
      putBack
      return []

/-- Reads what follows a reserved word that starts a command. -/
def readCompound : Nat → Nat → String → Reads Command
  | 0, _, _ => reject "too deep"
  | fuel + 1, line, word => do
    match word with
    | "\x7b" =>
      let body ← readList fuel false false .nothing
      expect fuel (.reserved "\x7d")
      return body
    | "if" => readChoice fuel
    | "while" | "until" =>
      let condition ← readList fuel false false .nothing
      expect fuel (.reserved "do")
      let body ← readList fuel false false .nothing
      expect fuel (.reserved "done")
      return .loop (word == "while") condition body
    | "for" =>
      let name ← match ← readToken fuel false false with
        | .word w => (match w.plain?.filter isName with
          | some name => pure name
          | none => reject "Bad for loop variable")
        | _ => reject "Bad for loop variable"
      let t ← readToken fuel true true
      let words ←
        if t.isReserved "in" then
          (do
            let words ← readWords fuel
            match (← get).last with
            | .newline => pure ()
            | t => if !t.isOperator ";" then unexpected none
            return some words)
        else
          (do
            if !t.isOperator ";" then putBack
            return none)
      let t ← readToken fuel true true
      if !t.isReserved "do" then unexpected (some (.reserved "do"))
      let body ← readList fuel false false .nothing
      expect fuel (.reserved "done")
      return .each line name words body
    | "case" =>
      let w ← match ← readToken fuel false false with
        | .word w => pure w
        | _ => unexpected (some (.word []))
      let t ← readToken fuel true true
      if !t.isReserved "in" then unexpected (some (.reserved "in"))
      return .select line w (← readClauses fuel)
    | _ => unexpected none

/-- Reads words up to a token that is none. -/
def readWords : Nat → Reads (List Word)
  | 0 => reject "too deep"
  | fuel + 1 => do
    match ← readToken fuel false false with
    | .word w => return w :: (← readWords fuel)
    | _ => return []

/-- Reads a choice behind its first word. -/
def readChoice : Nat → Reads Command
  | 0 => reject "too deep"
  | fuel + 1 => do
    let condition ← readList fuel false false .nothing
    expect fuel (.reserved "then")
    let yes ← readList fuel false false .nothing
    let t ← readToken fuel false true
    if t.isReserved "elif" then return .choose condition yes (← readChoice fuel)
    else
      let no ← if t.isReserved "else" then readList fuel false false .nothing
        else
          (do
            putBack
            return .nothing)
      expect fuel (.reserved "fi")
      return .choose condition yes no

/-- Reads the clauses of a choice by patterns, with the word that ends them. -/
def readClauses : Nat → Reads (List (List Word × Command))
  | 0 => reject "too deep"
  | fuel + 1 => do
    let t ← readToken fuel true true
    if t.isReserved "esac" then return []
    else
      let t ← if t.isOperator "(" then readToken fuel false false else pure t
      let patterns ← readPatterns fuel t
      let body ← readList fuel false true .nothing
      let t ← readToken fuel true true
      if t.isReserved "esac" then return [(patterns, body)]
      else if t.isOperator ";;" then return (patterns, body) :: (← readClauses fuel)
      else unexpected (some (.operator ";;"))

/-- Reads patterns with bars between them, up to a parenthesis. -/
def readPatterns : Nat → Token → Reads (List Word)
  | 0, _ => reject "too deep"
  | fuel + 1, t => do
    let pattern : Word := match t with
      | .word w => w
      | .reserved text => text.toList.map fun c => .char c false
      | _ => []
    let t ← readToken fuel false false
    if t.isOperator "|" then
      let t ← readToken fuel false false
      return pattern :: (← readPatterns fuel t)
    else if t.isOperator ")" then return [pattern]
    else unexpected (some (.operator ")"))

/-- Reads the words of a simple command; what was read before comes last first. -/
def readSimple :
    Nat → Nat → List (Octets × Word) → List Word → List Redirection → Bool → Reads Command
  | 0, _, _, _, _, _ => reject "too deep"
  | fuel + 1, line, assignments, words, redirections, maybeAssignment => do
    let t ← readToken fuel false false
    match t with
    | .word w =>
      match if maybeAssignment then assignment? w else none with
      | some a => readSimple fuel line (a :: assignments) words redirections true
      | none => readSimple fuel line assignments (w :: words) redirections false
    | .redirection r =>
      readSimple fuel line assignments words (r :: redirections) maybeAssignment
    | _ =>
      match words with
      | [w] =>
        if t.isOperator "(" && assignments.isEmpty && redirections.isEmpty then
          let t ← readToken fuel false false
          if !t.isOperator ")" then unexpected (some (.operator ")"))
          match w.plain?.filter fun name => isName name && !isSpecialCommand name with
          | none => reject "Bad function name"
          | some name =>
            let _ ← readToken fuel true true
            putBack
            return .define name (← readCommand fuel)
        else
          putBack
          return .simple line assignments.reverse [w] redirections.reverse
      | _ =>
        putBack
        return .simple line assignments.reverse words.reverse redirections.reverse

end

/-! ## §3 Scripts -/

/-- Fuel for reading so many characters. -/
def readingFuel (length : Nat) : Nat :=
  12 * length + 100

/-- The next command of a script, and the place behind it; nothing at the end. -/
def Reader.next (r : Reader) : Except Failure (Option (Command × Reader)) :=
  let r := { r with again := false, last := .newline }
  match (readList (readingFuel r.rest.length) true false .nothing).run r with
  | .error e => .error e
  | .ok (c, after) =>
    match c, after.last with
    | .nothing, .finish => .ok none
    | _, _ => .ok (some (c, after))

end QueryPlayground.Program.Shell
