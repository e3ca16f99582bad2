import QueryPlayground.MachineWord

/-!
# Reading arguments by a grammar

A grammar is a tree of commands, each with options, positional arguments and subcommands. Reading goes
through the arguments once. An option waits for its value, which is checked when the next argument
has begun; so a word that cannot be read at all is reported before a bad value in front of it, and the
arguments of a subcommand before a value that still waits in front of the subcommand.
-/

namespace QueryPlayground.CommandLine

/-! ## §1 Grammars -/

/-- What may be given for an argument. -/
inductive ValueForm where
  | text
  /-- A path, which is not empty. -/
  | path
  /-- A natural number below two to the sixty-four. -/
  | unsigned
  /-- An integer of sixty-four bits. -/
  | signed
  | oneOf (words : List String)
  deriving DecidableEq, Repr

structure OptionRule where
  /-- Its name after two dashes. -/
  name : String
  /-- Its letter after one dash. -/
  letter : Option Char
  /-- The placeholder and the form of its value, if it takes one. -/
  value : Option (String × ValueForm)
  deriving DecidableEq, Repr

structure PositionRule where
  name : String
  placeholder : String
  required : Bool
  form : ValueForm
  deriving DecidableEq, Repr

inductive CommandRule where
  /-- Its name, a line about it, its options, those that have to be given, its positional arguments
  and its subcommands. -/
  | rule (name about : String) (options : List OptionRule) (required : List String)
      (positions : List PositionRule) (subcommands : List CommandRule)
  deriving Repr

namespace CommandRule

def name : CommandRule → String
  | rule name .. => name

def about : CommandRule → String
  | rule _ about .. => about

def options : CommandRule → List OptionRule
  | rule _ _ options .. => options

def required : CommandRule → List String
  | rule _ _ _ required .. => required

def positions : CommandRule → List PositionRule
  | rule _ _ _ _ positions _ => positions

def subcommands : CommandRule → List CommandRule
  | rule _ _ _ _ _ subcommands => subcommands

def subcommand? (c : CommandRule) (name : String) : Option CommandRule :=
  c.subcommands.find? (·.name == name)

def option? (c : CommandRule) (name : String) : Option OptionRule :=
  c.options.find? (·.name == name)

def letter? (c : CommandRule) (letter : Char) : Option OptionRule :=
  c.options.find? (·.letter == some letter)

end CommandRule

/-- An option as messages show it. -/
def OptionRule.label (o : OptionRule) : String :=
  match o.value with
  | some (placeholder, _) => "--" ++ o.name ++ " <" ++ placeholder ++ ">"
  | none => "--" ++ o.name

/-- A positional argument as messages show it. -/
def PositionRule.label (p : PositionRule) : String :=
  if p.required then "<" ++ p.placeholder ++ ">" else "[" ++ p.placeholder ++ "]"

/-! ## §2 Refusals -/

/-- Why arguments are not taken. -/
inductive Refusal where
  /-- A word that fits nowhere. -/
  | unexpectedArgument (word : String)
  /-- A word where a subcommand is due. -/
  | unknownCommand (word : String)
  /-- A value of the wrong form, and what is wrong with it if there is more to say. -/
  | badValue (value label : String) (reason : Option String)
  | missingValue (label : String)
  /-- An argument is given twice. -/
  | repeated (label : String)
  /-- A value for an option that takes none. -/
  | uncalledValue (value label : String)
  | missingArguments
  /-- A subcommand is missing, while something else is given. -/
  | missingCommand (path : String)
  /-- Nothing is given where a subcommand is due; the help begins with a line about the command. -/
  | bare (about : String)
  | help (about : String)
  | version
  deriving DecidableEq, Repr

namespace Refusal

/-- What a user reads first. -/
def message : Refusal → String
  | unexpectedArgument word => "error: unexpected argument '" ++ word ++ "' found"
  | unknownCommand word => "error: unrecognized subcommand '" ++ word ++ "'"
  | badValue value label reason =>
    "error: invalid value '" ++ value ++ "' for '" ++ label ++ "'" ++
      (match reason with
      | some r => ": " ++ r
      | none => "")
  | missingValue label => "error: a value is required for '" ++ label ++ "' but none was supplied"
  | repeated label => "error: the argument '" ++ label ++ "' cannot be used multiple times"
  | uncalledValue value label =>
    "error: unexpected value '" ++ value ++ "' for '" ++ label ++ "' found; no more were expected"
  | missingArguments => "error: the following required arguments were not provided:"
  | missingCommand path =>
    "error: '" ++ path ++ "' requires a subcommand but one was not provided"
  | bare about => about
  | help about => about
  | version => "qplay 0.1.0"

/-- Whether the user gets what was asked for. -/
def isAnswer : Refusal → Bool
  | help _ | version => true
  | _ => false

end Refusal

/-! ## §3 Values -/

/-- Why a text is no number. -/
inductive NumberFault where
  /-- There is nothing. -/
  | empty
  /-- There is something else than digits. -/
  | badDigit
  /-- The number is beyond the greatest one. -/
  | tooLarge
  /-- The number is below the least one. -/
  | tooSmall
  deriving DecidableEq, Repr

def NumberFault.message : NumberFault → String
  | empty => "cannot parse integer from empty string"
  | badDigit => "invalid digit found in string"
  | tooLarge => "number too large to fit in target type"
  | tooSmall => "number too small to fit in target type"

/-- Reads digits up to a bound, beyond which there is another fault. -/
def readDigits (bound : Nat) (beyond : NumberFault) : Nat → List Char → Except NumberFault Nat
  | n, [] => .ok n
  | n, c :: cs =>
    if !c.isDigit then .error .badDigit
    else
      let n := 10 * n + (c.toNat - 48)
      if bound < n then .error beyond else readDigits bound beyond n cs

def readUnsigned (s : String) : Except NumberFault Nat :=
  match s.toList with
  | [] => .error .empty
  | ['+'] => .error .badDigit
  | '+' :: cs => readDigits MachineWord.maxUnsigned .tooLarge 0 cs
  | cs => readDigits MachineWord.maxUnsigned .tooLarge 0 cs

def readSigned (s : String) : Except NumberFault Int :=
  match s.toList with
  | [] => .error .empty
  | ['+'] => .error .badDigit
  | ['-'] => .error .badDigit
  | '+' :: cs => (readDigits (MachineWord.half - 1) .tooLarge 0 cs).map Int.ofNat
  | '-' :: cs => (readDigits MachineWord.half .tooSmall 0 cs).map fun n => -Int.ofNat n
  | cs => (readDigits (MachineWord.half - 1) .tooLarge 0 cs).map Int.ofNat

def ValueForm.check (form : ValueForm) (label value : String) : Except Refusal Unit :=
  match form with
  | .text => .ok ()
  | .path => if value.isEmpty then .error (.missingValue label) else .ok ()
  | .unsigned =>
    match readUnsigned value with
    | .ok _ => .ok ()
    | .error f => .error (.badValue value label (some f.message))
  | .signed =>
    match readSigned value with
    | .ok _ => .ok ()
    | .error f => .error (.badValue value label (some f.message))
  | .oneOf words =>
    if value.isEmpty then .error (.missingValue label)
    else if words.contains value then .ok ()
    else .error (.badValue value label none)

/-! ## §4 The state of reading -/

/-- Names with the values given for them; a flag has an empty one. -/
abbrev Given := List (String × String)

/-- An argument whose value is not checked yet. -/
structure Waiting where
  name : String
  label : String
  form : ValueForm
  /-- The value, once it is there. -/
  value : Option String
  deriving DecidableEq, Repr

/-- How far the arguments of one command are read. -/
structure Reading where
  /-- What is given, latest first. -/
  given : Given
  /-- The argument whose value is not checked yet. -/
  waiting : Option Waiting
  /-- Whether two dashes have made all that follows positional. -/
  positional : Bool
  /-- How many positional arguments are read. -/
  position : Nat
  deriving DecidableEq, Repr

namespace Reading

def start : Reading :=
  ⟨[], none, false, 0⟩

/-- Takes an argument that has its value. -/
def take (r : Reading) (name label value : String) : Except Refusal Reading :=
  if (r.given.lookup name).isSome then .error (.repeated label)
  else .ok { r with given := (name, value) :: r.given }

/-- Checks and takes the argument that waits. -/
def settle (r : Reading) : Except Refusal Reading :=
  match r.waiting with
  | none => .ok r
  | some w =>
    let r := { r with waiting := none }
    match w.value with
    | none => .error (.missingValue w.label)
    | some value =>
      -- a second value is noticed before its form
      match r.take w.name w.label value with
      | .error e => .error e
      | .ok r =>
        match w.form.check w.label value with
        | .error e => .error e
        | .ok () => .ok r

/-- Whether an option waits for its value. -/
def awaitsValue (r : Reading) : Bool :=
  r.waiting.any (·.value.isNone)

/-- Gives a value to the option that waits for it. -/
def giveValue (r : Reading) (value : String) : Reading :=
  { r with waiting := r.waiting.map fun w => { w with value := some value } }

/-- Reads an option, whose value may be attached. -/
def takeOption (r : Reading) (o : OptionRule) (attached : Option String) :
    Except Refusal Reading :=
  match o.value, attached with
  | none, none =>
    match r.settle with
    | .error e => .error e
    | .ok r => r.take o.name o.label ""
  | none, some value => .error (.uncalledValue value o.label)
  | some (_, form), some value =>
    match r.settle with
    | .error e => .error e
    | .ok r => { r with waiting := some ⟨o.name, o.label, form, some value⟩ }.settle
  | some (_, form), none =>
    match r.settle with
    | .error e => .error e
    | .ok r => .ok { r with waiting := some ⟨o.name, o.label, form, none⟩ }

/-- The name of the option that asks for the version. -/
def versionName : String := "version"

/-- What is answered to a user who asks for something while an argument may still wait. -/
def answerWith (r : Reading) (answer : Refusal) : Refusal :=
  match r.settle with
  | .error e => e
  | .ok _ => answer

/-- Reads the letters after one dash. -/
def takeLetters (r : Reading) (c : CommandRule) : List Char → Except Refusal Reading
  | [] => .ok r
  | letter :: rest =>
    match c.letter? letter with
    | none =>
      if letter = 'h' then .error (r.answerWith (.help c.about))
      else .error (.unexpectedArgument (String.ofList ['-', letter]))
    | some o =>
      if o.name == versionName then .error (r.answerWith .version)
      else if o.value.isNone then
        match r.takeOption o none with
        | .error e => .error e
        | .ok r => r.takeLetters c rest
      else
        match rest with
        | [] => r.takeOption o none
        | '=' :: rest => r.takeOption o (some (String.ofList rest))
        | rest => r.takeOption o (some (String.ofList rest))

/-- Reads a name after two dashes. -/
def takeName (r : Reading) (c : CommandRule) (name : String) (attached : Option String) :
    Except Refusal Reading :=
  match c.option? name with
  | some o =>
    if o.name == versionName && attached.isNone then .error (r.answerWith .version)
    else r.takeOption o attached
  | none =>
    if name == "help" then
      match attached with
      | none => .error (r.answerWith (.help c.about))
      | some value => .error (.uncalledValue value "--help")
    else .error (.unexpectedArgument ("--" ++ name))

/-- Refuses a word that fits nowhere. -/
def misfit (r : Reading) (c : CommandRule) (word : String) : Refusal :=
  if r.positional && (c.subcommand? word).isSome then .unexpectedArgument word
  else if c.subcommands.isEmpty then .unexpectedArgument word
  else .unknownCommand word

def takePosition (r : Reading) (c : CommandRule) (word : String) : Except Refusal Reading :=
  match c.positions[r.position]? with
  | none => .error (r.misfit c word)
  | some p =>
    match r.settle with
    | .error e => .error e
    | .ok r =>
      .ok { r with
        waiting := some ⟨p.name, p.label, p.form, some word⟩
        position := r.position + 1 }

/-- Checks that nothing is missing at the end of the arguments. -/
def finish (r : Reading) (c : CommandRule) (path : List String) : Except Refusal Given :=
  match r.settle with
  | .error e => .error e
  | .ok r =>
    if !c.subcommands.isEmpty then
      if r.given.isEmpty then .error (.bare c.about)
      else .error (.missingCommand (String.intercalate " " path))
    else if c.required.any (fun name => (r.given.lookup name).isNone) ||
        c.positions.any (fun p => p.required && (r.given.lookup p.name).isNone) then
      .error .missingArguments
    else .ok r.given

end Reading

/-! ## §5 Reading -/

/-- What was read: the names of the commands on the way, and what was given, innermost first. -/
structure Parsed where
  commands : List String
  given : Given
  deriving DecidableEq, Repr

/-- Looks for the help of a command by its names. -/
def helpFor (c : CommandRule) : List String → Refusal
  | [] => .help c.about
  | name :: rest =>
    match c.subcommand? name with
    | some sub => helpFor sub rest
    | none => if name == "help" && !c.subcommands.isEmpty then .help c.about else .unknownCommand name

/-- The name and the attached value of a word after two dashes. -/
def splitWord (cs : List Char) : String × Option String :=
  let name := String.ofList (cs.takeWhile (· != '='))
  match cs.dropWhile (· != '=') with
  | [] => (name, none)
  | _ :: value => (name, some (String.ofList value))

/-- Reads the arguments of a command; `path` are the names of the commands down to this one. -/
def CommandRule.read (path : List String) (c : CommandRule) (r : Reading) :
    List String → Except Refusal Parsed
  | [] =>
    match r.finish c path with
    | .error e => .error e
    | .ok given => .ok ⟨[], given⟩
  | word :: rest =>
    let asPosition : Except Refusal Parsed :=
      match r.takePosition c word with
      | .error e => .error e
      | .ok r => c.read path r rest
    let asValue : Except Refusal Parsed :=
      if r.awaitsValue then c.read path (r.giveValue word) rest else asPosition
    if r.positional then asPosition
    else if !r.awaitsValue && word == "help" && !c.subcommands.isEmpty then .error (helpFor c rest)
    else
      match if r.awaitsValue then none else c.subcommand? word with
      | some sub =>
        match sub.read (path ++ [sub.name]) .start rest with
        | .error e => .error e
        | .ok p =>
          match r.settle with
          | .error e => .error e
          | .ok r => .ok ⟨sub.name :: p.commands, p.given ++ r.given⟩
      | none =>
        match word.toList with
        | ['-'] => asValue
        | ['-', '-'] => c.read path { r with positional := true } rest
        | '-' :: '-' :: cs =>
          let (name, attached) := splitWord cs
          match r.takeName c name attached with
          | .error e => .error e
          | .ok r => c.read path r rest
        | '-' :: cs =>
          match r.takeLetters c cs with
          | .error e => .error e
          | .ok r => c.read path r rest
        | _ => asValue

end QueryPlayground.CommandLine
