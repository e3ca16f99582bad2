import QueryPlayground.Program.Console

/-!
# Options of the standard tools

The standard tools read their options alike: letters behind a dash, several at once, some with a
value; names behind two dashes, which may be cut short where that is not ambiguous; operands before,
between and behind them. Two dashes alone end the options.
-/

namespace QueryPlayground.Program

/-! ## §1 Reading options -/

/-- What a tool can be told. -/
structure OptionRules where
  /-- The letters, and whether each takes a value. -/
  letters : List (Char × Bool)
  /-- The names with their letters. -/
  names : List (String × Char)

inductive Chosen where
  | letter (c : Char) (value : Octets)
  /-- The request for help. -/
  | help
  /-- The request for the version. -/
  | version

/-- The options and the operands of a tool. -/
structure Arguments where
  /-- The options, in order. -/
  chosen : List Chosen
  /-- The operands, in order. -/
  operands : List Octets

namespace OptionRules

/-- The names that every tool knows. -/
def allNames (r : OptionRules) : List String :=
  r.names.map Prod.fst ++ ["help", "version"]

def named (r : OptionRules) (name : String) : Chosen :=
  match r.names.lookup name with
  | some c => .letter c []
  | none => if name == "help" then .help else .version

/-- Whether a name asks for a value. -/
def takesValue (r : OptionRules) (name : String) : Bool :=
  ((r.names.lookup name).bind fun c => r.letters.lookup c).getD false

/-- The name that a text stands for: itself, or the only one that goes on from it. Messages quote the
whole argument behind the dashes. -/
def resolve (r : OptionRules) (whole text : Octets) : Except Octets String :=
  let written := Octets.toText text
  if r.allNames.contains written then .ok written
  else
    match r.allNames.filter fun n => text.isPrefixOf n.toList with
    | [n] => .ok n
    | [] => .error ("unrecognized option '--".toList ++ whole ++ ['\''])
    | n :: rest =>
      let letterOf (name : String) : Option Char := r.names.lookup name
      if rest.all fun m => (letterOf m).isSome && letterOf m == letterOf n then .ok n
      else
        .error ("option '--".toList ++ whole ++ "' is ambiguous; possibilities:".toList ++
          (n :: rest).flatMap fun m => " '--".toList ++ m.toList ++ ['\''])

/-- Reads the letters behind a dash; a value is the rest, or else the next argument. -/
def readLetters (r : OptionRules) (next : List Octets) :
    Octets → Except Octets (List Chosen × List Octets)
  | [] => .ok ([], next)
  | c :: cs =>
    match r.letters.lookup c with
    | none => .error ("invalid option -- '".toList ++ [c, '\''])
    | some false => do
      let (chosen, next) ← r.readLetters next cs
      return (.letter c [] :: chosen, next)
    | some true =>
      if !cs.isEmpty then .ok ([.letter c cs], next)
      else
        match next with
        | value :: next => .ok ([.letter c value], next)
        | [] => .error ("option requires an argument -- '".toList ++ [c, '\''])

/-- Reads a name behind two dashes. -/
def readName (r : OptionRules) (next : List Octets) (text : Octets) :
    Except Octets (List Chosen × List Octets) := do
  let name ← r.resolve text (text.takeWhile (· ≠ '='))
  match text.dropWhile (· ≠ '=') with
  | _ :: value =>
    if r.takesValue name then
      return ((r.names.lookup name).toList.map fun c => .letter c value, next)
    else .error ("option '--".toList ++ name.toList ++ "' doesn't allow an argument".toList)
  | [] =>
    if r.takesValue name then
      match next with
      | value :: next => return ((r.names.lookup name).toList.map fun c => .letter c value, next)
      | [] => .error ("option '--".toList ++ name.toList ++ "' requires an argument".toList)
    else return ([r.named name], next)

/-- Reads the arguments of a tool; the fuel is their number. -/
def readArguments (r : OptionRules) : Nat → List Octets → Except Octets Arguments
  | 0, operands => .ok ⟨[], operands⟩
  | _, [] => .ok ⟨[], []⟩
  | fuel + 1, arg :: next =>
    match arg with
    | ['-', '-'] => .ok ⟨[], next⟩
    | '-' :: '-' :: text => do
      let (chosen, next) ← r.readName next text
      if chosen matches [.help] | [.version] then return ⟨chosen, []⟩
      let a ← r.readArguments fuel next
      return { a with chosen := chosen ++ a.chosen }
    | '-' :: c :: cs => do
      let (chosen, next) ← r.readLetters next (c :: cs)
      let a ← r.readArguments fuel next
      return { a with chosen := chosen ++ a.chosen }
    | operand => do
      let a ← r.readArguments fuel next
      return { a with operands := operand :: a.operands }

/-- The options and operands among the arguments of a tool. -/
def arguments (r : OptionRules) (args : List Octets) : Except Octets Arguments :=
  r.readArguments args.length args

end OptionRules

namespace Arguments

def has (a : Arguments) (c : Char) : Bool :=
  a.chosen.any fun o => match o with
    | .letter d _ => c == d
    | _ => false

/-- The last value of an option. -/
def value? (a : Arguments) (c : Char) : Option Octets :=
  (a.chosen.reverse.findSome? fun o => match o with
    | .letter d v => if c == d then some v else none
    | _ => none)

/-- Whether help or the version is asked for. -/
def asksAbout (a : Arguments) : Bool :=
  a.chosen.any fun o => o matches .help | .version

end Arguments

/-! ## §2 What all tools say -/

/-- Where help is to be found. -/
def tryHelp (name : Octets) : Octets :=
  "Try '".toList ++ name ++ " --help' for more information.\n".toList

/-- Complains about the arguments and gives up. -/
def misused (name message : Octets) : Task Finish := do
  complainOctets (name ++ ": ".toList ++ message ++ ['\n'] ++ tryHelp name)
  finish 1

def complainAs (name message : Octets) : Task Unit :=
  complainOctets (name ++ ": ".toList ++ message ++ ['\n'])

/-- Tells how a tool is used. -/
def usage (name : Octets) : Task Finish := do
  let _ ← emitTo 1 ("Usage: ".toList ++ name ++ ['\n'])
  finish 0

/-- Writes the output of a tool and ends with a status. -/
def conclude (name text : Octets) (status : Nat) : Task Finish := do
  if text.isEmpty then finish status
  else
    match ← emitTo 1 text with
    | none => finish status
    | some problem =>
      complainAs name ("write error: ".toList ++ problem.message.toList)
      finish 1

end QueryPlayground.Program
