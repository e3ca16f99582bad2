import QueryPlayground.Program.Octets
import QueryPlayground.MachineWord

/-!
# Conditions of the shell

`test` and `[` decide a condition that is given as arguments: about texts, integers and files, joined by
signs for negation, conjunction and disjunction. Up to four arguments the number of them decides what
is an operator.
-/

namespace QueryPlayground.Program.Shell.Condition

/-- What conditions ask about files. -/
structure Facts where
  /-- Whether a file exists. -/
  isThere : Octets → Bool
  /-- Whether a file is a directory. -/
  isFolder : Octets → Bool
  /-- Whether a file is neither a directory nor a device. -/
  isPlain : Octets → Bool
  /-- Whether a file is not empty. -/
  isFilled : Octets → Bool

/-! ## §1 Operators -/

/-- The value of an operator before a text. -/
def unary? (facts : Facts) (operator : Octets) : Option (Octets → Bool) :=
  match Octets.toText operator with
  | "-n" => some (!·.isEmpty)
  | "-z" => some (·.isEmpty)
  | "-e" => some facts.isThere
  | "-f" => some facts.isPlain
  | "-d" => some facts.isFolder
  | "-s" => some facts.isFilled
  | "-r" => some facts.isThere
  | "-w" => some facts.isThere
  | "-x" => some facts.isFolder
  | "-t" => some fun _ => false
  | "-b" => some fun _ => false
  | "-c" => some fun file => facts.isThere file && !facts.isFolder file && !facts.isPlain file
  | "-g" => some fun _ => false
  | "-h" => some fun _ => false
  | "-k" => some fun _ => false
  | "-L" => some fun _ => false
  | "-p" => some fun _ => false
  | "-S" => some fun _ => false
  | "-u" => some fun _ => false
  | "-O" => some facts.isThere
  | "-G" => some facts.isThere
  | _ => none

/-- The comparison of integers that an operator makes. -/
def comparison? (operator : Octets) : Option (Int → Int → Bool) :=
  match Octets.toText operator with
  | "-eq" => some fun a b => a == b
  | "-ne" => some fun a b => a != b
  | "-lt" => some fun a b => a < b
  | "-le" => some fun a b => a ≤ b
  | "-gt" => some fun a b => b < a
  | "-ge" => some fun a b => b ≤ a
  | _ => none

/-- The comparison of texts that an operator makes. -/
def order? (operator : Octets) : Option (Octets → Octets → Bool) :=
  match Octets.toText operator with
  | "=" => some fun a b => a == b
  | "!=" => some fun a b => a != b
  | "<" => some fun a b => decide (a < b)
  | ">" => some fun a b => decide (b < a)
  | _ => none

/-- Whether a text is an operator between two others. -/
def isBinary (operator : Octets) : Bool :=
  (comparison? operator).isSome || (order? operator).isSome

/-- The integer that a text stands for. -/
def integer (cs : Octets) : Except Octets Int :=
  match Octets.decimal? cs with
  | some n =>
    if MachineWord.minSigned ≤ n && n ≤ MachineWord.maxSigned then .ok n else .error ("Illegal number: ".toList ++ cs)
  | none => .error ("Illegal number: ".toList ++ cs)

/-- The value of an operator between two texts. -/
def binary (operator a b : Octets) : Except Octets Bool :=
  match order? operator with
  | some f => .ok (f a b)
  | none =>
    match comparison? operator with
    | some f => do return f (← integer a) (← integer b)
    | none => .error (operator ++ ": unexpected operator".toList)

/-! ## §2 Conditions -/

/-- The problem of an argument that does not fit. -/
def misplaced (arg : Octets) : Octets :=
  arg ++ ": unexpected operator".toList

/-- The problem of an operator without its operand. -/
def unfinished (operator : Octets) : Octets :=
  operator ++ ": argument expected".toList

mutual

/-- Decides a disjunction at the start of arguments. -/
def either (facts : Facts) : Nat → List Octets → Except Octets (Bool × List Octets)
  | 0, args => .error (misplaced (args.headD []))
  | fuel + 1, args => do
    let (a, rest) ← both facts fuel args
    match rest with
    | ['-', 'o'] :: rest =>
      let (b, rest) ← either facts fuel rest
      return (a || b, rest)
    | _ => return (a, rest)

/-- Decides a conjunction at the start of arguments. -/
def both (facts : Facts) : Nat → List Octets → Except Octets (Bool × List Octets)
  | 0, args => .error (misplaced (args.headD []))
  | fuel + 1, args => do
    let (a, rest) ← negation facts fuel args
    match rest with
    | ['-', 'a'] :: rest =>
      let (b, rest) ← both facts fuel rest
      return (a && b, rest)
    | _ => return (a, rest)

/-- Decides what may stand behind a negation. -/
def negation (facts : Facts) : Nat → List Octets → Except Octets (Bool × List Octets)
  | 0, args => .error (misplaced (args.headD []))
  | fuel + 1, args => do
    match args with
    | ['!'] :: rest =>
      let (a, rest) ← negation facts fuel rest
      return (!a, rest)
    | args => primary facts fuel args

/-- Decides a single condition at the start of arguments. -/
def primary (facts : Facts) : Nat → List Octets → Except Octets (Bool × List Octets)
  | 0, args => .error (misplaced (args.headD []))
  | fuel + 1, args => do
    match args with
    | [] => .error "argument expected".toList
    | a :: op :: rest =>
      if isBinary op then
        match rest with
        | b :: rest => return (← binary op a b, rest)
        | [] => .error (unfinished op)
      else if a == ['('] then
        let (value, rest) ← either facts fuel (op :: rest)
        match rest with
        | [')'] :: rest => return (value, rest)
        | _ => .error "closing paren expected".toList
      else
        match unary? facts a with
        | some f => return (f op, rest)
        | none => return (!a.isEmpty, op :: rest)
    | [a] => return (!a.isEmpty, [])

end

/-- Decides a condition; nothing is false. Of arguments that are left over, the one before them is
named. -/
def decideAll (facts : Facts) (args : List Octets) : Except Octets Bool :=
  let general : Except Octets Bool := do
    let (value, rest) ← either facts (4 * args.length + 8) args
    match rest with
    | [] => return value
    | rest => .error (misplaced ((args.take (args.length - rest.length)).getLastD []))
  match args with
  | [] => .ok false
  | [a] => .ok (!a.isEmpty)
  | [['!'], a] => .ok a.isEmpty
  | [['('], a, [')']] => .ok (!a.isEmpty)
  | [a, op, b] => if isBinary op then binary op a b else general
  | _ => general

end QueryPlayground.Program.Shell.Condition
