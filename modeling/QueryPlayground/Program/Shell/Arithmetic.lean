import QueryPlayground.Program.Octets
import QueryPlayground.MachineWord

/-!
# Arithmetic of the shell

Expressions over 64-bit integers that wrap around. An expression is read into a term and the term is
evaluated under the variables; a variable that is not set, or is empty, is zero.
-/

namespace QueryPlayground.Program.Shell.Arithmetic

/-! ## §1 Terms -/

/-- An operator between two terms. -/
inductive Operator where
  | mul | div | mod | add | sub | shiftLeft | shiftRight | less | atMost | greater | atLeast | equal
  | different | bitAnd | bitXor | bitOr
  deriving DecidableEq, Repr

/-- An operator before a term. -/
inductive Sign where
  | plus | minus | not | complement
  deriving DecidableEq, Repr

/-- An arithmetic expression. -/
inductive Term where
  | number (n : Int)
  /-- The value of a variable. -/
  | named (name : Octets)
  /-- A term behind a sign. -/
  | signed (s : Sign) (t : Term)
  /-- Two terms with an operator between them. -/
  | binary (o : Operator) (a b : Term)
  /-- Whether both are true; the second may not be needed. -/
  | both (a b : Term)
  /-- Whether one is true; the second may not be needed. -/
  | either (a b : Term)
  /-- The one or the other. -/
  | choose (c a b : Term)
  /-- A new value for a variable, made with an operator from the old one if there is one. -/
  | assign (name : Octets) (o : Option Operator) (t : Term)

/-- What is wrong with an expression. -/
inductive Problem where
  | expecting (what : String)
  | divisionByZero
  /-- A variable is no number. -/
  | illegalNumber (value : Octets)

/-! ## §2 Reading -/

/-- A token of an expression. -/
inductive Token where
  | number (n : Int)
  | name (n : Octets)
  /-- An operator or a parenthesis. -/
  | mark (text : String)
  /-- A character that belongs to nothing. -/
  | strange
  deriving DecidableEq

/-- The marks, longer ones first. -/
def marks : List String :=
  ["<<=", ">>=", "<<", ">>", "<=", ">=", "==", "!=", "&&", "||", "*=", "/=", "%=", "+=", "-=", "&=", "^=",
    "|=", "<", ">", "=", "!", "~", "&", "|", "^", "+", "-", "*", "/", "%", "(", ")", "?", ":"]

/-- The tokens of an expression; the fuel is its length. -/
def tokens : Nat → Octets → List Token
  | 0, _ => []
  | fuel + 1, cs =>
    match cs with
    | [] => []
    | c :: rest =>
      if Octets.isSpace c then tokens fuel rest
      else if c.isDigit then
        match Octets.unsigned? cs with
        | some (n, rest) => .number (min (n : Int) MachineWord.maxSigned) :: tokens fuel rest
        | none => [.strange]
      else if c.isAlpha || c = '_' then
        .name (cs.takeWhile fun c => c.isAlphanum || c = '_') ::
          tokens fuel (cs.dropWhile fun c => c.isAlphanum || c = '_')
      else
        match marks.find? fun m => m.toList.isPrefixOf cs with
        | some m => .mark m :: tokens fuel (cs.drop m.length)
        | none => [.strange]

/-- The operators between terms with their precedence, where a higher one binds more. -/
def binaryOperator? (text : String) : Option (Nat × Operator) :=
  match text with
  | "|" => some (1, .bitOr)
  | "^" => some (2, .bitXor)
  | "&" => some (3, .bitAnd)
  | "==" => some (4, .equal)
  | "!=" => some (4, .different)
  | "<" => some (5, .less)
  | "<=" => some (5, .atMost)
  | ">" => some (5, .greater)
  | ">=" => some (5, .atLeast)
  | "<<" => some (6, .shiftLeft)
  | ">>" => some (6, .shiftRight)
  | "+" => some (7, .add)
  | "-" => some (7, .sub)
  | "*" => some (8, .mul)
  | "/" => some (8, .div)
  | "%" => some (8, .mod)
  | _ => none

/-- The operator of an assignment; there is none for the plain one. -/
def assignment? (text : String) : Option (Option Operator) :=
  if text == "=" then some none
  else if text.endsWith "=" && marks.contains text then
    (binaryOperator? (String.ofList (text.toList.take (text.length - 1)))).bind fun (p, o) =>
      if p = 4 || p = 5 then none else some (some o)
  else none

abbrev Reads := StateT (List Token) (Except Problem)

def takeMark (text : String) : Reads Bool := do
  match ← get with
  | .mark m :: rest =>
    if m == text then
      set rest
      return true
    else return false
  | _ => return false

mutual

/-- Reads a number, a variable, or a term in parentheses or behind a sign. -/
def readPrimary : Nat → Reads Term
  | 0 => throw (.expecting "primary")
  | fuel + 1 => do
    match ← get with
    | .number n :: rest =>
      set rest
      return .number n
    | .name n :: rest =>
      set rest
      return .named n
    | .mark m :: rest =>
      let signed (s : Sign) : Reads Term := do
        set rest
        return .signed s (← readPrimary fuel)
      if m == "(" then
        set rest
        let t ← readAssignment fuel
        if ← takeMark ")" then return t else throw (.expecting "')'")
      else if m == "+" then signed .plus
      else if m == "-" then signed .minus
      else if m == "!" then signed .not
      else if m == "~" then signed .complement
      else throw (.expecting "primary")
    | _ => throw (.expecting "primary")

/-- Reads what follows a term as far as it binds at least as much as the given precedence. -/
def readOperators : Nat → Nat → Term → Reads Term
  | 0, _, a => return a
  | fuel + 1, least, a => do
    match ← get with
    | .mark m :: rest =>
      match binaryOperator? m with
      | some (p, o) =>
        if p < least then return a
        else
          set rest
          let b ← readPrimary fuel
          let b ← readOperators fuel (p + 1) b
          readOperators fuel least (.binary o a b)
      | none => return a
    | _ => return a

/-- Reads terms that are joined by a conjunction. -/
def readBoth : Nat → Reads Term
  | 0 => throw (.expecting "primary")
  | fuel + 1 => do
    let a ← readPrimary fuel
    let a ← readOperators fuel 1 a
    if ← takeMark "&&" then return .both a (← readBoth fuel) else return a

/-- Reads terms that are joined by a disjunction. -/
def readEither : Nat → Reads Term
  | 0 => throw (.expecting "primary")
  | fuel + 1 => do
    let a ← readBoth fuel
    if ← takeMark "||" then return .either a (← readEither fuel) else return a

/-- Reads a choice, or what binds more. -/
def readChoice : Nat → Reads Term
  | 0 => throw (.expecting "primary")
  | fuel + 1 => do
    let c ← readEither fuel
    if ← takeMark "?" then
      let a ← readAssignment fuel
      if ← takeMark ":" then return .choose c a (← readChoice fuel) else throw (.expecting "':'")
    else return c

/-- Reads an assignment, or what binds more. -/
def readAssignment : Nat → Reads Term
  | 0 => throw (.expecting "primary")
  | fuel + 1 => do
    match ← get with
    | .name n :: .mark m :: rest =>
      match assignment? m with
      | some o =>
        set rest
        return .assign n o (← readAssignment fuel)
      | none => readChoice fuel
    | _ => readChoice fuel

end

/-- The term of an expression. -/
def Term.read (cs : Octets) : Except Problem Term := do
  let ts := tokens (cs.length + 1) cs
  let (t, rest) ← (readAssignment (8 * ts.length + 10)).run ts
  if rest.isEmpty then return t else throw (.expecting "EOF")

/-! ## §3 Evaluating -/

/-- The truth of a number. -/
def truth (b : Bool) : Int :=
  if b then 1 else 0

/-- The value of an operator. -/
def Operator.apply (o : Operator) (a b : Int) : Except Problem Int :=
  let divides : Except Problem Unit :=
    if b = 0 || (a = MachineWord.minSigned && b = -1) then .error .divisionByZero else .ok ()
  match o with
  | mul => .ok (MachineWord.wrap (a * b))
  | div => divides.map fun _ => Int.tdiv a b
  | mod => divides.map fun _ => Int.tmod a b
  | add => .ok (MachineWord.wrap (a + b))
  | sub => .ok (MachineWord.wrap (a - b))
  | shiftLeft => .ok (MachineWord.wrap (a * (Nat.pow 2 (MachineWord.ofInt b % 64) : Nat)))
  | shiftRight => .ok (a / (Nat.pow 2 (MachineWord.ofInt b % 64) : Nat))
  | less => .ok (truth (a < b))
  | atMost => .ok (truth (a ≤ b))
  | greater => .ok (truth (b < a))
  | atLeast => .ok (truth (b ≤ a))
  | equal => .ok (truth (a = b))
  | different => .ok (truth (a ≠ b))
  | bitAnd => .ok (MachineWord.wrap (MachineWord.ofInt a &&& MachineWord.ofInt b))
  | bitXor => .ok (MachineWord.wrap (MachineWord.ofInt a ^^^ MachineWord.ofInt b))
  | bitOr => .ok (MachineWord.wrap (MachineWord.ofInt a ||| MachineWord.ofInt b))

/-- The value of a sign. -/
def Sign.apply (s : Sign) (a : Int) : Int :=
  match s with
  | plus => a
  | minus => MachineWord.wrap (-a)
  | not => truth (a = 0)
  | complement => -a - 1

/-- The variables with their values. -/
abbrev Bindings := List (Octets × Octets)

def numberOf (value : Octets) : Except Problem Int :=
  if value.isEmpty then .ok 0
  else
    match Octets.integer? value with
    | some (n, rest) => if rest.all Octets.isSpace then .ok n else .error (.illegalNumber value)
    | none => .error (.illegalNumber value)

/-- Evaluates a term. -/
def Term.eval : Term → StateT Bindings (Except Problem) Int
  | number n => return n
  | named name => do numberOf (((← get).lookup name).getD [])
  | signed s t => do return s.apply (← t.eval)
  | binary o a b => do
    let x ← a.eval
    let y ← b.eval
    o.apply x y
  | both a b => do
    if (← a.eval) = 0 then return 0 else return truth ((← b.eval) ≠ 0)
  | either a b => do
    if (← a.eval) ≠ 0 then return 1 else return truth ((← b.eval) ≠ 0)
  | choose c a b => do
    if (← c.eval) ≠ 0 then a.eval else b.eval
  | assign name o t => do
    let y ← t.eval
    let value ← match o with
      | none => pure y
      | some o => (do
          let x ← numberOf (((← get).lookup name).getD [])
          o.apply x y)
    modify fun vs => (name, Octets.ofInt value) :: vs
    return value

end QueryPlayground.Program.Shell.Arithmetic
