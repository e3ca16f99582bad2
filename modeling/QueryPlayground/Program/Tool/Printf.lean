import QueryPlayground.Program.Console
import QueryPlayground.Program.Escape
import QueryPlayground.Program.Format
import QueryPlayground.MachineWord

/-!
# Formatted output

`printf` writes its arguments under a format, again and again until none is left; an argument that
misses is empty or zero. It exists as a program and inside the shell. The two differ in the wording
of messages and in a few rules, and these are the fields of `PrintfRules`.
-/

namespace QueryPlayground.Program

/-! ## §1 Rules -/

/-- What the forms of `printf` differ in. -/
structure PrintfRules where
  /-- What stands before each message. -/
  lead : Octets
  /-- The escapes of the format. -/
  escapes : EscapeRules
  /-- The escapes of an argument of `%b`. -/
  argumentEscapes : EscapeRules
  /-- How an argument is named in a message. -/
  named : Octets → Octets
  /-- What is wrong with an argument that is no number. -/
  noNumber : String
  /-- What is wrong with an argument that only starts with a number. -/
  notAllNumber : String
  /-- What is wrong with a directive. -/
  badDirective : String
  /-- What is wrong with a directive without an end. -/
  noConversion : Octets → Octets
  /-- The status after an error that ends the output. -/
  failure : Nat
  /-- Whether it belongs to the standard tools, which know `%q` and sizes, check the flags and warn
  about arguments that are left over. -/
  standard : Bool

/-- The rules of the program. -/
def PrintfRules.program : PrintfRules :=
  { lead := "printf: ".toList
    escapes := ⟨true, true, true, true, false⟩
    argumentEscapes := ⟨true, true, true, true, true⟩
    named := Octets.quoted
    noNumber := "expected a numeric value"
    notAllNumber := "value not completely converted"
    badDirective := "invalid conversion specification"
    noConversion := fun source => source ++ ": invalid conversion specification".toList
    failure := 1
    standard := true }

/-- The rules inside a shell that puts the given text before messages. -/
def PrintfRules.shell (lead : Octets) : PrintfRules :=
  { lead := lead
    escapes := ⟨true, false, false, false, false⟩
    argumentEscapes := .shellEcho
    named := id
    noNumber := "expected numeric value"
    notAllNumber := "not completely converted"
    badDirective := "invalid directive"
    noConversion := fun _ => "missing format character".toList
    failure := 2
    standard := false }

/-! ## §2 Output -/

/-- What has been done so far. -/
structure Printing where
  /-- The arguments that are left. -/
  args : List Octets
  /-- What was written, piece by piece, the last one first. -/
  out : List Octets
  messages : Octets
  status : Nat
  /-- Whether there is no more output. -/
  ended : Bool

/-- A step of the output. -/
abbrev Prints := StateM Printing

namespace PrintfRules

/-- Writes a text. -/
def write (cs : Octets) : Prints Unit :=
  modify fun p => { p with out := cs :: p.out }

/-- Writes a message about what does no harm but to the status. -/
def warn (r : PrintfRules) (message : Octets) : Prints Unit :=
  modify fun p =>
    { p with messages := p.messages ++ r.lead ++ message ++ ['\n'], status := 1 }

/-- Writes a message about what ends the output. -/
def fail (r : PrintfRules) (message : Octets) : Prints Unit :=
  modify fun p =>
    { p with
      messages := p.messages ++ r.lead ++ message ++ ['\n'], status := r.failure, ended := true }

/-- Takes an argument. -/
def nextArgument : Prints (Option Octets) :=
  modifyGet fun p => (p.args.head?, { p with args := p.args.drop 1 })

/-- Says what is wrong with an argument. -/
def blame (r : PrintfRules) (argument : Octets) (what : String) : Prints Unit :=
  r.warn (r.named argument ++ ": ".toList ++ what.toList)

/-- The code of the character that an argument names behind a quote. -/
def quotedCode? (argument : Octets) : Option (Nat × Octets) :=
  match argument with
  | q :: c :: rest => if q = '\'' || q = '"' then some (c.toNat, rest) else none
  | _ => none

/-- Says that a number is too large. -/
def outOfRange : String := "Numerical result out of range"

/-- Takes an integer between the given limits. -/
def nextInteger (r : PrintfRules) (low high : Int) : Prints Int := do
  match ← nextArgument with
  | none => return 0
  | some argument =>
    if argument.isEmpty then return 0
    match quotedCode? argument with
    | some (n, rest) =>
      if r.standard && !rest.isEmpty then
        modify fun p =>
          { p with messages := p.messages ++ r.lead ++ "warning: ".toList ++ rest ++
              ": character(s) following character constant have been ignored\n".toList }
      return n
    | none =>
      match Octets.integer? argument with
      | none =>
        r.blame argument r.noNumber
        return 0
      | some (n, rest) =>
        if n < low then
          r.blame argument outOfRange
          return low
        else if high < n then
          r.blame argument outOfRange
          return high
        else
          if !rest.isEmpty then r.blame argument r.notAllNumber
          return n

/-- Takes an integer and wraps it to a 64-bit word. -/
def nextWord (r : PrintfRules) : Prints Nat := do
  return MachineWord.ofInt (← r.nextInteger (-MachineWord.maxUnsigned) MachineWord.maxUnsigned)

/-- Takes a signed 64-bit integer. -/
def nextSigned (r : PrintfRules) : Prints Int :=
  r.nextInteger MachineWord.minSigned MachineWord.maxSigned

/-- Takes a real number. -/
def nextReal (r : PrintfRules) : Prints Decimal.Double := do
  match ← nextArgument with
  | none => return .zero false
  | some argument =>
    if argument.isEmpty then return .zero false
    match quotedCode? argument with
    | some (n, _) => return (Decimal.Double.ofNat? n).getD (.zero false)
    | none =>
      match Octets.double? argument with
      | none =>
        r.blame argument r.noNumber
        return .zero false
      | some (x, rest) =>
        if !rest.isEmpty then r.blame argument r.notAllNumber
        return x

/-! ## §3 Directives -/

/-- A width or a precision. -/
inductive Measure where
  /-- There is none. -/
  | absent
  /-- A number. -/
  | given (n : Nat)
  /-- The next argument. -/
  | argument

/-- The measure at the start of a text, and the rest. -/
def measure (cs : Octets) : Measure × Octets :=
  match cs with
  | '*' :: rest => (.argument, rest)
  | _ =>
    let ds := cs.takeWhile Char.isDigit
    (if ds.isEmpty then .absent else .given (Octets.natOf 10 ds), cs.dropWhile Char.isDigit)

/-- What stands behind a percent sign. -/
structure Directive where
  flags : List Char
  width : Measure
  /-- The precision, behind a point. -/
  precision : Option Measure
  /-- The letter of the conversion. -/
  conversion : Option Char
  /-- The number of characters behind the percent sign. -/
  length : Nat
  /-- Whether nothing stands before the letter. -/
  bare : Bool

/-- The directive at the start of the text behind a percent sign. -/
def directive (r : PrintfRules) (cs : Octets) : Directive :=
  let isFlag (c : Char) : Bool := "-+ #0".toList.contains c || (r.standard && (c = '\'' || c = 'I'))
  let flags := cs.takeWhile isFlag
  let (width, rest) := measure (cs.dropWhile isFlag)
  let (precision, rest) :=
    match rest with
    | '.' :: rest =>
      let (m, rest) := measure rest
      (some m, rest)
    | _ => (none, rest)
  let rest := if r.standard then rest.dropWhile "hlLjzt".toList.contains else rest
  let before := cs.length - rest.length
  ⟨flags, width, precision, rest.head?, before + (if rest.isEmpty then 0 else 1), before = 0⟩

/-- Whether a letter may be a conversion behind these flags and the precision. -/
def allows (r : PrintfRules) (d : Directive) (c : Char) : Bool :=
  if !r.standard then "bcsdiouxXaAeEfFgG".toList.contains c
  else if c = 'b' || c = 'q' then d.bare
  else
    "csdiouxXaAeEfFgG".toList.contains c &&
      !(d.flags.contains '#' && "cdisu".toList.contains c) &&
      !(d.flags.contains '0' && (c = 'c' || c = 's')) &&
      !(d.flags.contains '\'' && "aAceEosxX".toList.contains c) &&
      !(d.precision.isSome && c = 'c')

/-- The limit of widths and precisions. -/
def measureLimit : Int := 0x80000000

/-- The value of a measure with a name; one that is too large ends the output of the program, and wraps
in the shell. -/
def measured (r : PrintfRules) (name : String) : Measure → Prints Int
  | .absent => return 0
  | .given n => return n
  | .argument => do
    let argument := (← get).args.headD []
    let n ← r.nextSigned
    if -measureLimit ≤ n && n < measureLimit then return n
    else if r.standard then
      r.fail ("invalid ".toList ++ name.toList ++ ": ".toList ++ Octets.quoted argument)
      return 0
    else return Int.bmod n 0x100000000

/-- Writes what a directive asks for. -/
def perform (r : PrintfRules) (d : Directive) (c : Char) : Prints Unit := do
  let width ← r.measured "field width" d.width
  let precision ← match d.precision with
    | none => pure none
    | some m => (do
        let n ← r.measured "precision" m
        return if n < 0 then none else some n.toNat)
  let f : Field := ⟨d.flags, width, precision⟩
  if (← get).ended then return
  else if c = 's' then write (f.text ((← nextArgument).getD []))
  else if c = 'c' then write (f.fill [((← nextArgument).getD []).headD (Char.ofNat 0)])
  else if c = 'q' then
    write ((← nextArgument).elim [] Octets.asName)
  else if c = 'b' then
    let e := r.argumentEscapes.expand 0 ((← nextArgument).getD [])
    write (f.text e.text)
    match e.problem with
    | some message => r.fail message.toList
    | none => if e.stopped then modify fun p => { p with ended := true }
  else if c = 'd' || c = 'i' then write (f.signed (← r.nextSigned))
  else if c = 'o' then write (f.unsigned 8 false (← r.nextWord))
  else if c = 'u' then write (f.unsigned 10 false (← r.nextWord))
  else if c = 'x' then write (f.unsigned 16 false (← r.nextWord))
  else if c = 'X' then write (f.unsigned 16 true (← r.nextWord))
  else write (f.real c (← r.nextReal))

/-- Writes a format once, after so many characters that are used up. -/
def pass (r : PrintfRules) : Nat → Octets → Prints Unit
  | _, [] => return
  | used + 1, _ :: cs => r.pass used cs
  | 0, c :: cs => do
    if (← get).ended then return
    else if c = '\\' then
      match r.escapes.next cs with
      | .text out used =>
        write out
        r.pass used cs
      | .stop => modify fun p => { p with ended := true }
      | .wrong message => r.fail message.toList
    else if c = '%' then
      let d := r.directive cs
      let source := '%' :: cs.take d.length
      match d.conversion with
      | none => r.fail (r.noConversion source)
      | some conversion =>
        if conversion = '%' && d.bare then
          write ['%']
          r.pass 1 cs
        else if r.allows d conversion then
          r.perform d conversion
          r.pass d.length cs
        else r.fail (source ++ ": ".toList ++ r.badDirective.toList)
    else
      write [c]
      r.pass 0 cs

/-- Writes a format as long as it takes arguments. -/
def passes (r : PrintfRules) (format : Octets) : Nat → Prints Unit
  | 0 => return
  | n + 1 => do
    let before := (← get).args.length
    r.pass 0 format
    let p ← get
    if !p.ended && !p.args.isEmpty && p.args.length < before then r.passes format n

/-- Writes a format with arguments: what is written, the messages and the status. -/
def print (r : PrintfRules) (format : Octets) (args : List Octets) : Printing :=
  let p := ((r.passes format (args.length + 1)).run ⟨args, [], [], 0, false⟩).2
  match p.args with
  | argument :: _ =>
    if r.standard && !p.ended then
      { p with messages := p.messages ++ r.lead ++
          "warning: ignoring excess arguments, starting with ".toList ++ Octets.quoted argument ++
          ['\n'] }
    else p
  | [] => p

end PrintfRules

end QueryPlayground.Program
