import QueryPlayground.Program.Format
import QueryPlayground.Program.Tool.Options

/-!
# Waiting

`sleep` waits for the sum of the times it is given: numbers of seconds, or of what a suffix says.
-/

namespace QueryPlayground.Program.Sleep

/-- A time to wait, in milliseconds; without an end it is nothing. -/
abbrev Wait := Option Nat

def suffixSeconds? (suffix : Octets) : Option Nat :=
  match suffix with
  | [] => some 1
  | ['s'] => some 1
  | ['m'] => some 60
  | ['h'] => some 3600
  | ['d'] => some 86400
  | _ => none

/-- The milliseconds of a fraction of a second, rounded up. -/
def milliseconds (num den seconds : Nat) : Nat :=
  (num * seconds * 1000 + den - 1) / den

/-- Whether a text is a name of infinity. -/
def isInfinity (cs : Octets) : Bool :=
  let cs := (if cs.head? == some '+' then cs.drop 1 else cs).map Char.toLower
  cs == "inf".toList || cs == "infinity".toList

/-- The time that an argument stands for. -/
def wait? (arg : Octets) : Option Wait :=
  let hexadecimal := match arg.map Char.toLower with
    | '0' :: 'x' :: _ => true
    | _ => false
  if isInfinity arg then some none
  else if hexadecimal then
    (Octets.unsigned? arg).bind fun (n, rest) =>
      (suffixSeconds? rest).map fun s => some (milliseconds n 1 s)
  else
    (Octets.double? arg).bind fun (x, rest) =>
      if x.negative && !x.isZero then none
      else (suffixSeconds? rest).map fun s => some (milliseconds x.weight Decimal.Double.unit s)

/-- The sum of times. -/
def total (waits : List Wait) : Wait :=
  waits.foldl (fun a b => a.bind fun x => b.map (x + ·)) (some 0)

def run (name : Octets) (args : List Octets) : Task Finish := do
  match (OptionRules.mk [] []).arguments args with
  | .error message => misused name message
  | .ok a =>
    if a.asksAbout then usage name
    else if args.isEmpty then misused name "missing operand".toList
    else
      match a.operands.filter fun arg => (wait? arg).isNone with
      | [] =>
        match total (a.operands.filterMap wait?) with
        | some n =>
          modify fun c => { c with clock := c.clock + n }
          finish 0
        | none => return none
      | bad =>
        for arg in bad do
          complainAs name ("invalid time interval ".toList ++ Octets.quoted arg)
        complainOctets (tryHelp name)
        finish 1

end QueryPlayground.Program.Sleep
