import QueryPlayground.Program.Escape
import QueryPlayground.Program.Tool.Options
import QueryPlayground.Program.Tool.Printf

/-!
# Writing arguments

`echo` writes its arguments on one line, `printf` writes them under a format. `true` and `false` write
nothing and ignore what they are given.
-/

namespace QueryPlayground.Program

namespace Echo

/-- Arguments with blanks between them. -/
def joined (args : List Octets) : Octets :=
  [' '].intercalate args

/-- Whether an argument is an option: letters of the known ones behind a dash. -/
def isOption (arg : Octets) : Bool :=
  match arg with
  | '-' :: c :: cs => (c :: cs).all "neE".toList.contains
  | _ => false

/-- What is written for arguments. -/
def line (args : List Octets) : Octets :=
  let letters := (args.takeWhile isOption).flatMap fun arg => arg.drop 1
  let ending := if letters.contains 'n' then [] else ['\n']
  let text := joined (args.dropWhile isOption)
  if (letters.filter (· ≠ 'n')).getLast? == some 'e' then
    let e := EscapeRules.echo.expand 0 text
    if e.stopped then e.text else e.text ++ ending
  else text ++ ending

def run (name : Octets) (args : List Octets) : Task Finish :=
  if args == ["--help".toList] || args == ["--version".toList] then usage name
  else conclude name (line args) 0

/-- What is written for arguments inside a shell: escapes are always read. -/
def shellLine (args : List Octets) : Octets :=
  let quiet := args.head? == some ['-', 'n']
  let e := EscapeRules.shellEcho.expand 0 (joined (if quiet then args.drop 1 else args))
  if e.stopped || quiet then e.text else e.text ++ ['\n']

end Echo

def Printf.run (name : Octets) (args : List Octets) : Task Finish := do
  if args == ["--help".toList] || args == ["--version".toList] then usage name
  else
    match if args.head? == some ['-', '-'] then args.drop 1 else args with
    | [] => misused name "missing operand".toList
    | format :: args =>
      let p := ({ PrintfRules.program with lead := name ++ ": ".toList }).print format args
      complainOctets p.messages
      conclude name p.out.reverse.flatten p.status

/-- The programs `true` and `false`. -/
def Constant.run (status : Nat) (name : Octets) (args : List Octets) : Task Finish := do
  if args == ["--help".toList] || args == ["--version".toList] then
    let _ ← usage name
  finish status

end QueryPlayground.Program
