import QueryPlayground.Program.Shell.Condition
import QueryPlayground.Program.Shell.State
import QueryPlayground.Program.Tool.Echo

/-!
# Commands of the shell itself

The commands that a shell runs by itself and that run no other commands. Some are special: an error in
one of those ends the shell.
-/

namespace QueryPlayground.Program.Shell.Builtin

/-! ## §1 Arguments -/

/-- The number that an argument must be. -/
def number (arg : Octets) : Step Nat :=
  if !arg.isEmpty && arg.all Char.isDigit then return Octets.natOf 10 arg
  else fail ("Illegal number: ".toList ++ arg)

/-- The number of the first argument, if there is one. -/
def numberOr (default : Nat) (args : List Octets) : Step Nat :=
  match args with
  | [] => return default
  | arg :: _ => number arg

/-- The status of a number. -/
def statusOf (n : Nat) : Nat :=
  n % 256

/-! ## §2 Writing and deciding -/

/-- Writes to the standard output. -/
def write (text : Octets) (status : Nat) : Step Nat := do
  if text.isEmpty then return status
  else
    match ← perform (emitTo 1 text) with
    | none => return status
    | some _ =>
      warn ((← get).command.getD [] ++ ": I/O error".toList)
      return 1

/-- Writes the arguments. -/
def echo (args : List Octets) : Step Nat :=
  write (Echo.shellLine args) 0

/-- Writes the arguments under a format. -/
def printf (args : List Octets) : Step Nat := do
  match args with
  | ('-' :: c :: rest) :: others =>
    if c = '-' && rest.isEmpty then
      match others with
      | format :: args => go format args
      | [] => fail "usage: printf format [arg ...]".toList
    else fail ("Illegal option -".toList ++ [c])
  | format :: args => go format args
  | [] => fail "usage: printf format [arg ...]".toList
where
  /-- Writes the arguments under a format. -/
  go (format : Octets) (args : List Octets) : Step Nat := do
    let p := (PrintfRules.shell (← get).lead).print format args
    perform (complainOctets p.messages)
    write p.out.reverse.flatten p.status

/-- What a condition may ask about files. -/
def facts (c : Console) : Condition.Facts :=
  let found (file : Octets) : Except FileProblem Bytes := c.files (Octets.toText file)
  let isDevice (file : Octets) : Bool :=
    (device? file).isSome || (descriptorNumber? file).isSome
  let content (file : Octets) : Option Nat :=
    match c.written.lookup file with
    | some i => some (c.writtenTo i).length
    | none => (found file).toOption.map List.length
  let isFolder (file : Octets) : Bool := match found file with
    | .error .isADirectory => true
    | _ => false
  { isThere := fun file => isDevice file || isFolder file || (content file).isSome
    isFolder := isFolder
    isPlain := fun file => (content file).isSome
    isFilled := fun file => isFolder file || (content file).any (0 < ·) }

/-- Decides a condition. -/
def test (args : List Octets) : Step Nat := do
  match Condition.decideAll (facts (← get).console) args with
  | .ok true => return 0
  | .ok false => return 1
  | .error message => fail message

/-- Decides a condition in brackets. -/
def bracket (args : List Octets) : Step Nat :=
  if args.getLast? == some [']'] then test args.dropLast else fail "missing ]".toList

/-! ## §3 Reading -/

/-- The characters of a line and whether each is protected by a backslash; whether the line goes on. -/
def protect (raw : Bool) : Octets → List (Char × Bool) × Bool
  | [] => ([], false)
  | [c] => if c = '\\' && !raw then ([], true) else ([(c, false)], false)
  | c :: d :: cs =>
    if c = '\\' && !raw then
      let (rest, more) := protect raw cs
      ((d, true) :: rest, more)
    else
      let (rest, more) := protect raw (d :: cs)
      ((c, false) :: rest, more)

/-- Reads a line over several lines; the fuel bounds their number. -/
def readLine (i : Nat) (raw : Bool) : Nat → Step (List (Char × Bool) × Bool)
  | 0 => return ([], false)
  | fuel + 1 => do
    match ← perform (takeLine i) with
    | .error _ => return ([], false)
    | .ok line =>
      let complete := line.getLast? == some '\n'
      let (cs, more) := protect raw (if complete then line.dropLast else line)
      if more && complete then
        let (rest, complete) ← readLine i raw fuel
        return (cs ++ rest, complete)
      else return (cs, complete)

/-- Whether a character separates fields. -/
def separates (separators : Octets) (c : Char × Bool) : Bool :=
  !c.2 && separators.contains c.1

/-- Whether a character is white space that separates fields. -/
def isBlankSeparator (separators : Octets) (c : Char × Bool) : Bool :=
  separates separators c && Octets.isSpace c.1

/-- Deals out a line to so many variables; the last one gets the rest. -/
def deal (separators : Octets) : Nat → List (Char × Bool) → List Octets
  | 0, _ => []
  | 1, cs =>
    let cs := cs.dropWhile (isBlankSeparator separators)
    [((cs.reverse.dropWhile (isBlankSeparator separators)).reverse).map Prod.fst]
  | n + 2, cs =>
    let cs := cs.dropWhile (isBlankSeparator separators)
    let field := cs.takeWhile (!separates separators ·)
    let rest := (cs.dropWhile (!separates separators ·)).dropWhile (isBlankSeparator separators)
    let rest := match rest with
      | c :: others => if separates separators c then others else rest
      | [] => []
    field.map Prod.fst :: deal separators (n + 1) rest

/-- Reads a line into variables. -/
def readVariables (args : List Octets) : Step Nat := do
  let raw := args.head? == some ['-', 'r']
  let names := if raw then args.drop 1 else args
  match names.find? (!isName ·) with
  | some name =>
    if name.head? == some '-' then fail ("Illegal option ".toList ++ name.take 2)
    else fail (name ++ ": bad variable name".toList)
  | none =>
    if names.isEmpty then fail "arg count".toList
    else
      let s ← get
      let (line, complete) ← match s.descriptors.lookup 0 with
        | some i => readLine i raw 1000
        | none => pure ([], false)
      for (name, value) in names.zip (deal s.separators names.length line) do
        modify fun s => s.assign name value
      return if complete then 0 else 1

/-! ## §4 Variables and arguments -/

def optionLetters : List Char :=
  "efIimnsxvVEabu".toList

/-- Sets an option or takes it back. -/
def setOption (on : Bool) (c : Char) (s : State) : State :=
  { s with options := (s.options.filter (· ≠ c)) ++ if on then [c] else [] }

/-- Sets options and arguments. -/
def setAll : List Octets → Step Nat
  | [] => return 0
  | ['-', '-'] :: rest => do
    modify fun s => { s with args := rest }
    return 0
  | (sign :: letters) :: rest => do
    if (sign = '-' || sign = '+') && !letters.isEmpty then
      for c in letters do
        if optionLetters.contains c then modify (setOption (sign = '-') c)
        else fail ("Illegal option -".toList ++ [c])
      setAll rest
    else
      modify fun s => { s with args := (sign :: letters) :: rest }
      return 0
  | args => do
    modify fun s => { s with args := args }
    return 0

/-- Takes the first arguments away. -/
def shift (args : List Octets) : Step Nat := do
  let n ← numberOr 1 args
  let s ← get
  if s.args.length < n then fail "can't shift that many".toList
  else
    set { s with args := s.args.drop n }
    return 0

/-- The name and the value of an argument that is an assignment. -/
def assignmentOf (arg : Octets) : Octets × Option Octets :=
  match arg.dropWhile (· ≠ '=') with
  | _ :: value => (arg.takeWhile (· ≠ '='), some value)
  | [] => (arg, none)

/-- Marks variables for programs. -/
def exportAll (args : List Octets) : Step Nat := do
  for arg in args do
    if arg != ['-', 'p'] then
      let (name, value) := assignmentOf arg
      if !isName name then fail (name ++ ": bad variable name".toList)
      if let some value := value then modify fun s => s.assign name value
      modify fun s => { s with exported := name :: s.exported }
  return 0

/-- Gives variables values, as constants or inside a function. -/
def declare (own : Bool) (args : List Octets) : Step Nat := do
  if own && (← get).locals.isNone then fail "not in a function".toList
  for arg in args do
    let (name, value) := assignmentOf arg
    if own then
      modify fun s =>
        { s with locals := s.locals.map fun ls => (name, s.value? name) :: ls }
    if let some value := value then modify fun s => s.assign name value
  return 0

/-- Takes variables or functions away. -/
def unset (args : List Octets) : Step Nat := do
  match args with
  | ['-', 'f'] :: names =>
    modify fun s => { s with functions := s.functions.filter fun f => !names.contains f.1 }
  | ['-', 'v'] :: names => for name in names do modify fun s => s.forget name
  | names => for name in names do modify fun s => s.forget name
  return 0

/-! ## §5 Leaving -/

/-- Leaves the shell. -/
def exit (args : List Octets) : Step Nat := do
  let n ← numberOr (← get).status args
  throw (.exit (statusOf n))

/-- Leaves a function. -/
def back (args : List Octets) : Step Nat := do
  let n ← numberOr (← get).status args
  throw (.back (statusOf n))

/-- Leaves loops, or goes on with one. -/
def leaveLoops (leave : Nat → Leave) (args : List Octets) : Step Nat := do
  let n ← numberOr 1 args
  let around := (← get).loops
  if n = 0 then fail ("Illegal number: ".toList ++ args.headD [])
  else if around = 0 then return 0
  else throw (leave (min n around))

/-! ## §6 Signals -/

/-- The number of a signal by its name or number. -/
def signal? (cs : Octets) : Option Nat :=
  if !cs.isEmpty && cs.all Char.isDigit then
    let n := Octets.natOf 10 cs
    if n < 65 then some n else none
  else
    let name := String.ofList (cs.map Char.toUpper)
    if name == "EXIT" then some 0 else (Ending.signalNames.findIdx? (· == name)).map (· + 1)

/-- What a process does on a signal by itself. -/
inductive Reaction where
  | ends
  | nothing
  /-- It stops and does not go on. -/
  | stops
  deriving DecidableEq

def reaction (signal : Nat) : Reaction :=
  if [0, 17, 18, 23, 28].contains signal then .nothing
  else if [19, 20, 21, 22].contains signal then .stops
  else .ends

/-- What is asked of `kill`. -/
inductive Kill where
  /-- The names of signals. -/
  | list (args : List Octets)
  | send (signal : Nat) (processes : List Octets)
  /-- Nothing that makes sense. -/
  | wrong (message : String)

/-- How `kill` is used. -/
def killUsage : String :=
  "Usage: kill [-s sigspec | -signum | -sigspec] [pid | job]... or\nkill -l [exitstatus]"

/-- What the arguments ask of `kill`. -/
def readKill (args : List Octets) : Kill :=
  match args with
  | ['-', 'l'] :: rest => .list rest
  | ['-', '-'] :: rest => .send 15 rest
  | ['-', 's'] :: name :: rest =>
    match signal? name with
    | some n => .send n rest
    | none => .wrong ("invalid signal number or name: " ++ String.ofList name)
  | ('-' :: c :: cs) :: rest =>
    match signal? (c :: cs) with
    | some n => .send n (if rest.head? == some ['-', '-'] then rest.drop 1 else rest)
    | none => .wrong ("Illegal option -" ++ String.ofList [c])
  | rest => .send 15 rest

/-- The names of all signals, or of given ones. -/
def listSignals (args : List Octets) : Step Nat := do
  match args with
  | [] => write ((["EXIT"] ++ Ending.signalNames).flatMap fun n => n.toList ++ ['\n']) 0
  | arg :: _ =>
    let n ← number arg
    let n := if 128 < n then n - 128 else n
    match if n = 0 then some "EXIT" else Ending.signalNames[n - 1]? with
    | some name => write (name.toList ++ ['\n']) 0
    | none => fail ("invalid signal number or exit status: ".toList ++ arg)

/-- Sets what is done on signals. -/
def trap (args : List Octets) : Step Nat := do
  let put (action : Option Octets) (names : List Octets) : Step Nat := do
    let mut status := 0
    for name in names do
      match signal? name with
      | some n =>
        modify fun s =>
          { s with
            traps := (action.map fun a => (n, a)).toList ++ s.traps.filter fun t => t.1 != n }
      | none =>
        warn ("bad trap".toList)
        status := 1
    return status
  match if args.head? == some ['-', '-'] then args.drop 1 else args with
  | [] => return 0
  | [name] => put none [name]
  | action :: names =>
    if (signal? action).isSome && action.all Char.isDigit then put none (action :: names)
    else put (if action == ['-'] then none else some action) names

/-! ## §7 Places and times -/

def changeDirectory (args : List Octets) : Step Nat := do
  match args with
  | [] => return 0
  | place :: _ =>
    if (facts (← get).console).isFolder place then return 0
    else fail ("can't cd to ".toList ++ place)

/-- Waits for all commands in the background. -/
def wait (args : List Octets) : Step Nat := do
  modify fun s =>
    { s with console := { s.console with clock := max s.console.clock s.console.horizon } }
  return if args.isEmpty || args == [(← get).lastBackground] then 0 else 127

/-- The commands of the shell that run no others. -/
def table : List (String × (List Octets → Step Nat)) :=
  [(":", fun _ => return 0), ("true", fun _ => return 0), ("false", fun _ => return 1), ("echo", echo),
    ("printf", printf), ("test", test), ("[", bracket), ("read", readVariables), ("set", setAll),
    ("shift", shift), ("export", exportAll), ("readonly", declare false), ("local", declare true),
    ("unset", unset), ("exit", exit), ("return", back), ("break", leaveLoops .stopLoop),
    ("continue", leaveLoops .nextRound), ("trap", trap), ("cd", changeDirectory), ("wait", wait),
    ("umask", fun _ => write "0022\n".toList 0), ("hash", fun _ => return 0),
    ("alias", fun _ => return 0), ("unalias", fun _ => return 0), ("jobs", fun _ => return 0),
    ("ulimit", fun _ => write "unlimited\n".toList 0),
    ("times", fun _ => write "0m0.00s 0m0.00s\n0m0.00s 0m0.00s\n".toList 0)]

/-- The commands of which an error ends the shell. -/
def special : List String :=
  [".", ":", "break", "continue", "eval", "exec", "exit", "export", "local", "readonly", "return", "set",
    "shift", "times", "trap", "unset"]

/-- The commands of the shell that run others. -/
def runners : List String :=
  ["eval", "exec", "command", ".", "kill", "type"]

/-- Whether a name is that of a command of the shell. -/
def isBuiltin (name : Octets) : Bool :=
  let name := String.ofList name
  (table.lookup name).isSome || runners.contains name

end QueryPlayground.Program.Shell.Builtin
