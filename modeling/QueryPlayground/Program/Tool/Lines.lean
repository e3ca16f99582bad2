import QueryPlayground.Program.Format
import QueryPlayground.Program.Tool.Cat

/-!
# Parts and counts of text

`head` and `tail` write out one end of their files, `wc` counts what is in them, `tee` writes what it
reads to files as well, `seq` writes numbers and `yes` writes the same line again and again.
-/

namespace QueryPlayground.Program

/-! ## §1 One end of a text -/

/-- The lines of a text, each with its end. -/
def linesOf : Octets → List Octets
  | [] => []
  | c :: cs =>
    if c = '\n' then ['\n'] :: linesOf cs
    else
      match linesOf cs with
      | l :: ls => if cs.isEmpty then [[c]] else (c :: l) :: ls
      | [] => [[c]]

/-- What a text is counted in. -/
inductive Piece where
  | lines
  | bytes
  deriving DecidableEq

/-- The units of a text. -/
def Piece.split : Piece → Octets → List Octets
  | lines, cs => linesOf cs
  | bytes, cs => cs.map ([·])

/-- The name of a unit in a message. -/
def Piece.name : Piece → String
  | lines => "lines"
  | bytes => "bytes"

/-- A number of units: with its sign, and what it is. -/
structure Extent where
  unit : Piece
  /-- The sign, if there is one. -/
  sign : Option Char
  /-- The number. -/
  count : Nat

def factor? (suffix : Octets) : Option Nat :=
  match suffix with
  | [] => some 1
  | ['b'] => some 512
  | ['k'] => some 1024
  | ['K'] => some 1024
  | ['M'] => some (1024 * 1024)
  | _ => none

/-- The extent that a text stands for. -/
def Extent.read? (unit : Piece) (cs : Octets) : Option Extent :=
  let sign := match cs with
    | '-' :: _ => some '-'
    | '+' :: _ => some '+'
    | _ => none
  let body := if sign.isSome then cs.drop 1 else cs
  let ds := body.takeWhile Char.isDigit
  if ds.isEmpty then none
  else (factor? (body.dropWhile Char.isDigit)).map fun f => ⟨unit, sign, Octets.natOf 10 ds * f⟩

/-- The first units of a text, or with a minus sign all but the last. -/
def Extent.first (e : Extent) (cs : Octets) : Octets :=
  let units := e.unit.split cs
  (units.take (if e.sign = some '-' then units.length - e.count else e.count)).flatten

/-- The last units of a text, or with a plus sign those from the given one on. -/
def Extent.last (e : Extent) (cs : Octets) : Octets :=
  let units := e.unit.split cs
  (units.drop (if e.sign = some '+' then e.count - 1 else units.length - e.count)).flatten

/-- The bytes that a program reads at once. -/
def blockSize : Nat := 8192

/-- Reads block by block until there is enough; an endless stream gives as many as the fuel. -/
def takeBlocks (i : Nat) (enough : Octets → Bool) : Nat → Octets → Task (Except StreamProblem Octets)
  | 0, before => return .ok before
  | fuel + 1, before => do
    if enough before then return .ok before
    else
      match ← takeAtMost i blockSize with
      | .error problem => return .error problem
      | .ok [] => return .ok before
      | .ok text => takeBlocks i enough fuel (before ++ text)

/-- The number of lines in a text. -/
def lineCount (cs : Octets) : Nat :=
  cs.count '\n'

/-- Reads what is needed for the first units. -/
def Extent.takeFirst (e : Extent) (i : Nat) : Task (Except StreamProblem Octets) := do
  if e.sign = some '-' then return (← takeAll i).map e.first
  else
    match e.unit with
    | .bytes => takeAtMost i e.count
    | .lines =>
      return (← takeBlocks i (fun cs => e.count ≤ lineCount cs) (e.count + 1) []).map e.first

/-- Reads what is needed for the last units. -/
def Extent.takeLast (e : Extent) (i : Nat) : Task (Except StreamProblem Octets) := do
  return (← takeAll i).map e.last

/-- The options of `head` and `tail`. -/
def endOptions : OptionRules :=
  { letters := [('n', true), ('c', true), ('q', false), ('v', false)]
    names := [("lines", 'n'), ("bytes", 'c'), ("quiet", 'q'), ("silent", 'q'), ("verbose", 'v')] }

/-- An argument in the short form, which is a number of lines behind a sign, in the long one. -/
def withoutShortForm (args : List Octets) : List Octets :=
  match args with
  | (sign :: d :: ds) :: rest =>
    if sign = '-' && (d :: ds).all Char.isDigit then ['-', 'n'] :: (d :: ds) :: rest else args
  | _ => args

/-- The extent that the options ask for, or the argument that is none. -/
def extentOf (a : Arguments) : Except Octets Extent :=
  let given := a.chosen.reverse.findSome? fun o => match o with
    | .letter 'n' v => some (Piece.lines, v)
    | .letter 'c' v => some (Piece.bytes, v)
    | _ => none
  match given with
  | none => .ok ⟨.lines, none, 10⟩
  | some (unit, v) =>
    match Extent.read? unit v with
    | some e => .ok e
    | none => .error ("invalid number of ".toList ++ unit.name.toList ++ ": ".toList ++ Octets.quoted v)

/-- The name of a file in a message or a heading. -/
def titleOf (file : Octets) : Octets :=
  if file == ['-'] then "standard input".toList else file

/-- Writes one end of each file. -/
def writeEnds (name : Octets) (ofStream : Nat → Task (Except StreamProblem Octets))
    (headings : Bool) : Bool → List Octets → Task (Octets × Bool)
  | _, [] => return ([], true)
  | first, file :: files => do
    let stream ← if file == ['-'] then (do return .ok (← streamOf 0))
      else (do return (← openToRead file).map some)
    match stream with
    | .ok none =>
      complainAs name ("error reading ".toList ++ Octets.quoted (titleOf file) ++
        ": Bad file descriptor".toList)
      complainAs name "-: Bad file descriptor".toList
      return ((← writeEnds name ofStream headings first files).1, false)
    | .error problem =>
      complainAs name ("cannot open ".toList ++ Octets.quoted (titleOf file) ++
        " for reading: ".toList ++ problem.message.toList)
      return ((← writeEnds name ofStream headings first files).1, false)
    | .ok (some i) =>
      let heading := if headings then
          (if first then [] else ['\n']) ++ "==> ".toList ++ titleOf file ++ " <==\n".toList
        else []
      match ← ofStream i with
      | .error problem =>
        complainAs name ("error reading ".toList ++ Octets.quoted (titleOf file) ++ ": ".toList ++
          problem.message.toList)
        return (heading ++ (← writeEnds name ofStream headings false files).1, false)
      | .ok text =>
        let (rest, complete) ← writeEnds name ofStream headings false files
        return (heading ++ text ++ rest, complete)

/-- The programs `head` and `tail`. -/
def runEnd (take : Extent → Nat → Task (Except StreamProblem Octets)) (name : Octets)
    (args : List Octets) : Task Finish := do
  match endOptions.arguments (withoutShortForm args) with
  | .error message => misused name message
  | .ok a =>
    if a.asksAbout then usage name
    else
      match extentOf a with
      | .error message =>
        complainAs name message
        finish 1
      | .ok e =>
        let files := if a.operands.isEmpty then [['-']] else a.operands
        let headings := a.has 'v' || (1 < files.length && !a.has 'q')
        let (text, complete) ← writeEnds name (take e) headings true files
        conclude name text (if complete then 0 else 1)

/-! ## §2 Counts -/

/-- The number of words in a text. -/
def wordCount (cs : Octets) : Nat :=
  (cs.foldl (fun (n, inside) c =>
    if Octets.isSpace c then (n, false) else if inside then (n, true) else (n + 1, true))
    (0, false)).1

/-- The options of `wc`. -/
def countOptions : OptionRules :=
  { letters := "lwmc".toList.map fun c => (c, false)
    names := [("lines", 'l'), ("words", 'w'), ("chars", 'm'), ("bytes", 'c')] }

/-- The counts that are asked for, in the order in which they are written. -/
def countsOf (a : Arguments) (text : Octets) : List Nat :=
  let all := [('l', lineCount text), ('w', wordCount text), ('m', text.length), ('c', text.length)]
  if a.chosen.isEmpty then [lineCount text, wordCount text, text.length]
  else (all.filter fun (c, _) => a.has c).map Prod.snd

/-- A row of counts, each in a column of the given width. -/
def countRow (width : Nat) (counts : List Nat) (label : Octets) : Octets :=
  let column (n : Nat) : Octets := (Field.mk [] width none).text (Octets.ofNat n)
  [' '].intercalate (counts.map column) ++ (if label.isEmpty then [] else ' ' :: label) ++ ['\n']

/-- The least width of a column where not all sizes are known beforehand. -/
def unknownWidth : Nat := 7

/-- The texts of files with their names, and whether all could be read; nothing if one has no end. -/
def readEach (name : Octets) : List Octets → Task (Option (List (Octets × Octets) × Bool))
  | [] => return some ([], true)
  | file :: files => do
    match ← Cat.content name file with
    | none => return none
    | some text =>
      match ← readEach name files with
      | none => return none
      | some (rest, complete) =>
        return some (text.toList.map (fun t => (file, t)) ++ rest, complete && text.isSome)

/-- The program `wc`. -/
def runCounts (name : Octets) (args : List Octets) : Task Finish := do
  match countOptions.arguments args with
  | .error message => misused name message
  | .ok a =>
    if a.asksAbout then usage name
    else
      let files := if a.operands.isEmpty then [['-']] else a.operands
      match ← readEach name files with
      | none => return none
      | some (texts, complete) =>
        let rows := texts.map fun (file, text) =>
          (countsOf a text, if a.operands.isEmpty then [] else file)
        let sums := (rows.map Prod.fst).foldl (fun s r => if s.isEmpty then r else s.zipWith (· + ·) r) []
        let rows := if 1 < files.length then rows ++ [(sums, "total".toList)] else rows
        let width :=
          if files.length = 1 && sums.length = 1 then 1
          else if files.contains ['-'] then unknownWidth
          else (Octets.ofNat (texts.foldl (fun n t => n + t.2.length) 0)).length
        conclude name (rows.flatMap fun (counts, label) => countRow width counts label)
          (if complete then 0 else 1)

/-! ## §3 Copies, numbers and repeated lines -/

/-- The decimal integer that is a whole text. -/
def wholeInteger? (cs : Octets) : Option Int :=
  let number (ds : Octets) : Option Int :=
    if ds.isEmpty || !ds.all Char.isDigit then none else some (Octets.natOf 10 ds)
  match cs with
  | '-' :: ds => (number ds).map Neg.neg
  | '+' :: ds => number ds
  | ds => number ds

/-- The numbers from one to another in steps. -/
def stepsBetween (low step high : Int) : List Int :=
  if step = 0 then []
  else
    let count := (Int.fdiv (high - low) step + 1).toNat
    (List.range count).map fun (k : Nat) => low + step * (k : Int)

/-- The program `seq`, for integers. -/
def runSequence (name : Octets) (args : List Octets) : Task Finish := do
  match args.find? fun arg => (wholeInteger? arg).isNone with
  | some bad => misused name ("invalid floating point argument: ".toList ++ Octets.quoted bad)
  | none =>
    let lines (ns : List Int) : Octets := ns.flatMap fun n => Octets.ofInt n ++ ['\n']
    match args.filterMap wholeInteger? with
    | [] => misused name "missing operand".toList
    | [high] => conclude name (lines (stepsBetween 1 1 high)) 0
    | [low, high] => conclude name (lines (stepsBetween low 1 high)) 0
    | [low, step, high] =>
      if step = 0 then
        misused name ("invalid Zero increment value: ".toList ++ Octets.quoted ((args.drop 1).headD []))
      else conclude name (lines (stepsBetween low step high)) 0
    | _ => misused name ("extra operand ".toList ++ Octets.quoted ((args.drop 3).headD []))

/-- Opens files for writing: the streams of those that could be opened, and whether all could. -/
def openEach (name : Octets) (atEnd : Bool) : List Octets → Task (List Nat × Bool)
  | [] => return ([], true)
  | file :: files => do
    let opened ← openToWrite file atEnd
    let (streams, complete) ← openEach name atEnd files
    match opened with
    | .ok i => return (i :: streams, complete)
    | .error problem =>
      complainAs name (Octets.asName file ++ ": ".toList ++ problem.message.toList)
      return (streams, false)

/-- The program `tee`: it writes what it reads to files as well. -/
def runTee (name : Octets) (args : List Octets) : Task Finish := do
  match (OptionRules.mk [('a', false), ('i', false), ('p', false)] [("append", 'a')]).arguments args with
  | .error message => misused name message
  | .ok a =>
    if a.asksAbout then usage name
    else
      let (streams, complete) ← openEach name (a.has 'a') a.operands
      match ← Cat.content name ['-'] with
      | none => return none
      | some text =>
        let text := text.getD []
        for i in streams do
          withReader (fun ds => (1000, i) :: ds) (do let _ ← emitTo 1000 text)
        conclude name text (if complete then 0 else 1)

/-- The program `yes`: it ends when the program that reads its lines does, and else never. -/
def runYes (args : List Octets) : Task Finish := do
  let line := [' '].intercalate (if args.isEmpty then [['y']] else args) ++ ['\n']
  match ← streamOf 1 with
  | some i =>
    if i < 3 then return none
    else
      modify fun c => c.put i (.endless line)
      return some (.signalled 13)
  | none => return some (.exited 1)

end QueryPlayground.Program
