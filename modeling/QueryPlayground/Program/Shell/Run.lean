import QueryPlayground.Program.Shell.Builtin
import QueryPlayground.Program.Shell.Effect

/-!
# Running scripts

Words are expanded and commands run by one recursion, since words hold commands; its fuel bounds how
deep commands, functions and shells are nested. A command in a shell of its own runs on a copy of the
state, of which only the console is kept. Commands of a pipeline run one after the other but start at
the same time.

The shell belongs to the outermost layer: it is there for commands that are run, and no result is about
it.
-/

namespace QueryPlayground.Program.Shell

/-! ## §1 Expansions and commands -/

mutual

/-- The pieces of a part of a word; `inside` says whether the word itself comes from an expansion. -/
def expandPart : Nat → Bool → Part → Step (List Piece)
  | 0, _, _ => throw .never
  | fuel + 1, inside, part => do
    match part with
    | .char c quoted => return [.char c quoted (inside && !quoted)]
    | .quotes => return [.here]
    | .meaningless => fail "Bad substitution".toList
    | .arithmetic body quoted =>
      return valuePieces quoted (← calculate (textOf (← expandParts fuel false body)))
    | .output body quoted =>
      return valuePieces quoted (withoutBreaks (← capture fuel body))
    | .parameter name change quoted =>
      let s ← get
      let all := name == ['@'] || name == ['*']
      let value := if all then
          (if s.args.isEmpty then none else some ([' '].intercalate s.args))
        else s.parameter? name
      let whole : List Piece :=
        if all then s.argumentPieces (name == ['*']) quoted else valuePieces quoted (value.getD [])
      let isUnset (filled : Bool) : Bool := value.isNone || (filled && value.any (·.isEmpty))
      let word (w : Word) : Step (List Piece) := do
        return (if quoted then [.here] else []) ++ (← expandParts fuel true w)
      match change with
      | .keep =>
        if value.isNone && !all && s.has 'u' then fail (unsetMessage name [])
        return whole
      | .length =>
        if value.isNone && !all && s.has 'u' then fail (unsetMessage name [])
        return valuePieces quoted (Octets.ofNat (value.getD []).length)
      | .orElse filled w => if isUnset filled then word w else return whole
      | .instead filled w => if isUnset filled then return valuePieces quoted [] else word w
      | .require filled w =>
        if isUnset filled then
          let message := textOf (← expandParts fuel false w)
          fail (unsetMessage name (if message.isEmpty && filled then "parameter not set or null".toList
            else message))
        else return whole
      | .assign filled w =>
        if isUnset filled then
          if !isName name then fail (name ++ ": bad variable name".toList)
          let value := textOf (← expandParts fuel false w)
          modify fun s => s.assign name value
          return valuePieces quoted value
        else return whole
      | .cut atEnd longest w =>
        if value.isNone && !all && s.has 'u' then fail (unsetMessage name [])
        let pattern := patternOf (← expandParts fuel false w)
        let text := value.getD []
        return valuePieces quoted
          (if atEnd then Glob.cutEnd pattern longest text else Glob.cutStart pattern longest text)

def expandParts : Nat → Bool → Word → Step (List Piece)
  | 0, _, _ => throw .never
  | fuel + 1, inside, w => do
    let pieces ← w.mapM (expandPart fuel inside)
    return pieces.flatten

/-- What a command writes, in a shell of its own. -/
def capture : Nat → Command → Step Octets
  | 0, _ => throw .never
  | fuel + 1, body => do
    let before := (← get).status
    let i ← perform (addStream (.sink []))
    let ds := (1, i) :: (← get).descriptors.filter fun d => d.1 != 1
    let status ← runApart fuel ds (runCommand fuel false body)
    modify fun s => { s with status := before, substituted := some status }
    return (← get).console.writtenTo i

/-- Runs a step in a shell of its own with descriptors, and sets the status. -/
def runApart : Nat → Descriptors → Step Nat → Step Nat
  | 0, _, _ => throw .never
  | fuel + 1, ds, step => do
    let before ← get
    let (result, after) :=
      ((runToEnd fuel step).run).run { before with traps := [], loops := 0, descriptors := ds }
    set (keepConsole before after)
    match result with
    | .ok status => setStatus status
    | .error e => throw e

/-- Runs a step to the end of its shell, with what is to be done then. -/
def runToEnd : Nat → Step Nat → Step Nat
  | 0, _ => throw .never
  | fuel + 1, step => do
    let ended (step : Step Nat) : Step Nat := do
      try step
      catch
        | .exit status => setStatus status
        | .back status => setStatus status
        | .failed => setStatus errorStatus
        | .stopLoop _ => setStatus 0
        | .nextRound _ => setStatus 0
        | e => throw e
    let status ← ended step
    match (← get).traps.lookup 0 with
    | none => return status
    | some action =>
      modify fun s => { s with traps := s.traps.filter fun t => t.1 != 0, status := status }
      ended (do
        let _ ← runText fuel action
        return status)

/-- Does redirections, one after the other. -/
def redirectAll : Nat → List Redirection → Step Unit
  | 0, _ => throw .never
  | _, [] => return
  | fuel + 1, .mk descriptor direction target :: rest => do
    redirectTo descriptor direction (textOf (← expandParts fuel false target))
    redirectAll fuel rest

/-- Runs a command; `tested` says whether its failure is provided for. -/
def runCommand : Nat → Bool → Command → Step Nat
  | 0, _, _ => throw .never
  | fuel + 1, tested, c => do
    /- A failure ends a shell that is told so. -/
    let checked (status : Nat) : Step Nat := do
      let status ← setStatus status
      if status ≠ 0 && !tested && (← get).has 'e' then throw (.exit status)
      return status
    match c with
    | .nothing => return (← get).status
    | .sequence first second =>
      let _ ← runCommand fuel tested first
      runCommand fuel tested second
    | .andThen first second =>
      let status ← runCommand fuel true first
      if status = 0 then runCommand fuel tested second else return status
    | .orElse first second =>
      let status ← runCommand fuel true first
      if status = 0 then return status else runCommand fuel tested second
    | .negated body =>
      let status ← runCommand fuel true body
      setStatus (if status = 0 then 1 else 0)
    | .choose condition yes no =>
      let status ← runCommand fuel true condition
      if status = 0 then runCommand fuel tested yes
      else
        match no with
        | .nothing => setStatus 0
        | no => runCommand fuel tested no
    | .loop wanted condition body =>
      let round : Step (Option Nat) := inLoop do
        let entered ← get
        let result ← loopBody (runCommand fuel true condition)
        match result with
        | some status => return some status
        | none =>
          let status := (← get).status
          if (status = 0) != wanted then return some entered.status
          else
            modify fun s => { s with status := entered.status }
            loopBody (runCommand fuel tested body)
      modify fun s => { s with status := 0 }
      let status ← ofFunction (rounds (fun s => (round.run).run s) roundBound)
      setStatus status
    | .each line name words body =>
      modify fun s => { s with line := line }
      let values ← match words with
        | none => pure (← get).args
        | some ws => expandFields fuel ws
      let round (value : Octets) : Step (Option Nat) := inLoop do
        modify fun s => s.assign name value
        loopBody (runCommand fuel tested body)
      modify fun s => { s with status := 0 }
      let status ← ofFunction (roundsFor (fun value s => ((round value).run).run s) values)
      setStatus status
    | .select line word clauses =>
      modify fun s => { s with line := line }
      let text := textOf (← expandParts fuel false word)
      selectClause fuel tested text clauses
    | .define name body =>
      modify fun s => { s with functions := (name, body) :: s.functions }
      setStatus 0
    | .subshell line body rs =>
      modify fun s => { s with line := line }
      let status ← runApart fuel (← get).descriptors do
        redirectAll fuel rs
        runCommand fuel tested body
      checked status
    | .redirected line body rs =>
      modify fun s => { s with line := line }
      let before := (← get).descriptors
      let opened ← (do
        try
          redirectAll fuel rs
          return true
        catch
          | .failed => return false
          | e => throw e)
      if opened then
        followedBy (fun s => { s with descriptors := before }) (runCommand fuel tested body)
      else
        modify fun s => { s with descriptors := before }
        checked errorStatus
    | .background body =>
      let started := (← get).console.clock
      let input ← perform (addStream .void)
      let ds := (0, input) :: (← get).descriptors.filter fun d => d.1 != 0
      let _ ← runApart fuel ds (runCommand fuel tested body)
      modify fun s =>
        { s with
          lastBackground := Octets.ofNat (State.processNumber + 1)
          console := { s.console with
            clock := started, horizon := max s.console.horizon s.console.clock } }
      setStatus 0
    | .pipeline commands =>
      let started := (← get).console.clock
      let status ← runPipeline fuel tested started none commands
      checked status
    | .simple line assignments words rs =>
      modify fun s => { s with line := line }
      let status ← runSimple fuel assignments words rs
      checked status

/-- Runs the first clause of which a pattern matches a text. -/
def selectClause : Nat → Bool → Octets → List (List Word × Command) → Step Nat
  | 0, _, _, _ => throw .never
  | _, _, _, [] => setStatus 0
  | fuel + 1, tested, text, (patterns, body) :: rest => do
    let mut found := false
    for p in patterns do
      if !found then
        let pattern := patternOf (← expandParts fuel false p)
        found := Glob.isMatch pattern text
    if found then
      match body with
      | .nothing => setStatus 0
      | body => runCommand fuel tested body
    else selectClause fuel tested text rest

def expandFields : Nat → List Word → Step (List Octets)
  | 0, _ => throw .never
  | fuel + 1, ws => do
    let fields ← ws.mapM fun w => do
      let pieces ← expandParts fuel false w
      return fieldsOf (← get).separators pieces
    return fields.flatten

/-- Runs the commands of a pipeline, each from the time at which it started, with what the one before
wrote as its input. -/
def runPipeline : Nat → Bool → Nat → Option Nat → List Command → Step Nat
  | 0, _, _, _, _ => throw .never
  | _ + 1, _, _, _, [] => do return (← get).status
  | fuel + 1, tested, started, input, c :: rest => do
    let ended := (← get).console.clock
    let before := (← get).status
    modify fun s => { s with console := { s.console with clock := started } }
    let output ← if rest.isEmpty then pure none
      else (do return some (← perform (addStream (.sink []))))
    let place (fd : Nat) (stream : Option Nat) (ds : Descriptors) : Descriptors :=
      match stream with
      | some i => (fd, i) :: ds.filter fun d => d.1 != fd
      | none => ds
    let ds := place 1 output (place 0 input (← get).descriptors)
    let status ← runApart fuel ds (runCommand fuel tested c)
    modify fun s =>
      let console := match output with
        | some i => s.console.turn i
        | none => s.console
      { s with console := { console with clock := max ended console.clock } }
    if rest.isEmpty then return status
    else
      let _ ← setStatus before
      runPipeline fuel tested started output rest

/-- Runs a simple command. -/
def runSimple : Nat → List (Octets × Word) → List Word → List Redirection → Step Nat
  | 0, _, _, _ => throw .never
  | fuel + 1, assignments, words, rs => do
    modify fun s => { s with substituted := none }
    let fields ← expandFields fuel words
    let before ← get
    let name := fields.headD []
    let isSpecial := Builtin.special.contains (String.ofList name)
    let isFunction := (before.functions.lookup name).isSome
    let opened ← (do
      try
        redirectAll fuel rs
        return true
      catch
        | .failed => return false
        | e => throw e)
    let restored (s : State) : State := { s with descriptors := before.descriptors }
    if !opened then
      modify restored
      if isSpecial && !isFunction then throw .failed else return errorStatus
    else
      let keepsDescriptors := name == "exec".toList && fields.length ≤ 1
      followedBy (fun s => if keepsDescriptors then s else restored s) do
        let values ← assignments.mapM fun (name, w) => do
          return (name, textOf (← expandParts fuel false w))
        if before.has 'x' then
          let shown := values.map (fun (n, v) => n ++ '=' :: v) ++ fields
          perform (complainOctets ("+ ".toList ++ [' '].intercalate shown ++ ['\n']))
        match fields with
        | [] =>
          for (name, value) in values do modify fun s => s.assign name value
          return (← get).substituted.getD 0
        | name :: args =>
          match before.functions.lookup name with
          | some body =>
            for (name, value) in values do modify fun s => s.assign name value
            callFunction fuel body args
          | none =>
            if Builtin.isBuiltin name then
              let old ← get
              for (name, value) in values do modify fun s => s.assign name value
              if isSpecial then runBuiltin fuel name args
              else
                followedBy
                  (fun s => if values.isEmpty then s
                    else { s with bindings := s.bindings.filter (fun v => !(values.map Prod.fst).contains v.1) ++
                      old.bindings.filter fun v => (values.map Prod.fst).contains v.1 }) do
                  try runBuiltin fuel name args
                  catch
                    | .failed => return errorStatus
                    | e => throw e
            else
              let old ← get
              for (name, value) in values do
                modify fun s => { s.assign name value with exported := name :: s.exported }
              followedBy (fun s => { s with bindings := old.bindings, exported := old.exported })
                (runProgram fuel name args)

def callFunction : Nat → Command → List Octets → Step Nat
  | 0, _, _ => throw .never
  | fuel + 1, body, args => do
    let before ← get
    if State.callLimit ≤ before.calls then
      fail ("Maximum function recursion depth (".toList ++ Octets.ofNat State.callLimit ++
        ") reached".toList)
    modify fun s =>
      { s with args := args, locals := some [], loops := 0, calls := s.calls + 1 }
    let leave (s : State) : State :=
      let s := (s.locals.getD []).foldl (fun s (name, value) =>
        match value with
        | some v => s.assign name v
        | none => s.forget name) s
      { s with
        args := before.args, locals := before.locals, loops := before.loops
        calls := before.calls }
    followedBy leave do
      try runCommand fuel true body
      catch
        | .back status => return status
        | e => throw e

def runProgram : Nat → Octets → List Octets → Step Nat
  | 0, _, _ => throw .never
  | fuel + 1, name, args => do
    match find (← get).console.files (Octets.toText name) with
    | .tool run => runTool run name args
    | .denied => notFound name true
    | .nothing => notFound name false
    | .shell =>
      let s ← get
      let (f, console) := runShell fuel name args s.environment s.descriptors s.console
      set { s with console := console }
      childStatus f

/-- Runs a command of the shell itself. -/
def runBuiltin : Nat → Octets → List Octets → Step Nat
  | 0, _, _ => throw .never
  | fuel + 1, name, args => asCommand name <| do
    match String.ofList name with
    | "eval" =>
      let text := [' '].intercalate args
      runText fuel text
    | "exec" =>
      match args with
      | [] => return 0
      | name :: args =>
        match find (← get).console.files (Octets.toText name) with
        | .tool run =>
          match ← perform (run name args) with
          | none => throw .never
          | some (.exited status) => throw (.exit status)
          | some (.signalled signal) => throw (.killed signal)
        | .denied =>
          let status ← notFound name true
          throw (.exit status)
        | .nothing =>
          let status ← notFound name false
          throw (.exit status)
        | .shell =>
          let s ← get
          let (f, console) := runShell fuel name args s.environment s.descriptors s.console
          set { s with console := console, traps := [] }
          match f with
          | none => throw .never
          | some (.exited status) => throw (.exit status)
          | some (.signalled signal) => throw (.killed signal)
    | "command" =>
      match args with
      | [] => return 0
      | ['-', 'v'] :: names =>
        let name := names.headD []
        if Builtin.isBuiltin name || ((← get).functions.lookup name).isSome then
          Builtin.write (name ++ ['\n']) 0
        else
          match find (← get).console.files (Octets.toText name) with
          | .tool _ | .shell =>
            Builtin.write ((if name.contains '/' then [] else "/usr/bin/".toList) ++ name ++ ['\n']) 0
          | _ => return 127
      | name :: args =>
        if Builtin.isBuiltin name then runBuiltin fuel name args
        else
          modify fun s => { s with command := none }
          runProgram fuel name args
    | "type" =>
      let name := args.headD []
      if Builtin.special.contains (String.ofList name) then
        Builtin.write (name ++ " is a special shell builtin\n".toList) 0
      else if ((← get).functions.lookup name).isSome then
        Builtin.write (name ++ " is a shell function\n".toList) 0
      else if Builtin.isBuiltin name then Builtin.write (name ++ " is a shell builtin\n".toList) 0
      else
        match find (← get).console.files (Octets.toText name) with
        | .tool _ | .shell => Builtin.write (name ++ " is /usr/bin/".toList ++ name ++ ['\n']) 0
        | _ => Builtin.write (name ++ ": not found\n".toList) 127
    | "." =>
      let file := args.headD []
      if args.isEmpty then return 0
      else if !file.contains '/' then fail (file ++ ": not found".toList)
      else
        match ← perform (openToRead file) with
        | .error p => fail (cannotOpen file p)
        | .ok i =>
          match ← perform (takeAll i) with
          | .error _ => return 0
          | .ok text =>
            let line := (← get).line
            try
              let status ← runText fuel text
              modify fun s => { s with line := line }
              return status
            catch
              | .back status => return status
              | e => throw e
    | "kill" =>
      match Builtin.readKill args with
      | .wrong message => fail message.toList
      | .list args => Builtin.listSignals args
      | .send signal processes =>
        if processes.isEmpty then fail Builtin.killUsage.toList
        else sendSignal fuel signal 0 processes
    | other =>
      match Builtin.table.lookup other with
      | some run => run args
      | none => return 0

/-- Sends a signal to processes. -/
def sendSignal : Nat → Nat → Nat → List Octets → Step Nat
  | 0, _, _, _ => throw .never
  | _, _, status, [] => return status
  | fuel + 1, signal, status, process :: rest => do
    let isNumber := !process.isEmpty && process.all Char.isDigit
    if !isNumber then fail ("Illegal number: ".toList ++ process)
    else if process != Octets.ofNat State.processNumber then
      warn "No such process\n".toList
      sendSignal fuel signal 1 rest
    else
      let traps := (← get).traps
      match if signal = 9 || signal = 19 then none else traps.lookup signal with
      | some action =>
        if !action.isEmpty && signal ≠ 0 then
          let before := (← get).status
          let command := (← get).command
          modify fun s => { s with command := none }
          let _ ← runText fuel action
          modify fun s => { s with status := before, command := command }
        sendSignal fuel signal status rest
      | none =>
        match Builtin.reaction signal with
        | .nothing => sendSignal fuel signal status rest
        | .stops => throw .never
        | .ends => throw (.killed signal)

/-- Runs a text as a script. -/
def runText : Nat → Octets → Step Nat
  | 0, _ => throw .never
  | fuel + 1, text =>
    runFrom fuel (text.length + 1) (.start text 1)

/-- Runs the commands of a script from a place on; there are at most as many as the bound. -/
def runFrom : Nat → Nat → Reader → Step Nat
  | 0, _, _ => throw .never
  | fuel + 1, bound, r => do
    let round (r : Reader) : Step (Option Reader) := do
      match r.next with
      | .error e =>
        modify fun s => { s with line := e.line }
        fail e.message.toList
      | .ok none => return none
      | .ok (some (c, after)) =>
        if !(← get).has 'n' then
          let _ ← runCommand fuel false c
        return some after
    let status ← ofFunction (roundsAt (fun r s => ((round r).run).run s) bound false r)
    setStatus status

/-- Runs a shell with arguments: how it ends, and the console then. -/
def runShell : Nat → Octets → List Octets → List (Octets × Octets) → Descriptors → Console →
    Finish × Console
  | 0, _, _, _, _, console => (none, console)
  | fuel + 1, name, args, environment, descriptors, console =>
    let start : State :=
      { name := name, args := [], bindings := environment, exported := environment.map Prod.fst
        functions := [], traps := [], status := 0, substituted := none, line := 0, command := none
        descriptors := descriptors, options := [], loops := 0, calls := 0, locals := none, lastBackground := []
        console := console }
    let script : Step Nat := do
      let (commands, operands) ← readInvocation args.length args
      match commands, operands with
      | true, [] => fail "-c requires an argument".toList
      | true, text :: operands =>
        modify fun s => { s with name := operands.headD name, args := operands.drop 1, line := 1 }
        runText fuel text
      | false, file :: operands =>
        if (← get).has 's' then
          modify fun s => { s with args := file :: operands }
          runInput fuel
        else
          match ← perform (openToRead file) with
          | .error p => fail (cannotOpen file p)
          | .ok i =>
            modify fun s => { s with name := file, args := operands, line := 1 }
            match ← perform (takeAll i) with
            | .error _ => return 0
            | .ok text => runText fuel text
      | false, [] => runInput fuel
    let (result, s) := ((runToEnd fuel script).run).run start
    match result with
    | .ok status => (some (.exited (status % 256)), s.console)
    | .error (.killed signal) => (some (.signalled signal), s.console)
    | .error _ => (none, s.console)

/-- Runs what is read from the standard input. -/
def runInput : Nat → Step Nat
  | 0 => throw .never
  | fuel + 1 => do
    modify fun s => { s with line := 1 }
    match (← get).descriptors.lookup 0 with
    | none => return 0
    | some i =>
      match ← perform (takeAll i) with
      | .error _ => return 0
      | .ok text => runText fuel text

/-- Reads the arguments of a shell: whether the first operand is a script, and the operands. -/
def readInvocation : Nat → List Octets → Step (Bool × List Octets)
  | 0, args => return (false, args)
  | _, [] => return (false, [])
  | fuel + 1, arg :: rest => do
    match arg with
    | ['-'] => return (false, rest)
    | ['-', '-'] => return (false, rest)
    | sign :: letters =>
      if sign = '-' || sign = '+' then
        let mut commands := false
        for c in letters do
          if c = 'c' then commands := true
          else if c = 'l' then pure ()
          else if Builtin.optionLetters.contains c then modify (Builtin.setOption (sign = '-') c)
          else fail ("Illegal option -".toList ++ [c])
        let (more, operands) ← readInvocation fuel rest
        return (commands || more, operands)
      else return (false, arg :: rest)
    | [] => return (false, [] :: rest)

end

/-! ## §2 Shells -/

/-- How deep commands, functions and shells may be nested. -/
def nesting : Nat := 20000

/-- Runs a shell as a program. -/
def run (environment : List (Octets × Octets)) (name : Octets) (args : List Octets) : Task Finish := do
  let descriptors ← read
  modifyGet fun console => runShell nesting name args environment descriptors console

end QueryPlayground.Program.Shell
