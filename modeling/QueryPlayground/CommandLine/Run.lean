import QueryPlayground.CommandLine.Browse
import QueryPlayground.CommandLine.Watch

/-!
# Running a command

The remaining commands, on shares and on the configuration, and the way from the arguments of an
invocation to its end: the settings are read, the command runs, and a failure is written to the
standard error. The status is zero for success, one for a failure and two for arguments that are not
taken.
-/

namespace QueryPlayground.CommandLine

/-! ## §1 Shares -/

/-- Goes on with what came out of an exchange. -/
def exchanged {α : Type} (r : List Share.Message × Except Error α) : Job α := do
  modify fun w => { w with sent := w.sent ++ r.1 }
  orFail r.2

def shareText (s : Share.Snapshot) : String :=
  "Query: " ++ s.query ++ "\nOutput type: " ++ s.outputType.name ++ "\n" ++
    (match s.expiresAt with
    | some t => "Expires: " ++ t ++ "\n"
    | none => "") ++
    "Input (" ++ s.inputType.name ++ "):\n" ++ s.inputData ++ "\n"

def runShare (s : Setup) (task : ShareTask) : Job Unit := do
  let client := Share.Client.new s.config.share
  s.explain ("Share service: " ++ s.config.share.baseUrl)
  match task with
  | .create query input =>
    let document ← readDocument input.file input.inputType
    let request := client.request document query input.outputType
    let id ← exchanged (client.create (← get).network request)
    if s.quiet then say id else say ("Created share " ++ id)
  | .fetch id json =>
    let snapshot ← exchanged (client.fetch (← get).network id)
    if json then say ((Share.Snapshot.codec.encode snapshot).pretty 2)
    else write (shareText snapshot)

/-! ## §2 The configuration -/

def configPath (s : Setup) (w : World) : String :=
  s.configFile.getD w.directories.config

/-- Writes settings to a file, in a directory that is made if it is missing. -/
def saveTo (path : String) (c : Configuration) : Job Unit := do
  let w ← get
  let text ← orFail (Configuration.save w.directories.store c)
  let files ← orFail ((w.files.makeDirectories (parentPath path)).mapError (·.toError))
  set { w with files := files }
  writeFile path text

/-- Writes a file with the default settings. -/
def runInit (s : Setup) (force : Bool) : Job Unit := do
  let w ← get
  let path := configPath s w
  if w.files.has path && !force then
    throw (.invalidArguments (path ++ " already exists, use --force to overwrite"))
  saveTo path (.default w.directories.store)
  s.tell ("Configuration initialized at " ++ path)

/-- Works with the configuration. -/
def runConfig (s : Setup) : ConfigTask → Job Unit
  | .display => do
    say (((Configuration.codec (← get).directories.store).encode s.config).pretty 2)
  | .init force => runInit s force
  | .path => do say (configPath s (← get))
  | .validate =>
    match s.config.validate with
    | .ok () => say "Configuration is valid"
    | .error e => say ("Configuration validation failed: " ++ e.message)

/-! ## §3 Commands -/

def runTask (s : Setup) : Task → Job Unit
  | .apply o => runApply s o
  | .watch o => runWatch s o
  | .history task => runHistory s task
  | .share task => runShare s task
  | .config task => runConfig s task

/-- The settings in a file, or the defaults where there is none. -/
def loadFrom (path : String) : Job Configuration := do
  let w ← get
  if w.files.has path then
    let text ← readFile path
    orFail (Configuration.load w.directories.store (some text))
  else orFail (Configuration.load w.directories.store none)

/-- The settings: those of the named file, or else those of the user's file if they are good, or else
the defaults. -/
def loadConfig (configFile : Option String) : Job Configuration :=
  match configFile with
  | some path => loadFrom path
  | none => do
    let w ← get
    match (loadFrom w.directories.config).run.run w with
    | (.ok c, _) => return c
    | (.error _, _) => return .default w.directories.store

/-- Runs an invocation. The history is at hand while the task is done, and kept afterwards. -/
def runInvocation (i : Invocation) : Job Unit := do
  let config ← loadConfig i.configFile
  let setup : Setup := ⟨config, i.configFile, i.verbose, i.quiet⟩
  let path := config.store.path
  modify fun w => { w with handle := .new config.store.limits, disk := w.files.disk path }
  try
    runTask setup i.task
  finally
    modify fun w => { w with files := w.files.keepDisk path w.disk }

/-! ## §4 Programs -/

def firstLine (text : String) : String :=
  String.ofList (text.toList.takeWhile (· != '\n'))

/-- Runs the program with arguments; the result is its status and the world after it. -/
def run (args : List String) (w : World) : Nat × World :=
  match Invocation.parse args with
  | .error r =>
    if r.isAnswer then (0, { w with output := w.output ++ r.message ++ "\n" })
    else (2, { w with errors := w.errors ++ firstLine r.message ++ "\n" })
  | .ok i =>
    match (runInvocation i).run.run w with
    | (.ok (), w) => (0, w)
    | (.error e, w) => (1, { w with errors := w.errors ++ "Error: " ++ e.message ++ "\n" })

end QueryPlayground.CommandLine
