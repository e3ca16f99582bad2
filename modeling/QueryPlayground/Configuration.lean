import QueryPlayground.Json.Codec
import QueryPlayground.Error
import QueryPlayground.Text.Blank

/-!
# Configuration

Five sections of settings, each with defaults, read from a JSON file in which any section and any
field may be left out. `load` reads and validates the text of a file, `save` validates and writes it.
The file of the history has a default that depends on the user's directories.
-/

namespace QueryPlayground

open QueryPlayground.Json

namespace Configuration

/-! ## §1 Sections -/

/-- The history. -/
structure Store where
  /-- The database file. -/
  path : String
  maxEntries : Nat
  /-- The most characters of an entry. -/
  maxEntrySize : Nat
  deriving DecidableEq, Repr

/-- How queries are applied. -/
structure Apply where
  /-- Whether edits apply the query by themselves. -/
  autoApply : Bool
  /-- The quiet time before they do, in milliseconds. -/
  debounceMs : Nat
  /-- The indentation of the output, zero for none. -/
  indent : Nat
  /-- The time that an evaluation may take, in milliseconds; zero for any. -/
  evalTimeoutMs : Nat
  deriving DecidableEq, Repr

/-- The time that an evaluation may take, in milliseconds, if it is limited. -/
def Apply.timeout? (a : Apply) : Option Nat :=
  if a.evalTimeoutMs = 0 then none else some a.evalTimeoutMs

/-- Who evaluates. -/
inductive Engine where
  /-- The built-in evaluator. -/
  | builtin
  /-- A program. -/
  | command
  deriving DecidableEq, Repr

structure Evaluator where
  engine : Engine
  program : String
  /-- The arguments of the program before the query. -/
  args : List String
  deriving DecidableEq, Repr

/-- The share server. -/
structure Share where
  baseUrl : String
  /-- The most characters of a share. -/
  maxPayloadChars : Nat
  /-- How many seconds a share is kept. -/
  expirationSecs : Nat
  /-- How many seconds a connection may take. -/
  connectTimeoutSecs : Nat
  deriving DecidableEq, Repr

structure Logging where
  /-- The least level that is written. -/
  level : String
  deriving DecidableEq, Repr

end Configuration

/-- All settings. -/
structure Configuration where
  store : Configuration.Store
  /-- How queries are applied. -/
  apply : Configuration.Apply
  evaluator : Configuration.Evaluator
  share : Configuration.Share
  logging : Configuration.Logging
  deriving DecidableEq, Repr

namespace Configuration

/-! ## §2 Defaults -/

/-- The default history in a database file. -/
def Store.default (path : String) : Store :=
  ⟨path, 100, 50000⟩

/-- The default way to apply queries. -/
def Apply.default : Apply :=
  ⟨true, 500, 2, 30000⟩

def Evaluator.default : Evaluator :=
  ⟨.builtin, "jq", []⟩

def Share.default : Share :=
  ⟨"http://localhost:8080/api", 500000, 7 * 24 * 60 * 60, 5⟩

def Logging.default : Logging :=
  ⟨"warn"⟩

/-- The default settings, with a history in a database file. -/
def default (path : String) : Configuration :=
  ⟨.default path, .default, .default, .default, .default⟩

/-! ## §3 Written form -/

def Engine.name : Engine → String
  | builtin => "builtin"
  | command => "command"

def Engine.ofName? (s : String) : Option Engine :=
  [builtin, command].find? (·.name == s)

/-- The written form of the history section. -/
def Store.codec (path : String) : Codec Store where
  schema := .record "StoreConfig"
    [("path", pathSchema, some (.str path)), ("max_entries", sizeSchema, some (.int 100)),
      ("max_entry_size", sizeSchema, some (.int 50000))]
  encode s := .obj
    [("path", .str s.path), ("max_entries", .int s.maxEntries),
      ("max_entry_size", .int s.maxEntrySize)]
  decode? v := do
    let path ← (← v.member? "path").text?
    let maxEntries ← (← v.member? "max_entries").nat?
    let maxEntrySize ← (← v.member? "max_entry_size").nat?
    return ⟨path, maxEntries, maxEntrySize⟩

/-- The written form of the section on applying. -/
def Apply.codec : Codec Apply where
  schema := .record "ApplyConfig"
    [("auto_apply", .flag, some (.bool true)), ("debounce_ms", unsignedSchema, some (.int 500)),
      ("indent", sizeSchema, some (.int 2)),
      ("eval_timeout_ms", unsignedSchema, some (.int 30000))]
  encode a := .obj
    [("auto_apply", .bool a.autoApply), ("debounce_ms", .int a.debounceMs),
      ("indent", .int a.indent), ("eval_timeout_ms", .int a.evalTimeoutMs)]
  decode? v := do
    let autoApply ← (← v.member? "auto_apply").flag?
    let debounceMs ← (← v.member? "debounce_ms").nat?
    let indent ← (← v.member? "indent").nat?
    let evalTimeoutMs ← (← v.member? "eval_timeout_ms").nat?
    return ⟨autoApply, debounceMs, indent, evalTimeoutMs⟩

def Evaluator.codec : Codec Evaluator where
  schema := .record "EvaluatorConfig"
    [("engine", .choice (names ["builtin", "command"]), some (.str "builtin")),
      ("program", textSchema, some (.str "jq")), ("args", .list textSchema, some (.arr []))]
  encode e := .obj
    [("engine", .str e.engine.name), ("program", .str e.program),
      ("args", .arr (e.args.map .str))]
  decode? v := do
    let engine ← (← v.member? "engine").text?.bind Engine.ofName?
    let program ← (← v.member? "program").text?
    let args ← (← (← v.member? "args").items?).mapM Value.text?
    return ⟨engine, program, args⟩

def Share.codec : Codec Share where
  schema := .record "ShareConfig"
    [("base_url", textSchema, some (.str Share.default.baseUrl)),
      ("max_payload_chars", sizeSchema, some (.int 500000)),
      ("expiration_secs", unsignedSchema, some (.int 604800)),
      ("connect_timeout_secs", unsignedSchema, some (.int 5))]
  encode s := .obj
    [("base_url", .str s.baseUrl), ("max_payload_chars", .int s.maxPayloadChars),
      ("expiration_secs", .int s.expirationSecs),
      ("connect_timeout_secs", .int s.connectTimeoutSecs)]
  decode? v := do
    let baseUrl ← (← v.member? "base_url").text?
    let maxPayloadChars ← (← v.member? "max_payload_chars").nat?
    let expirationSecs ← (← v.member? "expiration_secs").nat?
    let connectTimeoutSecs ← (← v.member? "connect_timeout_secs").nat?
    return ⟨baseUrl, maxPayloadChars, expirationSecs, connectTimeoutSecs⟩

/-- The written form of the log section. -/
def Logging.codec : Codec Logging where
  schema := .record "LoggingConfig" [("level", textSchema, some (.str "warn"))]
  encode l := .obj [("level", .str l.level)]
  decode? v := do return ⟨← (← v.member? "level").text?⟩

/-- The written form of all settings, where the default history is in a database file. -/
def codec (path : String) : Codec Configuration where
  schema := .record "Config"
    [("store", (Store.codec path).schema, some ((Store.codec path).encode (.default path))),
      ("apply", Apply.codec.schema, some (Apply.codec.encode .default)),
      ("evaluator", Evaluator.codec.schema, some (Evaluator.codec.encode .default)),
      ("share", Share.codec.schema, some (Share.codec.encode .default)),
      ("logging", Logging.codec.schema, some (Logging.codec.encode .default))]
  encode c := .obj
    [("store", (Store.codec path).encode c.store), ("apply", Apply.codec.encode c.apply),
      ("evaluator", Evaluator.codec.encode c.evaluator), ("share", Share.codec.encode c.share),
      ("logging", Logging.codec.encode c.logging)]
  decode? v := do
    let store ← (Store.codec path).decode? (← v.member? "store")
    let apply ← Apply.codec.decode? (← v.member? "apply")
    let evaluator ← Evaluator.codec.decode? (← v.member? "evaluator")
    let share ← Share.codec.decode? (← v.member? "share")
    let logging ← Logging.codec.decode? (← v.member? "logging")
    return ⟨store, apply, evaluator, share, logging⟩

/-! ## §4 Validation -/

def beginsWith (beginning s : String) : Bool :=
  beginning.toList.isPrefixOf s.toList

def levels : List String := ["trace", "debug", "info", "warn", "error"]

/-- The first thing that is wrong with the settings: a field and the reason. -/
def flaw? (c : Configuration) : Option (String × String) :=
  if c.store.maxEntries = 0 then some ("store.max_entries", "must be greater than 0")
  else if c.store.maxEntrySize = 0 then some ("store.max_entry_size", "must be greater than 0")
  else if c.evaluator.engine = .command ∧ (Text.trimBlanks c.evaluator.program.toList).isEmpty then
    some ("evaluator.program", "must be set when the command engine is selected")
  else if !(beginsWith "http://" c.share.baseUrl || beginsWith "https://" c.share.baseUrl) then
    some ("share.base_url", "must be an http or https URL")
  else if c.share.maxPayloadChars = 0 then
    some ("share.max_payload_chars", "must be greater than 0")
  else if !levels.contains c.logging.level then
    some ("logging.level", "must be one of: trace, debug, info, warn, error")
  else none

/-- Refuses settings with a flaw. -/
def validate (c : Configuration) : Except Error Unit :=
  match c.flaw? with
  | some (field, reason) => .error (.configValidation field reason)
  | none => .ok ()

/-! ## §5 Files -/

/-- Reads the settings from the text of a file, or takes the defaults where there is no file. -/
def load (path : String) (text : Option String) : Except Error Configuration :=
  match text with
  | none => .ok (.default path)
  | some text => do
    let c ← ((codec path).parse text).mapError .json
    c.validate
    return c

/-- The text of a file with the settings. -/
def save (path : String) (c : Configuration) : Except Error String := do
  c.validate
  return ((codec path).encode c).pretty 2

/-- Takes all sections of other settings. -/
def merge (c other : Configuration) : Configuration :=
  { c with
    store := other.store, apply := other.apply, evaluator := other.evaluator,
    share := other.share, logging := other.logging }

/-! ## §6 Places of files -/

/-- A file name behind the name of a directory. -/
def joinPath (dir file : String) : String :=
  if dir.isEmpty then file
  else if dir.toList.getLast? == some '/' then dir ++ file
  else dir ++ "/" ++ file

/-- The user's directories. -/
structure Directories where
  home : String
  /-- The directory for data that the environment names, if any. -/
  dataHome : Option String

namespace Directories

/-- The directory for data: the named one if it is absolute, else one below the home directory. -/
def data (d : Directories) : String :=
  match d.dataHome with
  | some dir => if beginsWith "/" dir then dir else joinPath (joinPath d.home ".local") "share"
  | none => joinPath (joinPath d.home ".local") "share"

/-- The default database file of the history. -/
def store (d : Directories) : String :=
  joinPath (joinPath d.data "qplay") "qplay.db"

/-- The default file of the settings. -/
def config (d : Directories) : String :=
  joinPath d.home ".qplay.json"

end Directories

end Configuration

end QueryPlayground
