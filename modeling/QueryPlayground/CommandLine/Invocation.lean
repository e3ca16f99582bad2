import QueryPlayground.CommandLine.Grammar
import QueryPlayground.Document

/-!
# Invocations

What the commands are, with their arguments as values of their own types. `rules` is the grammar of
the command line and `Invocation.parse` reads an invocation by it.
-/

namespace QueryPlayground.CommandLine

/-! ## §1 Commands -/

/-- Where a document comes from and what becomes of it. -/
structure InputOptions where
  /-- The file of the document; a dash stands for the standard input. -/
  file : String
  /-- The kind of the document, if it is not guessed. -/
  inputType : Option DocumentKind
  outputType : DocumentKind
  deriving DecidableEq, Repr

structure ApplyOptions where
  query : String
  input : InputOptions
  template : Bool
  /-- The indentation of the output, if it is not the configured one. -/
  indent : Option Nat
  /-- Whether the query is kept out of the history. -/
  noHistory : Bool
  deriving DecidableEq, Repr

structure WatchOptions where
  input : InputOptions
  template : Bool
  /-- The quiet time in milliseconds, if it is not the configured one. -/
  debounceMs : Option Nat
  deriving DecidableEq, Repr

structure ListOptions where
  kind : HistoryKind
  /-- What the entries have to contain. -/
  search : Option String
  /-- The page, from zero. -/
  page : Nat
  /-- The most entries of a page. -/
  limit : Nat
  /-- Whether the oldest entries come first. -/
  reverse : Bool
  /-- Whether times are shown. -/
  timestamps : Bool
  /-- Whether numbers are shown. -/
  ids : Bool
  deriving DecidableEq, Repr

inductive ExportFormat where
  | json
  | yaml
  /-- The texts alone. -/
  | plain
  deriving DecidableEq, Repr

inductive HistoryTask where
  | list (options : ListOptions)
  /-- Remove an entry. -/
  | delete (kind : HistoryKind) (id : Int)
  /-- Count the entries of one history or of both. -/
  | count (kind : Option HistoryKind)
  /-- Tell about one history or about both. -/
  | stats (kind : Option HistoryKind)
  /-- Remove all entries, without asking if it is forced. -/
  | reset (force : Bool)
  /-- Write out one history or both, to a file if one is named. -/
  | exportAll (kind : Option HistoryKind) (format : ExportFormat) (file : Option String)
  deriving DecidableEq, Repr

inductive ShareTask where
  | create (query : String) (input : InputOptions)
  /-- Fetch one, and show it as JSON or in lines. -/
  | fetch (id : String) (json : Bool)
  deriving DecidableEq, Repr

/-- What can be done with the configuration. -/
inductive ConfigTask where
  /-- Show it. -/
  | display
  /-- Write a file with the defaults, even over another one if it is forced. -/
  | init (force : Bool)
  /-- Show the path of its file. -/
  | path
  /-- Check it. -/
  | validate
  deriving DecidableEq, Repr

inductive Task where
  /-- Apply a query once. -/
  | apply (options : ApplyOptions)
  /-- Apply queries as they are edited. -/
  | watch (options : WatchOptions)
  | history (task : HistoryTask)
  | share (task : ShareTask)
  /-- Work with the configuration. -/
  | config (task : ConfigTask)
  deriving DecidableEq, Repr

/-- A command with what holds for all commands. -/
structure Invocation where
  /-- The configuration file, if one is named. -/
  configFile : Option String
  /-- Whether more is told. -/
  verbose : Bool
  /-- Whether less is told. -/
  quiet : Bool
  task : Task
  deriving DecidableEq, Repr

/-! ## §2 The grammar -/

def kindWords : List (String × DocumentKind) :=
  [("json", .json), ("yaml", .yaml), ("query", .query), ("query-language", .query),
    ("template", .template)]

def formatWords : List (String × ExportFormat) :=
  [("json", .json), ("yaml", .yaml), ("plain", .plain)]

def historyWords : List (String × HistoryKind) :=
  HistoryKind.all.map fun k => (k.name, k)

def option (name : String) (letter : Option Char) (placeholder : String) (form : ValueForm) :
    OptionRule :=
  ⟨name, letter, some (placeholder, form)⟩

/-- An option without a value. -/
def flag (name : String) (letter : Option Char) : OptionRule :=
  ⟨name, letter, none⟩

def globalOptions : List OptionRule :=
  [option "config" (some 'c') "CONFIG" .path, flag "verbose" (some 'v'), flag "quiet" (some 'q')]

def kindForm : ValueForm := .oneOf (kindWords.map (·.1))

def historyForm : ValueForm := .oneOf (historyWords.map (·.1))

def inputRules : List OptionRule :=
  [option "input" (some 'i') "FILE" .path, option "input-type" (some 't') "INPUT_TYPE" kindForm,
    option "output-type" (some 'o') "OUTPUT_TYPE" kindForm]

def command (name about : String) (options : List OptionRule) (required : List String)
    (positions : List PositionRule) : CommandRule :=
  .rule name about (options ++ globalOptions) required positions []

def group (name about : String) (subcommands : List CommandRule) : CommandRule :=
  .rule name about globalOptions [] [] subcommands

def queryPosition : PositionRule := ⟨"query", "QUERY", true, .text⟩

def historyPosition (required : Bool) : PositionRule := ⟨"kind", "KIND", required, historyForm⟩

def historyRules : List CommandRule :=
  [command "list" "List history entries, newest first"
      [option "search" (some 's') "SEARCH" .text, option "page" (some 'p') "PAGE" .unsigned,
        option "limit" (some 'L') "LIMIT" .unsigned, flag "reverse" (some 'R'),
        flag "timestamps" (some 'T'), flag "ids" none]
      [] [historyPosition false],
    command "delete" "Delete one entry" [] []
      [historyPosition true, ⟨"id", "ID", true, .signed⟩],
    command "count" "Count entries" [] [] [historyPosition false],
    command "stats" "Show history statistics" [] [] [historyPosition false],
    command "reset" "Remove every entry from every category" [flag "force" (some 'F')] [] [],
    command "export" "Export entries"
      [option "format" (some 'f') "FORMAT" (.oneOf (formatWords.map (·.1))),
        option "output" (some 'O') "OUTPUT" .path]
      [] [historyPosition false]]

def shareRules : List CommandRule :=
  [command "create" "Upload a snapshot and print its id" inputRules [] [queryPosition],
    command "fetch" "Download a snapshot" [flag "json" none] [] [⟨"id", "ID", true, .text⟩]]

def configRules : List CommandRule :=
  [command "show" "Show the effective configuration" [] [] [],
    command "init" "Write a configuration file with defaults" [flag "force" (some 'F')] [] [],
    command "path" "Print the configuration file path" [] [] [],
    command "validate" "Validate the configuration file" [] [] []]

def programName : String := "qplay"

def rules : CommandRule :=
  .rule programName "Apply queries to JSON and YAML documents, with history and sharing"
    (globalOptions ++ [flag Reading.versionName (some 'V')]) [] []
    [command "apply" "Apply a query to an input document once"
        (inputRules ++ [flag "template" none, option "indent" none "INDENT" .unsigned,
          flag "no-history" none])
        [] [queryPosition],
      command "watch" "Read query edits from stdin and auto-apply them"
        (inputRules ++ [flag "template" none, option "debounce-ms" none "DEBOUNCE_MS" .unsigned])
        ["input"] [],
      group "history" "Browse and manage query and template history" historyRules,
      group "share" "Create or fetch shared snapshots" shareRules,
      group "config" "Manage configuration" configRules]

/-! ## §3 From texts to values -/

namespace Given

def text? (g : Given) (name : String) : Option String :=
  g.lookup name

def text (g : Given) (name default : String) : String :=
  (g.lookup name).getD default

def has (g : Given) (name : String) : Bool :=
  (g.lookup name).isSome

def nat? (g : Given) (name : String) : Option Nat :=
  (g.lookup name).bind fun s => (readUnsigned s).toOption

def word? {α : Type} (g : Given) (name : String) (words : List (String × α)) : Option α :=
  (g.lookup name).bind fun s => words.lookup s

def history? (g : Given) : Option HistoryKind :=
  g.word? "kind" historyWords

/-- Where the document comes from. -/
def input (g : Given) : InputOptions :=
  ⟨g.text "input" "-", g.word? "input-type" kindWords, (g.word? "output-type" kindWords).getD .json⟩

def listing (g : Given) : ListOptions :=
  { kind := g.history?.getD .queries
    search := g.text? "search"
    page := (g.nat? "page").getD 0
    limit := (g.nat? "limit").getD 20
    reverse := g.has "reverse"
    timestamps := g.has "timestamps"
    ids := g.has "ids" }

def task? (g : Given) : List String → Option Task
  | ["apply"] =>
    some (.apply
      { query := g.text "query" "", input := g.input, template := g.has "template"
        indent := g.nat? "indent", noHistory := g.has "no-history" })
  | ["watch"] =>
    some (.watch
      { input := g.input, template := g.has "template", debounceMs := g.nat? "debounce-ms" })
  | ["history", "list"] => some (.history (.list g.listing))
  | ["history", "delete"] =>
    some (.history (.delete (g.history?.getD .queries)
      (((g.text? "id").bind fun s => (readSigned s).toOption).getD 0)))
  | ["history", "count"] => some (.history (.count g.history?))
  | ["history", "stats"] => some (.history (.stats g.history?))
  | ["history", "reset"] => some (.history (.reset (g.has "force")))
  | ["history", "export"] =>
    some (.history (.exportAll g.history? ((g.word? "format" formatWords).getD .json)
      (g.text? "output")))
  | ["share", "create"] => some (.share (.create (g.text "query" "") g.input))
  | ["share", "fetch"] => some (.share (.fetch (g.text "id" "") (g.has "json")))
  | ["config", "show"] => some (.config .display)
  | ["config", "init"] => some (.config (.init (g.has "force")))
  | ["config", "path"] => some (.config .path)
  | ["config", "validate"] => some (.config .validate)
  | _ => none

end Given

def Invocation.parse (args : List String) : Except Refusal Invocation :=
  match rules.read [programName] .start args with
  | .error e => .error e
  | .ok p =>
    match Given.task? p.given p.commands with
    | some task =>
      .ok ⟨Given.text? p.given "config", Given.has p.given "verbose", Given.has p.given "quiet", task⟩
    | none => .error .missingArguments

end QueryPlayground.CommandLine
