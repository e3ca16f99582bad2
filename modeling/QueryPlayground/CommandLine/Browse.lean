import QueryPlayground.CommandLine.Calendar
import QueryPlayground.CommandLine.World

/-!
# Browsing the history

Listing a page, counting, telling what is known of the histories, removing entries and writing
everything out. Each text is a function of what the history answers; an export goes through the pages
of a history until none follows.
-/

namespace QueryPlayground.CommandLine

open QueryPlayground.Json (Value)
open QueryPlayground.History (Answer Entry Page PageRequest Table)

/-! ## §1 Listing -/

def ListOptions.request (o : ListOptions) : PageRequest :=
  let r : PageRequest :=
    { PageRequest.default with
      page := o.page
      limit := o.limit
      order := if o.reverse then .ascending else .descending }
  match o.search with
  | some needle => r.searching needle
  | none => r

def onOneLine (text : String) : String :=
  String.ofList (text.toList.flatMap fun c => if c = '\n' then ['\\', 'n'] else [c])

def ListOptions.row (o : ListOptions) (e : Entry) : String :=
  (if o.ids then toString e.id ++ "\t" else "") ++
    (if o.timestamps then timeText e.timestamp ++ "\t" else "") ++ onOneLine e.content

/-- The page that a listing points to, if more entries follow those it has. -/
def ListOptions.hint (o : ListOptions) (p : Page) : Option Nat :=
  if p.items.isEmpty || !p.hasMore then none else some (o.page + 1)

/-- What is written after the rows. -/
def ListOptions.footer (o : ListOptions) (p : Page) : String :=
  if p.items.isEmpty then "No " ++ o.kind.name ++ " found\n"
  else
    match o.hint p with
    | some page => "\nMore entries available: --page " ++ toString page ++ "\n"
    | none => ""

def ListOptions.text (o : ListOptions) (quiet : Bool) (p : Page) : String :=
  String.join (p.items.map fun e => o.row e ++ "\n") ++ if quiet then "" else o.footer p

/-! ## §2 What histories answer -/

def askPage (kind : HistoryKind) (r : PageRequest) : Job Page := do
  match ← ask (.page kind r) with
  | .page p => return p
  | _ => return ⟨[], false⟩

/-- Asks for the number of entries. -/
def askCount (kind : HistoryKind) : Job Nat := do
  match ← ask (.count kind) with
  | .count n => return n
  | _ => return 0

def askStats (kind : HistoryKind) : Job Table.Stats := do
  match ← ask (.stats kind) with
  | .stats s => return s
  | _ => return ⟨0, none, none⟩

/-- One history or both. -/
def selectedKinds : Option HistoryKind → List HistoryKind
  | some kind => [kind]
  | none => HistoryKind.all

/-- A line about a time, if it is known. -/
def timeLine (label : String) (t : Option Int) : String :=
  match t with
  | some t => "  " ++ label ++ " entry: " ++ timeText t ++ "\n"
  | none => ""

def statsText (kind : HistoryKind) (s : Table.Stats) : String :=
  "\n" ++ kind.name ++ "\n  Total entries: " ++ toString s.total ++ "\n" ++
    timeLine "Oldest" s.oldest ++ timeLine "Newest" s.newest

/-! ## §3 Exports -/

/-- The most entries of a page of an export. -/
def exportPageSize : Nat := 100

def exportRequest (page : Nat) : PageRequest :=
  { PageRequest.default with page := page, limit := exportPageSize }

/-- The entries of a history from a page on, newest first; there are at most as many pages as the
fuel. -/
def entriesFrom (kind : HistoryKind) : Nat → Nat → Job (List Entry)
  | 0, _ => return []
  | fuel + 1, page => do
    let p ← askPage kind (exportRequest page)
    if p.hasMore then return p.items ++ (← entriesFrom kind fuel (page + 1)) else return p.items

/-- More than the pages of a history: the entries of all databases at its place. -/
def pageBound (w : World) : Nat :=
  w.disk.databases.foldl (fun n d => n + d.queries.count + d.templates.count) 1

/-- The entries of a history, newest first. -/
def allEntries (kind : HistoryKind) : Job (List (HistoryKind × Entry)) := do
  return (← entriesFrom kind (pageBound (← get)) 0).map fun e => (kind, e)

/-- The written form of an entry of a history. -/
def exportedValue (e : HistoryKind × Entry) : Value :=
  .obj [("kind", .str e.1.name), ("id", .int e.2.id), ("timestamp", .int e.2.timestamp),
    ("content", .str e.2.content)]

def exportText (format : ExportFormat) (entries : List (HistoryKind × Entry)) : String :=
  match format with
  | .json => (Value.arr (entries.map exportedValue)).pretty 2 ++ "\n"
  | .yaml => String.ofList (Yaml.documentChars (.arr (entries.map exportedValue)))
  | .plain => String.join (entries.map fun e => e.2.content ++ "\n")

/-! ## §4 The commands -/

/-- Counts the entries of one history, or of each. -/
def runCount : Option HistoryKind → Job Unit
  | some kind => do say (toString (← askCount kind))
  | none => do
    for kind in HistoryKind.all do
      say (kind.name ++ ": " ++ toString (← askCount kind))

/-- Tells what is known of one history, or of each. -/
def runStats (s : Setup) (kind : Option HistoryKind) : Job Unit := do
  say "History Statistics"
  say "=================="
  say ("Capacity per category: " ++ toString s.config.store.maxEntries)
  for kind in selectedKinds kind do
    write (statsText kind (← askStats kind))

/-- The question before all entries are removed. -/
def resetQuestion : String :=
  "Are you sure you want to delete all query and template history? (y/N): "

def isYes (answer : String) : Bool :=
  ["y", "Y"].contains (Text.trim answer)

/-- Removes all entries, unless the user is asked and does not want that. -/
def runReset (s : Setup) (force : Bool) : Job Unit := do
  let agreed ←
    if force then pure true
    else do
      write resetQuestion
      pure (isYes (← readLine))
  if agreed then
    let _ ← ask .reset
    s.tell "History cleared successfully"
  else say "Aborted"

/-- Writes out one history, or both. -/
def runExport (s : Setup) (kind : Option HistoryKind) (format : ExportFormat)
    (file : Option String) : Job Unit := do
  let entries := (← (selectedKinds kind).mapM allEntries).flatten
  let text := exportText format entries
  match file with
  | none => write text
  | some file =>
    writeFile file text
    s.tell ("Exported " ++ toString entries.length ++ " entries to " ++ file)

def runHistory (s : Setup) : HistoryTask → Job Unit
  | .list o => do write (o.text s.quiet (← askPage o.kind o.request))
  | .delete kind id => do
    let _ ← ask (.delete kind id)
    s.tell ("Deleted entry " ++ toString id ++ " from " ++ kind.name)
  | .count kind => runCount kind
  | .stats kind => runStats s kind
  | .reset force => runReset s force
  | .exportAll kind format file => runExport s kind format file

end QueryPlayground.CommandLine
