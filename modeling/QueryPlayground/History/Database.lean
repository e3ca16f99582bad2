import QueryPlayground.History.Page
import QueryPlayground.Document
import QueryPlayground.Error

/-!
# A database of both histories

The two tables, and the operations on them as a user of the database sees them: each has an answer or
an error, and leaves the database as it was where it answers with an error. A database whose file was
taken away can be read but no longer changed.
-/

namespace QueryPlayground.History

/-! ## §1 Databases -/

/-- The tables of both histories. -/
structure Database where
  queries : Table
  templates : Table
  deriving DecidableEq, Repr

namespace Database

/-- A database without entries. -/
def empty : Database :=
  ⟨.empty, .empty⟩

def table (d : Database) : HistoryKind → Table
  | .queries => d.queries
  | .templates => d.templates

def setTable (d : Database) (kind : HistoryKind) (t : Table) : Database :=
  match kind with
  | .queries => { d with queries := t }
  | .templates => { d with templates := t }

/-- The database without entries; numbers go on where they were. -/
def reset (d : Database) : Database :=
  ⟨d.queries.reset, d.templates.reset⟩

/-- Puts in an entry as it stands; without a number it takes the next one. -/
def addRow (d : Database) (kind : HistoryKind) (id : Option Int) (timestamp : Int)
    (content : String) : Database :=
  let t := d.table kind
  match id.or t.nextId? with
  | some id => d.setTable kind (t.addRow ⟨id, timestamp, content⟩)
  | none => d

end Database

/-! ## §2 Operations -/

/-- What can be asked of a database. -/
inductive Query where
  /-- Record a text at a time of the clock. -/
  | insert (kind : HistoryKind) (content : String) (now : Int)
  | page (kind : HistoryKind) (request : PageRequest)
  /-- Remove the entry of a number. -/
  | delete (kind : HistoryKind) (id : Int)
  | count (kind : HistoryKind)
  /-- Count the entries and find their times. -/
  | stats (kind : HistoryKind)
  /-- Remove all entries of both histories. -/
  | reset
  /-- List all entries of both histories, newest first. -/
  | dump
  deriving DecidableEq, Repr

/-- What a database answers. -/
inductive Answer where
  | done
  /-- A recorded entry, or nothing where the text is not recorded. -/
  | insertion (i : Option Insertion)
  | page (p : Page)
  /-- A number of entries. -/
  | count (n : Nat)
  /-- What is known of a table as a whole. -/
  | stats (s : Table.Stats)
  /-- All queries and all templates, newest first. -/
  | dump (queries templates : List Entry)
  deriving DecidableEq, Repr

/-- The error of a database whose file was taken away. -/
def readOnlyError : Error :=
  .storage "attempt to write a readonly database"

/-- The error of a table whose numbers are exhausted. -/
def fullError : Error :=
  .storage "database or disk is full"

namespace Database

/-- The answer to an operation and the database after it. A database that is not `writable` refuses
what would change it. -/
def run (d : Database) (limits : Limits) (writable : Bool) : Query → Except Error Answer × Database
  | .insert kind content now =>
    match (d.table kind).insert limits now content with
    | .skipped => (.ok (.insertion none), d)
    | .exhausted => (.error (if writable then fullError else readOnlyError), d)
    | .recorded i t =>
      if writable then (.ok (.insertion (some i)), d.setTable kind t) else (.error readOnlyError, d)
  | .page kind request => (.ok (.page ((d.table kind).query request)), d)
  | .delete kind id =>
    if writable || !(d.table kind).rows.any (·.id == id) then
      (.ok .done, d.setTable kind ((d.table kind).delete id))
    else (.error readOnlyError, d)
  | .count kind => (.ok (.count (d.table kind).count), d)
  | .stats kind => (.ok (.stats (d.table kind).stats), d)
  | .reset => if writable then (.ok .done, d.reset) else (.error readOnlyError, d)
  | .dump => (.ok (.dump d.queries.listing.reverse d.templates.listing.reverse), d)

end Database

end QueryPlayground.History
