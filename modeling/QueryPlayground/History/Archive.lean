import QueryPlayground.History.Database
import QueryPlayground.Json.Codec
import QueryPlayground.Json.Printer
import QueryPlayground.Json.Reader

/-!
# The file of a database

A database is kept in a file as text: a line that says what it is, and a JSON value with the tables.
`Database.ofText?` reads what `Database.text` writes and takes no text with another first line.
-/

namespace QueryPlayground.History

open QueryPlayground.Json (Value)

namespace Entry

/-- The written form of an entry. -/
def value (e : Entry) : Value :=
  .arr [.int e.id, .int e.timestamp, .str e.content]

/-- The entry of a written form. -/
def ofValue? : Value → Option Entry
  | .arr [.int id, .int timestamp, .str content] => some ⟨id, timestamp, content⟩
  | _ => none

/-- An entry is read back as it was written. -/
theorem ofValue?_value (e : Entry) : ofValue? e.value = some e := rfl

end Entry

namespace Table

/-- The written form of a table: the last number that was given out, and the entries. -/
def value (t : Table) : Value :=
  .arr [.int t.lastId, .arr (t.rows.map Entry.value)]

/-- The table of a written form. -/
def ofValue? : Value → Option Table
  | .arr [.int lastId, .arr rows] => (rows.mapM Entry.ofValue?).map fun rows => ⟨rows, lastId⟩
  | _ => none

/-- Entries are read back as they were written. -/
theorem mapM_ofValue?_map_value (rows : List Entry) :
    (rows.map Entry.value).mapM Entry.ofValue? = some rows := by
  induction rows with
  | nil => rfl
  | cons e rows ih => simp [Entry.ofValue?_value, ih]

/-- A table is read back as it was written. -/
theorem ofValue?_value (t : Table) : ofValue? t.value = some t := by
  simp only [value, ofValue?, mapM_ofValue?_map_value, Option.map_some]

end Table

namespace Database

/-- The first line of the file of a database. -/
def heading : String := "query playground history 1"

/-- The written form of a database. -/
def value (d : Database) : Value :=
  .arr [d.queries.value, d.templates.value]

/-- The database of a written form. -/
def ofValue? : Value → Option Database
  | .arr [queries, templates] => do
    return ⟨← Table.ofValue? queries, ← Table.ofValue? templates⟩
  | _ => none

/-- A database is read back as it was written. -/
theorem ofValue?_value (d : Database) : ofValue? d.value = some d := by
  simp [value, ofValue?, Table.ofValue?_value]

def text (d : Database) : String :=
  heading ++ "\n" ++ d.value.compact ++ "\n"

def ofText? (text : String) : Option Database :=
  let cs := text.toList
  if cs.takeWhile (· != '\n') == heading.toList then
    match Value.parse (String.ofList (cs.dropWhile (· != '\n'))) with
    | .ok v => ofValue? v
    | .error _ => none
  else none

end Database

end QueryPlayground.History
