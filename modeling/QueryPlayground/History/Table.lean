import QueryPlayground.MachineWord

/-!
# Tables of history entries

A table holds the entries of one history and the last number that was given out. The entries lie in
no particular order; `listing` is the view by time, and by number among entries of one time. Numbers
are never given out twice: the next one is beyond the last one given out and beyond every number in
the table, and once numbers are exhausted nothing can be put in.

`insert` keeps a history short: what is empty, too long or a repetition of the newest entry is not
recorded, and the oldest entries make room.
-/

namespace QueryPlayground.History

/-! ## §1 Entries -/

/-- A recorded text, with its number and the time in milliseconds. -/
structure Entry where
  id : Int
  timestamp : Int
  content : String
  deriving DecidableEq, Repr, Inhabited

namespace Entry

/-- Whether an entry is not newer than another one. -/
def le (a b : Entry) : Bool :=
  a.timestamp < b.timestamp || (a.timestamp == b.timestamp && a.id ≤ b.id)

def newer (a b : Entry) : Entry :=
  if a.le b then b else a

def older (a b : Entry) : Entry :=
  if a.le b then a else b

end Entry

/-- How large a history may become; the size of an entry is counted in characters. -/
structure Limits where
  maxEntries : Nat
  maxEntrySize : Nat
  deriving DecidableEq, Repr

def Limits.default : Limits :=
  ⟨100, 50000⟩

/-- A recorded entry, and the oldest one that made room for it, where the history was full. -/
structure Insertion where
  inserted : Entry
  evicted : Option Entry
  deriving DecidableEq, Repr

/-! ## §2 Tables -/

/-- A table of entries, in no particular order, with the last number that was given out. -/
structure Table where
  rows : List Entry
  lastId : Int
  deriving DecidableEq, Repr

namespace Table

def empty : Table :=
  ⟨[], 0⟩

/-- The entries, oldest first. -/
def listing (t : Table) : List Entry :=
  t.rows.mergeSort Entry.le

def newest? (t : Table) : Option Entry :=
  match t.rows with
  | [] => none
  | e :: rest => some (rest.foldl Entry.newer e)

def oldest? (t : Table) : Option Entry :=
  match t.rows with
  | [] => none
  | e :: rest => some (rest.foldl Entry.older e)

/-- The largest number that was given out or is in the table. -/
def greatestId (t : Table) : Int :=
  t.rows.foldl (fun n e => max n e.id) t.lastId

/-- The greatest number of an entry. -/
def maxId : Int := MachineWord.maxSigned

/-- The number of the next entry, unless numbers are exhausted. -/
def nextId? (t : Table) : Option Int :=
  if t.greatestId < maxId then some (t.greatestId + 1) else none

/-! ## §3 Operations -/

/-- Puts in an entry with a number of its own, as it stands. -/
def addRow (t : Table) (e : Entry) : Table :=
  ⟨t.rows ++ [e], max t.lastId e.id⟩

/-- Removes the oldest entries. -/
def dropOldest (t : Table) (count : Nat) : Table :=
  if count = 0 then t else { t with rows := t.listing.drop count }

/-- Removes the entry of a number. -/
def delete (t : Table) (id : Int) : Table :=
  { t with rows := t.rows.filter (·.id ≠ id) }

/-- Removes all entries; numbers go on where they were. -/
def reset (t : Table) : Table :=
  { t with rows := [] }

/-- Whether a text is not recorded for its own sake. -/
def isRejected (limits : Limits) (content : String) : Bool :=
  content.isEmpty || limits.maxEntrySize < content.length

def repeatsNewest (t : Table) (content : String) : Bool :=
  t.newest?.any (·.content == content)

/-- How many entries have to go before another one is recorded. -/
def excess (limits : Limits) (t : Table) : Nat :=
  t.rows.length + 1 - limits.maxEntries

/-- The time of a new entry: that of the clock, but never before the newest entry. -/
def timeOfNew (t : Table) (now : Int) : Int :=
  match t.newest? with
  | none => now
  | some e => max now e.timestamp

/-- What comes of recording a text. -/
inductive Outcome where
  | skipped
  | recorded (i : Insertion) (t : Table)
  /-- It would be recorded, but numbers are exhausted. -/
  | exhausted
  deriving Repr

/-- Records a text at a time of the clock. -/
def insert (limits : Limits) (now : Int) (content : String) (t : Table) : Outcome :=
  if isRejected limits content || t.repeatsNewest content then .skipped
  else
    let full := limits.maxEntries ≤ t.rows.length
    let evicted := if full then t.oldest? else none
    let timestamp := t.timeOfNew now
    -- More than one entry has to go where the limit was lowered since the last one came in.
    let room := if full then t.dropOldest (excess limits t) else t
    match room.nextId? with
    | none => .exhausted
    | some id =>
      let e : Entry := ⟨id, timestamp, content⟩
      .recorded ⟨e, evicted⟩ ⟨room.rows ++ [e], id⟩

/-! ## §4 Counts -/

/-- What is known of a table as a whole: how many entries it has, and the times of the oldest and the
newest one. -/
structure Stats where
  total : Nat
  oldest : Option Int
  newest : Option Int
  deriving DecidableEq, Repr

def count (t : Table) : Nat :=
  t.rows.length

def stats (t : Table) : Stats :=
  ⟨t.count, t.oldest?.map (·.timestamp), t.newest?.map (·.timestamp)⟩

end Table

end QueryPlayground.History
