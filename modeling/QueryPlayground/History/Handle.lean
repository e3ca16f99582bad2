import QueryPlayground.History.Database

/-!
# Handles on a history file

A handle opens the database at its place when it is first needed. Once that has failed, or the handle
was closed, every operation is refused with the reason until the handle is reconnected. Several
handles may share one place; a handle that is open keeps its database even when the file is taken away
or replaced.

`Shelf` is a place with its handles, and `Shelf.perform` is one operation through one of them.
-/

namespace QueryPlayground.History

/-! ## §1 Places -/

/-- What is found at a place. -/
inductive Found where
  /-- Nothing; a database can be created. -/
  | nothing
  /-- Something that is no database, with the reason why it cannot be opened. -/
  | obstacle (reason : String)
  /-- The database of a number. -/
  | database (n : Nat)
  deriving DecidableEq, Repr

/-- A place of a file, and every database that has been there. -/
structure Disk where
  found : Found
  /-- The databases, by their numbers. -/
  databases : List Database
  deriving DecidableEq, Repr

namespace Disk

/-- A place with nothing there. -/
def vacant : Disk :=
  ⟨.nothing, []⟩

def holding (d : Database) : Disk :=
  ⟨.database 0, [d]⟩

/-- A place with something that cannot be opened. -/
def blocked (reason : String) : Disk :=
  ⟨.obstacle reason, []⟩

def isOccupied (d : Disk) : Bool :=
  d.found ≠ .nothing

/-- Takes away what is there. -/
def clear (d : Disk) : Disk :=
  { d with found := .nothing }

def database (d : Disk) (n : Nat) : Database :=
  d.databases.getD n .empty

/-- The place with another content of the database of a number. -/
def setDatabase (d : Disk) (n : Nat) (db : Database) : Disk :=
  { d with databases := d.databases.set n db }

/-- Opens the database that is there, or creates one. Answers with its number or with the reason
against it. -/
def openDatabase (d : Disk) : Except String Nat × Disk :=
  match d.found with
  | .nothing =>
    let n := d.databases.length
    (.ok n, ⟨.database n, d.databases ++ [.empty]⟩)
  | .obstacle reason => (.error reason, d)
  | .database n => (.ok n, d)

/-- Whether the database of a number is the one that is there. -/
def isCurrent (d : Disk) (n : Nat) : Bool :=
  d.found == .database n

end Disk

/-! ## §2 Handles -/

inductive HandleState where
  /-- The database was not needed yet. -/
  | unopened
  /-- The database of a number is open. -/
  | opened (n : Nat)
  /-- The last attempt to open the database failed for a reason. -/
  | failed (reason : String)
  | closed
  deriving DecidableEq, Repr

structure Handle where
  /-- The limits of what is recorded through it. -/
  limits : Limits
  /-- Whether it can be opened anew, which a database in memory cannot. -/
  reopenable : Bool
  state : HandleState
  deriving DecidableEq, Repr

namespace Handle

/-- A handle that opens its place when needed. -/
def new (limits : Limits) : Handle :=
  ⟨limits, true, .unopened⟩

/-- The reason against opening a database in memory anew. -/
def memoryReason : String := "in-memory store cannot be reopened"

def closedReason : String := "store closed"

/-- Tries to open the place. -/
def connect (h : Handle) (d : Disk) : Handle × Disk :=
  if !h.reopenable then ({ h with state := .failed memoryReason }, d)
  else
    match d.openDatabase with
    | (.ok n, d) => ({ h with state := .opened n }, d)
    | (.error reason, d) => ({ h with state := .failed reason }, d)

/-- Opens the place if that was not tried yet. -/
def settle (h : Handle) (d : Disk) : Handle × Disk :=
  match h.state with
  | .unopened => h.connect d
  | _ => (h, d)

/-- The number of the open database, or the reason why none is open. -/
def access (h : Handle) : Except String Nat :=
  match h.state with
  | .opened n => .ok n
  | .failed reason => .error reason
  | .closed => .error closedReason
  | .unopened => .error "store not opened"

/-- Performs an operation on the database. -/
def run (h : Handle) (d : Disk) (q : Query) : Except Error Answer × Handle × Disk :=
  let (h, d) := h.settle d
  match h.access with
  | .error reason => (.error (.storeUnavailable reason), h, d)
  | .ok n =>
    -- A database stays open for reading when its file is taken away.
    let (answer, db) := (d.database n).run h.limits (!h.reopenable || d.isCurrent n) q
    (answer, h, d.setDatabase n db)

/-- Opens the place anew. -/
def reconnect (h : Handle) (d : Disk) : Except Error Unit × Handle × Disk :=
  let (h, d) := h.connect d
  match h.access with
  | .ok _ => (.ok (), h, d)
  | .error reason => (.error (.storeUnavailable reason), h, d)

def close (h : Handle) : Handle :=
  { h with state := .closed }

end Handle

/-! ## §3 A place with its handles -/

/-- A place and the handles on it. -/
structure Shelf where
  disk : Disk
  handles : List Handle
  deriving DecidableEq, Repr

/-- What can be done through a handle. -/
inductive Action where
  /-- An operation on the database. -/
  | query (q : Query)
  /-- Open the place anew. -/
  | reconnect
  | close
  deriving DecidableEq, Repr

namespace Shelf

/-- A place with handles of the given limits, which have not opened it yet. -/
def new (disk : Disk) (limits : List Limits) : Shelf :=
  ⟨disk, limits.map .new⟩

/-- One handle on a database in memory. -/
def inMemory (limits : Limits) : Shelf :=
  ⟨⟨.nothing, [.empty]⟩, [⟨limits, false, .opened 0⟩]⟩

/-- Performs an action through the handle of a number. -/
def perform (s : Shelf) (number : Nat) (a : Action) : Except Error Answer × Shelf :=
  match s.handles[number]? with
  | none => (.error (.storeUnavailable Handle.closedReason), s)
  | some h =>
    match a with
    | .query q =>
      let (answer, h, d) := h.run s.disk q
      (answer, ⟨d, s.handles.set number h⟩)
    | .reconnect =>
      let (answer, h, d) := h.reconnect s.disk
      (answer.map fun _ => .done, ⟨d, s.handles.set number h⟩)
    | .close => (.ok .done, ⟨s.disk, s.handles.set number h.close⟩)

/-- Performs actions in order, each through the handle of a number. -/
def performAll (s : Shelf) : List (Nat × Action) → List (Except Error Answer) × Shelf
  | [] => ([], s)
  | (number, a) :: rest =>
    let (answer, s) := s.perform number a
    let (answers, s) := s.performAll rest
    (answer :: answers, s)

/-- Takes away what is at the place. -/
def clear (s : Shelf) : Shelf :=
  { s with disk := s.disk.clear }

end Shelf

end QueryPlayground.History
