import QueryPlayground.History.Database

/-!
# Recording as a transaction

To record a text takes up to two writes: the oldest entries go to make room, and the new entry takes
the next number. Both work on a copy of the database, and either of them can fail; only when all are
done does the copy take the place of the database.
-/

namespace QueryPlayground.History

/-! ## §1 Writes -/

/-- A write to the table of a history. -/
inductive Statement where
  /-- Remove the oldest entries. -/
  | evict (count : Nat)
  /-- Put in an entry under the next number. -/
  | append (timestamp : Int) (content : String)
  deriving DecidableEq, Repr

/-- What a write does to a table, or why it fails. -/
def Statement.exec (writable : Bool) (t : Table) : Statement → Except Error Table
  | .evict count => if writable then .ok (t.dropOldest count) else .error readOnlyError
  | .append timestamp content =>
    if writable then
      match t.nextId? with
      | some id => .ok (t.addRow ⟨id, timestamp, content⟩)
      | none => .error fullError
    else .error readOnlyError

/-- The writes that record a text, unless it is not recorded for its own sake. -/
def Table.statements? (limits : Limits) (now : Int) (content : String) (t : Table) :
    Option (List Statement) :=
  if isRejected limits content || t.repeatsNewest content then none
  else
    let room := if limits.maxEntries ≤ t.rows.length then [.evict (excess limits t)] else []
    some (room ++ [.append (t.timeOfNew now) content])

/-! ## §2 Transactions -/

/-- A database, and the copy of it that writes work on. -/
structure Transaction where
  start : Database
  /-- The copy. -/
  work : Database
  deriving DecidableEq, Repr

namespace Transaction

/-- A transaction in which nothing is done yet. -/
def begin (d : Database) : Transaction :=
  ⟨d, d⟩

/-- Performs writes to a history in order, up to the first one that fails, with its error. -/
def execAll (writable : Bool) (kind : HistoryKind) (t : Transaction) :
    List Statement → Transaction × Option Error
  | [] => (t, none)
  | s :: rest =>
    match s.exec writable (t.work.table kind) with
    | .ok table => execAll writable kind { t with work := t.work.setTable kind table } rest
    | .error e => (t, some e)

end Transaction

namespace Database

/-- Performs writes to a history. The copy takes the place of the database when all are done, and is
dropped when one fails. -/
def transact (writable : Bool) (kind : HistoryKind) (d : Database) (ss : List Statement) :
    Except Error Unit × Database :=
  match (Transaction.begin d).execAll writable kind ss with
  | (t, none) => (.ok (), t.work)
  | (t, some e) => (.error e, t.start)

/-- Records a text in a transaction. The new entry has the last number that was given out. -/
def record (limits : Limits) (writable : Bool) (kind : HistoryKind) (content : String) (now : Int)
    (d : Database) : Except Error Answer × Database :=
  let t := d.table kind
  match t.statements? limits now content with
  | none => (.ok (.insertion none), d)
  | some ss =>
    match d.transact writable kind ss with
    | (.error e, d') => (.error e, d')
    | (.ok _, d') =>
      let e : Entry := ⟨(d'.table kind).lastId, t.timeOfNew now, content⟩
      (.ok (.insertion (some ⟨e, if limits.maxEntries ≤ t.rows.length then t.oldest? else none⟩)),
        d')

end Database

end QueryPlayground.History
