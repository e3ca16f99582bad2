import QueryPlayground.History.Transaction
import QueryPlayground.Proofs.History.Retention

/-!
# Recording is all or nothing

That recording comes to a transaction is `Database.run_insert_eq_record`. A failure leaves nothing but
the copy behind, and that is thrown away.

Main statement: `Database.insert_allOrNothing`.
-/

namespace QueryPlayground.History

/-! ## §1 Writes -/

namespace Table

variable {t : Table} {limits : Limits} {now : Int} {content : String} {ss : List Statement}

theorem insert_of_statements?_none (h : t.statements? limits now content = none) :
    t.insert limits now content = .skipped := by
  rw [statements?] at h
  split at h
  next hskip => rw [insert, if_pos hskip]
  next => cases h

/-- Where a text comes to be written, its number is taken after room was made. -/
theorem insert_of_statements?_some (h : t.statements? limits now content = some ss) :
    t.insert limits now content =
      match (t.room limits).nextId? with
      | none => .exhausted
      | some id =>
        .recorded
          ⟨⟨id, t.timeOfNew now, content⟩,
            if limits.maxEntries ≤ t.rows.length then t.oldest? else none⟩
          ⟨(t.room limits).rows ++ [⟨id, t.timeOfNew now, content⟩], id⟩ := by
  rw [statements?] at h
  split at h
  next => cases h
  next hskip => exact if_neg hskip

theorem ne_nil_of_statements? (h : t.statements? limits now content = some ss) : ss ≠ [] := by
  rw [statements?] at h
  split at h
  next => cases h
  next =>
    obtain rfl := Option.some.inj h
    simp

end Table

/-! ## §2 Transactions -/

namespace Transaction

variable {writable : Bool} {kind : HistoryKind}

/-- No write reaches the database itself. -/
theorem start_execAll (t : Transaction) (ss : List Statement) :
    (t.execAll writable kind ss).1.start = t.start := by
  induction ss generalizing t with
  | nil => rfl
  | cons s ss ih =>
    rw [execAll]
    split
    · exact ih _
    · rfl

/-- No write to a history reaches the other one. -/
theorem table_work_execAll (t : Transaction) (ss : List Statement) {k : HistoryKind}
    (hk : k ≠ kind) : (t.execAll writable kind ss).1.work.table k = t.work.table k := by
  -- By induction on the writes, of which each replaces only the table of its own history.
  induction ss generalizing t with
  | nil => rfl
  | cons s ss ih =>
    rw [execAll]
    split
    · rw [ih, Database.table_setTable, if_neg hk.symm]
    · rfl

end Transaction

namespace Database

variable {writable : Bool} {kind : HistoryKind}

/-- A failure leaves the database as it was, whatever was done to the copy. -/
theorem transact_of_failure {d : Database} {ss : List Statement} {t : Transaction} {e : Error}
    (h : (Transaction.begin d).execAll writable kind ss = (t, some e)) :
    d.transact writable kind ss = (.error e, d) := by
  have hstart : ((Transaction.begin d).execAll writable kind ss).1.start = d :=
    Transaction.start_execAll _ ss
  rw [h] at hstart
  simp only [transact, h]
  rw [show t.start = d from hstart]

theorem transact_of_done {d : Database} {ss : List Statement} {t : Transaction}
    (h : (Transaction.begin d).execAll writable kind ss = (t, none)) :
    d.transact writable kind ss = (.ok (), t.work) := by
  simp only [transact, h]

/-- A database that is not writable fails at the first write. -/
theorem transact_readOnly (d : Database) {ss : List Statement} (h : ss ≠ []) :
    d.transact false kind ss = (.error readOnlyError, d) := by
  obtain ⟨s, ss, rfl⟩ := List.exists_cons_of_ne_nil h
  refine transact_of_failure (t := Transaction.begin d) ?_
  cases s <;> simp [Transaction.execAll, Statement.exec]

/-- Nothing reaches the other history. -/
theorem table_transact (d : Database) (ss : List Statement) {k : HistoryKind} (hk : k ≠ kind) :
    (d.transact writable kind ss).2.table k = d.table k := by
  have hwork : ((Transaction.begin d).execAll writable kind ss).1.work.table k = d.table k :=
    Transaction.table_work_execAll _ ss hk
  rcases hexec : (Transaction.begin d).execAll writable kind ss with ⟨t, _ | e⟩
  · rw [transact_of_done hexec]
    rw [hexec] at hwork
    exact hwork
  · rw [transact_of_failure hexec]

/-! ## §3 Recording -/

variable {d : Database} {limits : Limits} {now : Int} {content : String} {ss : List Statement}

/-- The writes make room in the copy, and then take a number in it. -/
theorem execAll_statements? (h : (d.table kind).statements? limits now content = some ss) :
    (Transaction.begin d).execAll true kind ss =
      match ((d.table kind).room limits).nextId? with
      | none => (⟨d, d.setTable kind ((d.table kind).room limits)⟩, some fullError)
      | some id =>
        (⟨d, d.setTable kind
          ⟨((d.table kind).room limits).rows ++ [⟨id, (d.table kind).timeOfNew now, content⟩], id⟩⟩,
          none) := by
  rw [Table.statements?] at h
  split at h
  · cases h
  obtain rfl := Option.some.inj h
  -- Whether or not oldest entries have to go first, the last write finds the table with room made.
  have hroom : (Transaction.begin d).execAll true kind
      ((if limits.maxEntries ≤ (d.table kind).rows.length then
          [Statement.evict (Table.excess limits (d.table kind))] else []) ++
        [.append ((d.table kind).timeOfNew now) content]) =
      Transaction.execAll true kind ⟨d, d.setTable kind ((d.table kind).room limits)⟩
        [.append ((d.table kind).timeOfNew now) content] := by
    unfold Table.room
    split
    · simp [Transaction.execAll, Transaction.begin, Statement.exec]
    · simp [Transaction.begin, setTable_table]
  rw [hroom]
  simp only [Transaction.execAll, Statement.exec, table_setTable, if_true]
  cases hid : ((d.table kind).room limits).nextId? with
  | none => rfl
  | some id =>
    -- The number is a new one, so it is the last one given out.
    have hlast := (Table.nextId?_eq_some hid).1
    simp only [setTable_setTable, Table.addRow, Int.max_eq_right (Int.le_of_lt hlast)]

/-- Recording a text does not reach the other history. -/
theorem table_record {k : HistoryKind} (hk : k ≠ kind) :
    (d.record limits writable kind content now).2.table k = d.table k := by
  rw [record]
  cases hss : (d.table kind).statements? limits now content with
  | none => rfl
  | some ss =>
    have hother : (d.transact writable kind ss).2.table k = d.table k := table_transact d ss hk
    rcases htransact : d.transact writable kind ss with ⟨_ | _, d'⟩ <;>
      simpa only [htransact] using hother

/-- Recording a text is the transaction of its writes. -/
theorem run_insert_eq_record (d : Database) (limits : Limits) (writable : Bool)
    (kind : HistoryKind) (content : String) (now : Int) :
    d.run limits writable (.insert kind content now) =
      d.record limits writable kind content now := by
  rw [run, record]
  cases hss : (d.table kind).statements? limits now content with
  | none => rw [Table.insert_of_statements?_none hss]
  | some ss =>
    rw [Table.insert_of_statements?_some hss]
    have hexec := execAll_statements? hss
    cases writable with
    | false =>
      -- There is always a write, and the first one fails whether or not a number is left.
      simp only [transact_readOnly d (Table.ne_nil_of_statements? hss)]
      cases ((d.table kind).room limits).nextId? <;> rfl
    | true =>
      cases hid : ((d.table kind).room limits).nextId? with
      | none =>
        rw [hid] at hexec
        simp only [transact_of_failure hexec, if_true]
      | some id =>
        rw [hid] at hexec
        simp only [transact_of_done hexec, table_setTable, if_true]

/-! ## §4 All or nothing -/

/-- Where the greatest number was given out, room is made in the copy and then no number is
found. -/
theorem execAll_of_maxId_le (hlast : Table.maxId ≤ (d.table kind).lastId)
    (h : (d.table kind).statements? limits now content = some ss) :
    (Transaction.begin d).execAll true kind ss =
      (⟨d, d.setTable kind ((d.table kind).room limits)⟩, some fullError) := by
  have hid : ((d.table kind).room limits).nextId? = none := by
    rw [Table.nextId?_eq_none_iff, Table.lastId_room]
    exact .inl hlast
  rw [execAll_statements? h, hid]

/-- No text is recorded any more then. -/
theorem run_insert_of_maxId_le (hlast : Table.maxId ≤ (d.table kind).lastId) (limits : Limits)
    (content : String) (now : Int) :
    (d.run limits true (.insert kind content now)).2 = d := by
  rw [run_insert_eq_record, record]
  cases hss : (d.table kind).statements? limits now content with
  | none => rfl
  | some ss => simp only [transact_of_failure (execAll_of_maxId_le hlast hss)]

/-- Where the writes of a text fail, so does recording it. -/
theorem run_insert_of_failure {t : Transaction} {e : Error}
    (h : (d.table kind).statements? limits now content = some ss)
    (hexec : (Transaction.begin d).execAll writable kind ss = (t, some e)) :
    d.run limits writable (.insert kind content now) = (.error e, d) := by
  rw [run_insert_eq_record, record]
  simp only [h, transact_of_failure hexec]

/-- Where the answer is no entry, nothing has changed. -/
theorem run_insert_of_not_recorded
    (h : (∃ e, (d.run limits writable (.insert kind content now)).1 = .error e) ∨
      (d.run limits writable (.insert kind content now)).1 = .ok (.insertion none)) :
    (d.run limits writable (.insert kind content now)).2 = d := by
  cases hss : (d.table kind).statements? limits now content with
  | none => simp only [run_insert_eq_record, record, hss]
  | some ss =>
    rcases hexec : (Transaction.begin d).execAll writable kind ss with ⟨t, _ | e⟩
    · -- All writes are done, so the answer is the entry.
      simp [run_insert_eq_record, record, hss, transact_of_done hexec] at h
    · exact congrArg Prod.snd (run_insert_of_failure hss hexec)

/-- What it means that recording a text is all or nothing. -/
structure AllOrNothing (d : Database) (limits : Limits) (kind : HistoryKind) (content : String)
    (now : Int) : Prop where
  /-- What answers with an error, or that the text is not recorded, leaves entries and numbers of
  both histories as they were. -/
  nothing : ∀ writable, let r := d.run limits writable (.insert kind content now)
    (∃ e, r.1 = .error e) ∨ r.1 = .ok (.insertion none) → r.2 = d
  /-- What records the text leaves the other history as it was. -/
  own : ∀ writable, let r := d.run limits writable (.insert kind content now)
    ∀ i, r.1 = .ok (.insertion (some i)) → ∀ k, k ≠ kind → r.2.table k = d.table k
  /-- Where a write fails, the writes before it are undone. -/
  undone : ∀ writable ss t e, (d.table kind).statements? limits now content = some ss →
    (Transaction.begin d).execAll writable kind ss = (t, some e) →
    d.run limits writable (.insert kind content now) = (.error e, d)
  /-- So it is where no number is left for a text that comes to be written. The oldest entries of a
  full history were gone from the copy by then. -/
  exhausted : Table.maxId ≤ (d.table kind).lastId →
    ∀ ss, (d.table kind).statements? limits now content = some ss →
      ∃ t, (Transaction.begin d).execAll true kind ss = (t, some fullError) ∧
        (t.work.table kind).listing =
          (d.table kind).listing.drop ((d.table kind).rows.length + 1 - limits.maxEntries) ∧
        d.run limits true (.insert kind content now) = (.error fullError, d)
  /-- Then no entry is lost, however often recording is tried again and with whatever texts. -/
  retried : Table.maxId ≤ (d.table kind).lastId → ∀ xs, d.insertEach limits kind xs = d

/-- Recording a text is all or nothing, in every database and whatever the text and the limits. -/
theorem insert_allOrNothing (d : Database) (limits : Limits) (kind : HistoryKind)
    (content : String) (now : Int) : d.AllOrNothing limits kind content now := by
  refine ⟨fun writable => run_insert_of_not_recorded, ?own,
    fun writable ss t e => run_insert_of_failure, ?exhausted, ?retried⟩
  -- The other table is not touched.
  case own =>
    intro writable r i _ k hk
    simp only [r, run_insert_eq_record, table_record hk]
  -- Eviction comes before the insertion that fails, and is undone with it.
  case exhausted =>
    intro hlast ss hss
    have hexec := execAll_of_maxId_le hlast hss
    refine ⟨_, hexec, ?_, run_insert_of_failure hss hexec⟩
    rw [table_setTable, if_pos rfl, Table.listing_room, Queue.kept, Table.queue,
      Table.length_listing]
  -- As nothing has changed, the next insertion fails as well.
  case retried =>
    intro hlast xs
    induction xs with
    | nil => rfl
    | cons x xs ih =>
      rw [insertEach, List.foldl_cons, run_insert_of_maxId_le hlast]
      exact ih

/-- A full history in which the greatest number is that of the older entry, so that recording takes
it out and then finds no number. -/
theorem insert_allOrNothing_of_full :
    let d : Database := ⟨⟨[⟨Table.maxId, 900, "a"⟩, ⟨3, 901, "b"⟩], Table.maxId⟩, .empty⟩
    let limits : Limits := ⟨2, 9⟩
    d.run limits true (.insert .queries "c" 5) = (.error fullError, d) ∧
      (d.insertEach limits .queries [(5, "c"), (6, "d"), (7, "c")]) = d ∧
      ∃ t, (Transaction.begin d).execAll true .queries [.evict 1, .append 901 "c"] =
          (t, some fullError) ∧
        (t.work.table .queries).listing = [⟨3, 901, "b"⟩] := by
  intro d limits
  have hlast : Table.maxId ≤ (d.table .queries).lastId := Int.le_refl _
  have hall := insert_allOrNothing d limits .queries "c" 5
  -- The oldest row is put out first, and then there is no number for the new one.
  have hstatements : (d.table .queries).statements? limits 5 "c" =
      some [.evict 1, .append 901 "c"] := by decide +kernel
  obtain ⟨t, hexec, hlisting, hrun⟩ := hall.exhausted hlast _ hstatements
  have hsorted : (d.table .queries).listing = (d.table .queries).rows :=
    List.mergeSort_of_pairwise (by decide)
  have hrest : (d.table .queries).listing.drop 1 = [⟨3, 901, "b"⟩] := by
    rw [hsorted]
    rfl
  exact ⟨hrun, hall.retried hlast _, t, hexec, hlisting.trans hrest⟩

end Database

/-! ## §5 Handles -/

/-- Writing back what a database holds changes no database. -/
theorem Disk.database_setDatabase_self (d : Disk) (m n : Nat) :
    (d.setDatabase m (d.database m)).database n = d.database n := by
  rcases Nat.lt_or_ge m d.databases.length with hm | hm
  · simp [setDatabase, database, hm]
  · simp [setDatabase, List.set_eq_of_length_le hm]

/-- A handle that has to open its place first changes no database. -/
theorem Handle.database_settle (h : Handle) (d : Disk) (n : Nat) :
    (h.settle d).2.database n = d.database n := by
  have hopen := d.database_openDatabase n
  unfold settle connect
  split
  next =>
    split
    next => rfl
    next => split <;> next hdisk => simpa only [hdisk] using hopen
  next => rfl

/-- Through a handle in any state, where recording a text answers with no entry, no database that is
or was at the place has changed. -/
theorem Handle.run_insert_of_not_recorded {h : Handle} {d : Disk} {kind : HistoryKind}
    {content : String} {now : Int}
    (hanswer : (∃ e, (h.run d (.insert kind content now)).1 = .error e) ∨
      (h.run d (.insert kind content now)).1 = .ok (.insertion none)) (n : Nat) :
    (h.run d (.insert kind content now)).2.2.database n = d.database n := by
  rw [← h.database_settle d n]
  revert hanswer
  unfold run
  rcases h.settle d with ⟨h, d⟩
  cases haccess : h.access with
  | error reason => simp only [haccess, implies_true]
  | ok m =>
    simp only [haccess]
    intro hanswer
    rw [Database.run_insert_of_not_recorded hanswer, Disk.database_setDatabase_self]

end QueryPlayground.History
