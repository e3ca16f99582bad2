import QueryPlayground.History.Handle
import QueryPlayground.Proofs.History.Queue

/-!
# Numbers of entries

A table hands out numbers in sequence and keeps the last one when entries go. `Table.Gives` says
what becomes of the numbers of a table over any stretch of time: those that were given out are the
next ones, without a gap, and every other entry was there before. Stretches follow each other, so
what one operation does is what a whole run does. All of it is about tables whose last number is not
behind those of their entries (`Table.Numbered`); rows that are put in from outside keep it so.

Main statements: `Table.gives_of_insert`, `Table.Gives.append` and `Database.run_gives`.
-/

namespace QueryPlayground.History

/-! ## §1 Numbered tables -/

namespace Table

/-- A table whose entries have distinct numbers, none beyond the last one that was given out. -/
structure Numbered (t : Table) : Prop where
  /-- No two entries share a number. -/
  distinct : DistinctIds t.rows
  /-- The last number given out is the greatest. -/
  id_le : ∀ e ∈ t.rows, e.id ≤ t.lastId

theorem numbered_empty : Numbered .empty :=
  ⟨List.nodup_nil, by simp [empty]⟩

/-- A table stays numbered when an entry is put in under a number that is free. -/
theorem Numbered.addRow {t : Table} (ht : t.Numbered) {e : Entry}
    (hfree : ∀ x ∈ t.rows, x.id ≠ e.id) : (t.addRow e).Numbered := by
  refine ⟨?_, ?_⟩
  · rw [DistinctIds, Table.addRow, List.map_append, List.nodup_append']
    refine ⟨ht.distinct, by simp, ?_⟩
    intro id hid hid'
    obtain ⟨x, hx, rfl⟩ := List.mem_map.mp hid
    exact hfree x hx (by simpa using hid')
  · intro x hx
    rcases List.mem_append.mp hx with hx | hx
    · exact Int.le_trans (ht.id_le x hx) (Int.le_max_left _ _)
    · obtain rfl := List.mem_singleton.mp hx
      exact Int.le_max_right _ _

/-- In a numbered table the last number given out is the greatest one. -/
theorem Numbered.greatestId_eq {t : Table} (ht : t.Numbered) : t.greatestId = t.lastId := by
  obtain ⟨rows, lastId⟩ := t
  have hle := ht.id_le
  unfold greatestId
  -- What goes over the entries never finds a greater number than it began with.
  clear ht
  induction rows with
  | nil => rfl
  | cons e rows ih =>
    have he : max lastId e.id = lastId := Int.max_eq_left (hle e List.mem_cons_self)
    rw [List.foldl_cons, he]
    exact ih fun x hx => hle x (List.mem_cons_of_mem _ hx)

/-- Making room takes entries away, no number. -/
theorem Numbered.room {t : Table} (ht : t.Numbered) (limits : Limits) :
    (t.room limits).Numbered := by
  refine ⟨distinctIds_room ht.distinct limits, fun e he => ?_⟩
  rw [lastId_room]
  exact ht.id_le e (subset_rows_room limits t he)

end Table

/-! ## §2 Numbers that are given out -/

/-- Numbers in sequence. -/
def numbersFrom (first : Int) (count : Nat) : List Int :=
  (List.range count).map fun n : Nat => first + n

theorem numbersFrom_add (first : Int) (m n : Nat) :
    numbersFrom first (m + n) = numbersFrom first m ++ numbersFrom (first + m) n := by
  unfold numbersFrom
  rw [List.range_add, List.map_append, List.map_map]
  congr 1
  refine List.map_congr_left fun k _ => ?_
  simp only [Function.comp_apply, Int.natCast_add]
  omega

theorem mem_numbersFrom {first id : Int} {count : Nat} :
    id ∈ numbersFrom first count ↔ first ≤ id ∧ id < first + count := by
  unfold numbersFrom
  rw [List.mem_map]
  constructor
  · rintro ⟨n, hn, rfl⟩
    have := List.mem_range.mp hn
    omega
  · rintro ⟨hfirst, hlast⟩
    exact ⟨(id - first).toNat, List.mem_range.mpr (by omega), by omega⟩

theorem pairwise_lt_numbersFrom (first : Int) (count : Nat) :
    (numbersFrom first count).Pairwise (· < ·) := by
  rw [numbersFrom, List.pairwise_map]
  refine List.pairwise_lt_range.imp ?_
  intro m n hmn
  omega

namespace Table

/-- What it means that a table becomes another one and gives out numbers on the way. -/
structure Gives (ids : List Int) (t t' : Table) : Prop where
  /-- They are the next ones, in sequence. -/
  ids_eq : ids = numbersFrom (t.lastId + 1) ids.length
  /-- As many numbers are gone as were given out. -/
  lastId_eq : t'.lastId = t.lastId + ids.length
  /-- An entry was there before, or has one of them. -/
  mem_or : ∀ e ∈ t'.rows, e ∈ t.rows ∨ e.id ∈ ids
  /-- The table is numbered again. -/
  numbered : t'.Numbered

variable {t t' t'' : Table} {ids ids' : List Int}

/-- Where entries are only taken away, no number is given out. -/
theorem gives_nil (ht : t.Numbered) (hlast : t'.lastId = t.lastId) (hsub : t'.rows.Sublist t.rows) :
    Gives [] t t' := by
  refine ⟨rfl, by simp [hlast], fun e he => .inl (hsub.subset he), ?_, ?_⟩
  · exact ht.distinct.sublist (hsub.map Entry.id)
  · intro e he
    rw [hlast]
    exact ht.id_le e (hsub.subset he)

theorem gives_refl (ht : t.Numbered) : Gives [] t t :=
  gives_nil ht rfl (List.Sublist.refl _)

/-- Numbers given out one stretch after the other are in sequence. -/
theorem Gives.append (h : Gives ids t t') (h' : Gives ids' t' t'') :
    Gives (ids ++ ids') t t'' := by
  refine ⟨?_, ?_, ?_, h'.numbered⟩
  · -- The second sequence goes on where the first one ends.
    have hnext : t'.lastId + 1 = t.lastId + 1 + ids.length := by
      rw [h.lastId_eq]
      omega
    rw [List.length_append, numbersFrom_add, ← hnext, ← h.ids_eq, ← h'.ids_eq]
  · rw [h'.lastId_eq, h.lastId_eq, List.length_append, Int.natCast_add]
    omega
  · intro e he
    rcases h'.mem_or e he with he | he
    · rcases h.mem_or e he with he | he
      · exact .inl he
      · exact .inr (List.mem_append_left _ he)
    · exact .inr (List.mem_append_right _ he)

/-- A number that is given out is new, and not beyond the last one after that. -/
theorem Gives.mem_bounds (h : Gives ids t t') {id : Int} (hid : id ∈ ids) :
    t.lastId < id ∧ id ≤ t'.lastId := by
  have hlast := h.lastId_eq
  rw [h.ids_eq, mem_numbersFrom] at hid
  omega

/-- A number that was given out, and is no entry's any more, is never an entry's again. -/
theorem Gives.absent (h : Gives ids t t') {id : Int} (hle : id ≤ t.lastId)
    (hgone : ∀ e ∈ t.rows, e.id ≠ id) : ∀ e ∈ t'.rows, e.id ≠ id := by
  intro e he
  rcases h.mem_or e he with he | he
  · exact hgone e he
  · have := (h.mem_bounds he).1
    omega

/-- The table in which a text was recorded: the entries that stay, with the new one behind them. -/
theorem insert_eq_recorded {limits : Limits} {now : Int} {content : String} {i : Insertion}
    (h : t.insert limits now content = .recorded i t') :
    (t.room limits).nextId? = some i.inserted.id ∧
      t' = ⟨(t.room limits).rows ++ [i.inserted], i.inserted.id⟩ := by
  simp only [insert, ← room.eq_def] at h
  split at h
  · cases h
  · split at h
    · cases h
    next id hid =>
      obtain ⟨rfl, rfl⟩ := Outcome.recorded.inj h
      exact ⟨hid, rfl⟩

/-- Recording a text gives out the next number. -/
theorem gives_of_insert (ht : t.Numbered) {limits : Limits} {now : Int} {content : String}
    {i : Insertion} (h : t.insert limits now content = .recorded i t') :
    Gives [i.inserted.id] t t' := by
  have hroom := ht.room limits
  obtain ⟨hnext, rfl⟩ := insert_eq_recorded h
  -- The number is taken after room was made, but making room leaves the last number as it is.
  obtain ⟨-, hid⟩ : t.lastId < maxId ∧ t.lastId + 1 = i.inserted.id := by
    rw [nextId?, hroom.greatestId_eq, lastId_room] at hnext
    simpa using hnext
  have hfree : ∀ x ∈ (t.room limits).rows, x.id ≠ i.inserted.id := by
    intro x hx
    have := hroom.id_le x hx
    rw [lastId_room] at this
    omega
  have hadd := hroom.addRow hfree
  rw [addRow, lastId_room, Int.max_eq_right (by omega)] at hadd
  refine ⟨by simp [numbersFrom, hid], by simp [hid], ?_, hadd⟩
  intro e he
  rcases List.mem_append.mp he with he | he
  · exact .inl (subset_rows_room limits t he)
  · rw [List.mem_singleton.mp he]
    exact .inr List.mem_cons_self

end Table

/-! ## §3 Operations -/

/-- The number that an action through a handle hands out in a history, as its answer says. -/
def Action.given? (kind : HistoryKind) : Action → Except Error Answer → Option Int
  | .query (.insert k _ _), .ok (.insertion (some i)) =>
    if k = kind then some i.inserted.id else none
  | _, _ => none

theorem Action.given?_error (kind : HistoryKind) (a : Action) (e : Error) :
    a.given? kind (.error e) = none := by
  cases a with
  | query q => cases q <;> rfl
  | reconnect => rfl
  | close => rfl

namespace Database

/-- The tables of both histories are numbered. -/
def Numbered (d : Database) : Prop :=
  ∀ kind, (d.table kind).Numbered

theorem numbered_empty : Numbered .empty := by
  intro kind
  cases kind <;> exact Table.numbered_empty

/-- A file stays numbered when rows are put in, each under a number of its own or the next one. -/
theorem Numbered.addRow {d : Database} (hd : d.Numbered) (kind : HistoryKind) {id : Option Int}
    (hfree : ∀ n, id = some n → ∀ e ∈ (d.table kind).rows, e.id ≠ n) (timestamp : Int)
    (content : String) : (d.addRow kind id timestamp content).Numbered := by
  intro k
  rw [Database.addRow]
  cases hid : id.or (d.table kind).nextId? with
  | none => exact hd k
  | some n =>
    rw [table_setTable]
    split
    next hk =>
      subst hk
      refine (hd kind).addRow fun e he => ?_
      rcases Option.or_eq_some_iff.mp hid with hid | ⟨-, hid⟩
      · exact hfree n hid e he
      · exact Int.ne_of_lt ((Table.nextId?_eq_some hid).2 e he)
    next => exact hd k

/-- An operation gives out the number that its answer shows, or none. -/
theorem run_gives {d : Database} (hd : d.Numbered) (limits : Limits) (writable : Bool)
    (query : Query) (kind : HistoryKind) :
    let r := d.run limits writable query
    (d.table kind).Gives ((Action.query query).given? kind r.1).toList (r.2.table kind) := by
  have hrefl := Table.gives_refl (hd kind)
  -- Only an insertion gives a number out; a deletion and a reset take rows away and keep the
  -- greatest number.
  cases query with
  | insert k content now =>
    simp only [run]
    cases hinsert : (d.table k).insert limits now content with
    | skipped => exact hrefl
    | exhausted => exact hrefl
    | recorded i t =>
      cases writable with
      | false => exact hrefl
      | true =>
        simp only [if_true, Action.given?, table_setTable]
        by_cases hk : k = kind
        · subst hk
          simpa using Table.gives_of_insert (hd k) hinsert
        · simpa [hk] using hrefl
  | delete k id =>
    simp only [run]
    split
    next =>
      simp only [table_setTable]
      split
      next hk =>
        subst hk
        exact Table.gives_nil (hd k) rfl List.filter_sublist
      next => exact hrefl
    next => exact hrefl
  | reset =>
    simp only [run]
    split
    next =>
      simp only [table_reset]
      exact Table.gives_nil (hd kind) rfl (List.nil_sublist _)
    next => exact hrefl
  | page k request => exact hrefl
  | count k => exact hrefl
  | stats k => exact hrefl
  | dump => exact hrefl

theorem setTable_table (d : Database) (kind : HistoryKind) :
    d.setTable kind (d.table kind) = d := by
  cases kind <;> rfl

theorem setTable_setTable (d : Database) (kind : HistoryKind) (t t' : Table) :
    (d.setTable kind t).setTable kind t' = d.setTable kind t' := by
  cases kind <;> rfl

/-- Removing the entry of a number that no entry has changes nothing. -/
theorem run_delete_of_absent {d : Database} {kind : HistoryKind} {id : Int}
    (hgone : ∀ e ∈ (d.table kind).rows, e.id ≠ id) (limits : Limits) (writable : Bool) :
    d.run limits writable (.delete kind id) = (.ok .done, d) := by
  have hrows : (d.table kind).rows.filter (·.id ≠ id) = (d.table kind).rows :=
    List.filter_eq_self.mpr fun e he => by simpa using hgone e he
  have hnone : (d.table kind).rows.any (·.id == id) = false := by simpa using hgone
  have hdelete : (d.table kind).delete id = d.table kind := by rw [Table.delete, hrows]
  simp only [run, hnone, hdelete, setTable_table, Bool.not_false, Bool.or_true, if_true]

end Database

end QueryPlayground.History
