import QueryPlayground.History.Database
import QueryPlayground.Proofs.History.Listing

/-!
# Histories as queues

A history behaves as a bounded queue: new entries go in at the back, old ones leave at the front when
the queue is full, and what would repeat the last entry is not taken in. `Queue.Step` says what every
operation on a database means for the queue of one history, with nothing about rows or how they lie.

Main statement: `Database.run_step`, an operation of a writable database is a step of both queues.
-/

namespace QueryPlayground.History

/-! ## §1 Queues -/

/-- A history as a list of entries, oldest first. -/
structure Queue where
  /-- The entries. -/
  entries : List Entry
  /-- The last number that was given out. -/
  lastId : Int

namespace Queue

/-- A text is taken in if it is not empty, not too long and no repetition of the last entry. -/
def Takes (limits : Limits) (content : String) (q : Queue) : Prop :=
  content ≠ "" ∧ content.length ≤ limits.maxEntrySize ∧
    ∀ e, q.entries.getLast? = some e → e.content ≠ content

/-- The entries that stay when another one comes in. -/
def kept (limits : Limits) (q : Queue) : List Entry :=
  q.entries.drop (q.entries.length + 1 - limits.maxEntries)

/-- The greatest number was given out, or is the number of an entry that stays. -/
def Exhausted (limits : Limits) (q : Queue) : Prop :=
  Table.maxId ≤ q.lastId ∨ ∃ e ∈ q.kept limits, Table.maxId ≤ e.id

/-- What it means that a text is taken in. -/
structure Records (limits : Limits) (now : Int) (content : String) (i : Insertion)
    (q q' : Queue) : Prop where
  /-- The new entry is at the back, behind the entries that stay. -/
  entries_eq : q'.entries = q.kept limits ++ [i.inserted]
  /-- It holds the text. -/
  content_eq : i.inserted.content = content
  /-- Its time is that of the clock, or that of the last entry where the clock is behind. -/
  timestamp_eq : i.inserted.timestamp = q.entries.getLast?.elim now fun e => max now e.timestamp
  /-- It is not older than any entry. -/
  timestamp_ge : ∀ e ∈ q.entries, e.timestamp ≤ i.inserted.timestamp
  /-- Its number is new, and the last one that was given out. -/
  id_gt : q.lastId < i.inserted.id ∧ (∀ e ∈ q.kept limits, e.id < i.inserted.id) ∧
    q'.lastId = i.inserted.id
  /-- The entry at the front is named where the queue was full. -/
  evicted_eq : i.evicted = if limits.maxEntries ≤ q.entries.length then q.entries.head? else none
  /-- The queue is one entry longer, within its limit. -/
  length_eq : q'.entries.length = min (q.entries.length + 1) (max 1 limits.maxEntries)

/-- An operation that is none on the entries of a history. -/
def Ignores (kind : HistoryKind) : Query → Prop
  | .insert k _ _ | .delete k _ => k ≠ kind
  | .reset => False
  | .page .. | .count _ | .stats _ | .dump => True

/-- What an operation means for the queue of a history. -/
inductive Step (limits : Limits) (kind : HistoryKind) :
    Query → Except Error Answer → Queue → Queue → Prop where
  /-- A text that is not taken in changes nothing. -/
  | refuse {q : Queue} {content : String} {now : Int} :
      ¬ q.Takes limits content →
      Step limits kind (.insert kind content now) (.ok (.insertion none)) q q
  /-- A text that would be taken in but can get no number changes nothing. -/
  | exhaust {q : Queue} {content : String} {now : Int} :
      q.Takes limits content → q.Exhausted limits →
      Step limits kind (.insert kind content now) (.error fullError) q q
  /-- Any other text is taken in. -/
  | record {q q' : Queue} {content : String} {now : Int} {i : Insertion} :
      q.Takes limits content → ¬ q.Exhausted limits → Records limits now content i q q' →
      Step limits kind (.insert kind content now) (.ok (.insertion (some i))) q q'
  /-- Removing an entry leaves all others where they are. -/
  | delete {q : Queue} {id : Int} :
      Step limits kind (.delete kind id) (.ok .done) q
        { q with entries := q.entries.filter (·.id ≠ id) }
  /-- Nothing is left when everything is removed. -/
  | reset {q : Queue} :
      Step limits kind .reset (.ok .done) q { q with entries := [] }
  /-- Other operations change nothing. -/
  | ignore {q : Queue} {query : Query} {answer : Except Error Answer} :
      Ignores kind query → Step limits kind query answer q q

end Queue

/-! ## §2 Tables -/

namespace Table

/-- The queue that a table shows. -/
def queue (t : Table) : Queue :=
  ⟨t.listing, t.lastId⟩

theorem takes_iff {t : Table} (hd : DistinctIds t.rows) (limits : Limits) (content : String) :
    t.queue.Takes limits content ↔
      (isRejected limits content || t.repeatsNewest content) = false := by
  rw [Queue.Takes, queue, isRejected, repeatsNewest, newest?_eq_getLast? hd]
  cases t.listing.getLast? <;> simp [and_assoc]

/-- The entries that stay, as a table. -/
def room (limits : Limits) (t : Table) : Table :=
  if limits.maxEntries ≤ t.rows.length then t.dropOldest (excess limits t) else t

theorem listing_room (limits : Limits) (t : Table) :
    (t.room limits).listing = t.queue.kept limits := by
  -- Below the limit the queue drops nothing, as no more entries have to go than there are.
  unfold room
  split
  next => rw [listing_dropOldest, Queue.kept, queue, length_listing, excess]
  next h =>
    have hzero : t.listing.length + 1 - limits.maxEntries = 0 := by
      rw [length_listing]
      omega
    rw [Queue.kept, queue, hzero, List.drop_zero]

theorem lastId_room (limits : Limits) (t : Table) : (t.room limits).lastId = t.lastId := by
  unfold room dropOldest
  split <;> [split; skip] <;> rfl

theorem subset_rows_room (limits : Limits) (t : Table) : (t.room limits).rows ⊆ t.rows := by
  unfold room
  split
  next => exact subset_rows_dropOldest _ _
  next => exact List.Subset.refl _

theorem distinctIds_room {t : Table} (hd : DistinctIds t.rows) (limits : Limits) :
    DistinctIds (t.room limits).rows := by
  unfold room
  split
  next => exact distinctIds_dropOldest hd _
  next => exact hd

private theorem foldl_max_le (l : List Entry) (n : Int) :
    n ≤ l.foldl (fun n e => max n e.id) n ∧
      (∀ e ∈ l, e.id ≤ l.foldl (fun n e => max n e.id) n) ∧
      (l.foldl (fun n e => max n e.id) n = n ∨
        ∃ e ∈ l, l.foldl (fun n e => max n e.id) n = e.id) := by
  -- By induction on the entries, with the greatest number so far in front of them.
  induction l generalizing n with
  | nil => simp
  | cons x l ih =>
    obtain ⟨hn, hall, hone⟩ := ih (max n x.id)
    rw [List.foldl_cons]
    refine ⟨by omega, ?_, ?_⟩
    · intro e he
      rcases List.mem_cons.mp he with rfl | he
      · omega
      · exact hall e he
    · rcases hone with h | ⟨e, he, h⟩
      · rcases Int.le_total n x.id with hx | hx
        · exact .inr ⟨x, List.mem_cons_self, by omega⟩
        · exact .inl (by omega)
      · exact .inr ⟨e, List.mem_cons_of_mem _ he, h⟩

/-- The next number is beyond the last one given out and beyond those of all rows. -/
theorem nextId?_eq_some {t : Table} {id : Int} (h : t.nextId? = some id) :
    t.lastId < id ∧ ∀ e ∈ t.rows, e.id < id := by
  obtain ⟨hlast, hall, -⟩ := foldl_max_le t.rows t.lastId
  unfold nextId? greatestId at h
  split at h
  next =>
    obtain rfl := Option.some.inj h
    refine ⟨by omega, fun e he => ?_⟩
    have := hall e he
    omega
  next => cases h

/-- There is a next number unless the greatest one was given out or is in use. -/
theorem nextId?_eq_none_iff {t : Table} :
    t.nextId? = none ↔ maxId ≤ t.lastId ∨ ∃ e ∈ t.rows, maxId ≤ e.id := by
  obtain ⟨hlast, hall, hone⟩ := foldl_max_le t.rows t.lastId
  have hnone : t.nextId? = none ↔ maxId ≤ t.rows.foldl (fun n e => max n e.id) t.lastId := by
    unfold nextId? greatestId
    split
    next h => exact iff_of_false (by simp) (Int.not_le.mpr h)
    next h => exact iff_of_true rfl (Int.not_lt.mp h)
  rw [hnone]
  constructor
  · intro h
    rcases hone with h' | ⟨e, he, h'⟩
    · exact .inl (h' ▸ h)
    · exact .inr ⟨e, he, h' ▸ h⟩
  · rintro (h | ⟨e, he, h⟩)
    · exact Int.le_trans h hlast
    · exact Int.le_trans h (hall e he)

theorem exhausted_iff (limits : Limits) (t : Table) :
    t.queue.Exhausted limits ↔ (t.room limits).nextId? = none := by
  rw [Queue.Exhausted, nextId?_eq_none_iff, ← listing_room, lastId_room, queue]
  simp

/-- Recording a text, where it comes to it, takes it into the queue. -/
theorem records_of_nextId? {t : Table} (hd : DistinctIds t.rows) {limits : Limits} (now : Int)
    (content : String) {id : Int} (hid : (t.room limits).nextId? = some id) :
    let e : Entry := ⟨id, t.timeOfNew now, content⟩
    let t' : Table := ⟨(t.room limits).rows ++ [e], id⟩
    DistinctIds t'.rows ∧
      Queue.Records limits now content
        ⟨e, if limits.maxEntries ≤ t.rows.length then t.oldest? else none⟩ t.queue t'.queue := by
  intro e t'
  -- The number is taken after room was made, so it is beyond those of the entries that stay.
  obtain ⟨hlast, hnew⟩ := nextId?_eq_some hid
  rw [lastId_room] at hlast
  have htime : t.timeOfNew now = t.listing.getLast?.elim now fun x => max now x.timestamp := by
    rw [timeOfNew, newest?_eq_getLast? hd]
    cases t.listing.getLast? <;> rfl
  have hge : ∀ x ∈ t.rows, x.timestamp ≤ t.timeOfNew now := by
    -- The last entry of the listing is not older than `x`, and the new one not older than that.
    intro x hx
    have hne : t.listing ≠ [] := listing_ne_nil hx
    have hle : x.le (t.listing.getLast hne) = true :=
      Sorted.le_getLast t.sorted_listing hne (mem_listing.mpr hx)
    have := Entry.timestamp_le_of_le hle
    rw [htime, List.getLast?_eq_some_getLast hne, Option.elim_some]
    omega
  obtain ⟨hdistinct, hlisting⟩ := listing_append (e := e) (distinctIds_room hd limits) id
    fun x hx => ⟨hge x (subset_rows_room limits t hx), hnew x hx⟩
  have hentries : t'.listing = t.queue.kept limits ++ [e] := by
    rw [hlisting, listing_room]
  refine ⟨hdistinct, hentries, rfl, htime, ?_, ⟨hlast, ?_, rfl⟩, ?_, ?_⟩
  · exact fun x hx => hge x (mem_listing.mp hx)
  · intro x hx
    rw [← listing_room] at hx
    exact hnew x (mem_listing.mp hx)
  · rw [oldest?_eq_head? hd, queue, length_listing]
  · have hlen := congrArg List.length hentries
    simp only [Queue.kept, queue, List.length_append, List.length_drop, List.length_singleton]
      at hlen ⊢
    omega

/-- What comes of recording a text, in terms of the queue before. -/
def Outcome.Means (limits : Limits) (now : Int) (content : String) (q : Queue) : Outcome → Prop
  | .skipped => ¬ q.Takes limits content
  | .exhausted => q.Takes limits content ∧ q.Exhausted limits
  | .recorded i t =>
    q.Takes limits content ∧ ¬ q.Exhausted limits ∧ DistinctIds t.rows ∧
      q.Records limits now content i t.queue

/-- What recording a text means for the queue of a table. -/
theorem insert_step {t : Table} (hd : DistinctIds t.rows) (limits : Limits) (now : Int)
    (content : String) :
    (t.insert limits now content).Means limits now content t.queue := by
  have htakes := takes_iff hd limits content
  have hexhausted := exhausted_iff limits t
  -- A text is skipped, has no number left for it, or gets the next one.
  cases hskip : isRejected limits content || t.repeatsNewest content with
  | true =>
    rw [insert, if_pos hskip, Outcome.Means, htakes, hskip]
    simp
  | false =>
    rw [hskip] at htakes
    cases hid : (t.room limits).nextId? with
    | none =>
      have hinsert : t.insert limits now content = .exhausted := by
        rw [room] at hid
        simp only [insert, hskip, hid, Bool.false_eq_true, if_false]
      rw [hinsert]
      exact ⟨htakes.mpr rfl, hexhausted.mpr hid⟩
    | some id =>
      have hfree : ¬ t.queue.Exhausted limits := by
        rw [hexhausted, hid]
        simp
      have hinsert : t.insert limits now content =
          .recorded
            ⟨⟨id, t.timeOfNew now, content⟩,
              if limits.maxEntries ≤ t.rows.length then t.oldest? else none⟩
            ⟨(t.room limits).rows ++ [⟨id, t.timeOfNew now, content⟩], id⟩ := by
        rw [room] at hid ⊢
        simp only [insert, hskip, hid, Bool.false_eq_true, if_false]
      rw [hinsert]
      exact ⟨htakes.mpr rfl, hfree, records_of_nextId? hd now content hid⟩

end Table

/-! ## §3 Databases -/

namespace Database

theorem table_setTable (d : Database) (kind kind' : HistoryKind) (t : Table) :
    (d.setTable kind t).table kind' = if kind = kind' then t else d.table kind' := by
  cases kind <;> cases kind' <;> rfl

theorem table_reset (d : Database) (kind : HistoryKind) :
    d.reset.table kind = (d.table kind).reset := by
  cases kind <;> rfl

/-- The rows of both histories have distinct numbers. -/
def Distinct (d : Database) : Prop :=
  ∀ kind, DistinctIds (d.table kind).rows

/-- Recording a text is a step of the queues of a database. -/
private theorem run_insert_step {d : Database} (hd : d.Distinct) (limits : Limits)
    (k : HistoryKind) (content : String) (now : Int) (kind : HistoryKind) :
    let r := d.run limits true (.insert k content now)
    DistinctIds (r.2.table kind).rows ∧
      Queue.Step limits kind (.insert k content now) r.1 (d.table kind).queue
        (r.2.table kind).queue := by
  have hstep := Table.insert_step (hd k) limits now content
  -- For the other history nothing happens in any case.
  simp only [run]
  cases hinsert : (d.table k).insert limits now content with
  | skipped =>
    rw [hinsert] at hstep
    refine ⟨hd kind, ?_⟩
    by_cases hk : k = kind
    · subst hk
      exact .refuse hstep
    · exact .ignore hk
  | exhausted =>
    rw [hinsert] at hstep
    refine ⟨hd kind, ?_⟩
    by_cases hk : k = kind
    · subst hk
      exact .exhaust hstep.1 hstep.2
    · exact .ignore hk
  | recorded i t =>
    rw [hinsert] at hstep
    simp only [if_true, table_setTable]
    by_cases hk : k = kind
    · subst hk
      obtain ⟨htakes, hfree, hdistinct, hrecords⟩ := hstep
      rw [if_pos rfl]
      exact ⟨hdistinct, .record htakes hfree hrecords⟩
    · rw [if_neg hk]
      exact ⟨hd kind, .ignore hk⟩

/-- An operation of a writable database is a step of the queues of both histories. -/
theorem run_step {d : Database} (hd : d.Distinct) (limits : Limits) (query : Query)
    (kind : HistoryKind) :
    let r := d.run limits true query
    DistinctIds (r.2.table kind).rows ∧
      Queue.Step limits kind query r.1 (d.table kind).queue (r.2.table kind).queue := by
  cases query with
  | insert k content now => exact run_insert_step hd limits k content now kind
  | delete k id =>
    simp only [run, Bool.true_or, if_true, table_setTable]
    by_cases hk : k = kind
    · subst hk
      rw [if_pos rfl]
      have hdistinct : DistinctIds ((d.table k).delete id).rows :=
        (hd k).sublist (List.filter_sublist.map Entry.id)
      -- A number that was removed is not given out again, so `lastId` stays.
      have hqueue : ((d.table k).delete id).queue =
          { (d.table k).queue with entries := (d.table k).queue.entries.filter (·.id ≠ id) } := by
        rw [Table.queue, Table.listing_delete (hd k)]
        rfl
      rw [hqueue]
      exact ⟨hdistinct, .delete⟩
    · rw [if_neg hk]
      exact ⟨hd kind, .ignore hk⟩
  | reset =>
    simp only [run, if_true, table_reset]
    refine ⟨List.nodup_nil, ?_⟩
    have hnil : (d.table kind).reset.queue = { (d.table kind).queue with entries := [] } := by
      simp [Table.queue, Table.reset, Table.listing]
    rw [hnil]
    exact .reset
  | page k request => exact ⟨hd kind, .ignore trivial⟩
  | count k => exact ⟨hd kind, .ignore trivial⟩
  | stats k => exact ⟨hd kind, .ignore trivial⟩
  | dump => exact ⟨hd kind, .ignore trivial⟩

end Database

end QueryPlayground.History
