import QueryPlayground.History.Handle
import QueryPlayground.Proofs.History.Queue

/-!
# Runs through several handles

While its place can be opened and no handle was closed, a handle answers as the database at the
place does, whichever handle it is and whether it was open before. Hence a run of operations through
any handles, each with limits of its own, is a run of the queues of both histories.

Main statements: `Handle.run_of_ready` for one operation, `Shelf.performAll_run_queue` for runs.
-/

namespace QueryPlayground.History

/-! ## §1 Handles that are ready -/

namespace Disk

/-- Nothing keeps a database from being opened. -/
def Openable (d : Disk) : Prop :=
  match d.found with
  | .nothing => True
  | .obstacle _ => False
  | .database n => n < d.databases.length

/-- The database at the place; where nothing is, the empty one that opening creates. -/
def content (d : Disk) : Database :=
  match d.found with
  | .database n => d.database n
  | _ => .empty

theorem database_setDatabase {d : Disk} {n : Nat} (hn : n < d.databases.length) (db : Database) :
    (d.setDatabase n db).database n = db := by
  simp [setDatabase, database, hn]

/-- Opening a place changes no database; one that is created has no entries. -/
theorem database_openDatabase (d : Disk) (n : Nat) :
    d.openDatabase.2.database n = d.database n := by
  rw [openDatabase]
  split
  · -- Beyond the databases that have been there a database counts as empty.
    simp only [database, List.getD_eq_getElem?_getD, List.getElem?_append]
    split
    next => rfl
    next hn =>
      rw [List.getElem?_eq_none (Nat.le_of_not_lt hn)]
      rcases n - d.databases.length with _ | k <;> rfl
  · rfl
  · rfl

end Disk

namespace Handle

/-- A handle that has not opened the place yet, or has the database open that is there. -/
def Ready (h : Handle) (d : Disk) : Prop :=
  h.reopenable = true ∧ (h.state = .unopened ∨ ∃ n, h.state = .opened n ∧ d.found = .database n)

/-- A handle that has the database open that is there answers as that database does. -/
theorem run_of_opened {h : Handle} {d : Disk} {n : Nat} (hstate : h.state = .opened n)
    (hfound : d.found = .database n) (q : Query) :
    let r := d.content.run h.limits true q
    h.run d q = (r.1, h, d.setDatabase n r.2) := by
  have hcontent : d.content = d.database n := by
    rw [Disk.content, hfound]
  have hwritable : (!h.reopenable || d.isCurrent n) = true := by
    simp [Disk.isCurrent, hfound]
  simp only [run, settle, access, hstate, hwritable, hcontent]

/-- Opening a place finds the database there, or creates one without entries. -/
theorem connect_of_openable {h : Handle} {d : Disk} (hre : h.reopenable = true)
    (hd : d.Openable) :
    ∃ n d', h.connect d = ({ h with state := .opened n }, d') ∧ d'.content = d.content ∧
      d'.found = .database n ∧ n < d'.databases.length ∧
      ∀ m, d.found = .database m → m = n := by
  -- A database is there, or an empty one is put where there was nothing.
  cases hfound : d.found with
  | nothing =>
    refine ⟨d.databases.length, ⟨.database d.databases.length, d.databases ++ [.empty]⟩, ?_, ?_,
      rfl, by simp, by simp⟩
    · simp [connect, Disk.openDatabase, hre, hfound]
    · simp [Disk.content, Disk.database, hfound]
  | obstacle reason =>
    rw [Disk.Openable, hfound] at hd
    exact hd.elim
  | database n =>
    rw [Disk.Openable, hfound] at hd
    refine ⟨n, d, ?_, rfl, hfound, hd, by simp⟩
    simp [connect, Disk.openDatabase, hre, hfound]

/-- A handle that is ready answers as the database at the place does, and all handles that were
ready still are. -/
theorem run_of_ready {h : Handle} {d : Disk} (hr : h.Ready d) (hd : d.Openable) (q : Query) :
    ∃ h' d', h.run d q = ((d.content.run h.limits true q).1, h', d') ∧
      d'.content = (d.content.run h.limits true q).2 ∧ d'.Openable ∧ h'.limits = h.limits ∧
      h'.Ready d' ∧ ∀ g : Handle, g.Ready d → g.Ready d' := by
  obtain ⟨hre, hstate⟩ := hr
  -- In either state the handle answers as if it had been open before.
  have hopened : ∃ n d', d'.content = d.content ∧ d'.found = .database n ∧
      n < d'.databases.length ∧ (∀ m, d.found = .database m → m = n) ∧
      h.run d q = { h with state := .opened n }.run d' q := by
    rcases hstate with hstate | ⟨n, hstate, hfound⟩
    · -- The first operation opens the place and then goes on as with an open handle.
      obtain ⟨n, d', hconnect, hcontent, hfound, hn, hsame⟩ := connect_of_openable hre hd
      refine ⟨n, d', hcontent, hfound, hn, hsame, ?_⟩
      simp only [run, settle, hstate, hconnect]
    · rw [Disk.Openable, hfound] at hd
      exact ⟨n, d, rfl, hfound, hd, by simp [hfound], by rw [← hstate]⟩
  obtain ⟨n, d', hcontent, hfound, hn, hsame, hrun⟩ := hopened
  have hanswer := run_of_opened (h := { h with state := .opened n }) rfl hfound q
  rw [hcontent] at hanswer
  refine ⟨_, _, hrun.trans hanswer, ?_, ?_, rfl, ⟨hre, .inr ⟨n, rfl, hfound⟩⟩, ?_⟩
  · rw [Disk.content, Disk.setDatabase, hfound]
    exact Disk.database_setDatabase hn _
  · simpa [Disk.Openable, Disk.setDatabase, hfound] using hn
  · -- Other handles see the place change only from nothing to the database that was created.
    rintro g ⟨hg, hg' | ⟨m, hg', hm⟩⟩
    · exact ⟨hg, .inl hg'⟩
    · exact ⟨hg, .inr ⟨n, hsame m hm ▸ hg', hfound⟩⟩

end Handle

/-! ## §2 Shelves that serve -/

namespace Shelf

/-- The table of a history at the place. -/
def table (s : Shelf) (kind : HistoryKind) : Table :=
  s.disk.content.table kind

/-- A shelf whose place can be opened and whose handles, with the given limits, are all ready. -/
structure Serves (s : Shelf) (limits : List Limits) : Prop where
  /-- The place can be opened. -/
  openable : s.disk.Openable
  /-- The handles have the limits. -/
  limits_eq : s.handles.map (·.limits) = limits
  /-- The handles are ready. -/
  ready : ∀ h ∈ s.handles, h.Ready s.disk

theorem serves_new {disk : Disk} (hd : disk.Openable) (limits : List Limits) :
    (new disk limits).Serves limits := by
  refine ⟨hd, ?_, ?_⟩
  · rw [new, List.map_map]
    exact List.map_id limits
  intro h hh
  obtain ⟨l, -, rfl⟩ := List.mem_map.mp hh
  exact ⟨rfl, .inl rfl⟩

/-- An operation through a handle is one of the database at the place under the handle's limits. -/
theorem perform_query_of_serves {s : Shelf} {limits : List Limits} (hs : s.Serves limits)
    {number : Nat} (hn : number < limits.length) (q : Query) :
    let r := s.disk.content.run limits[number] true q
    (s.perform number (.query q)).1 = r.1 ∧
      (s.perform number (.query q)).2.disk.content = r.2 ∧
      (s.perform number (.query q)).2.Serves limits := by
  obtain ⟨hopenable, hlimits, hready⟩ := hs
  have hlen : number < s.handles.length := by
    rw [← hlimits, List.length_map] at hn
    exact hn
  -- The handle of the number has the limits of the number.
  obtain ⟨h, hh⟩ : ∃ h, s.handles[number]? = some h := ⟨_, List.getElem?_eq_getElem hlen⟩
  have hmem : h ∈ s.handles := List.mem_of_getElem? hh
  have hlimit : h.limits = limits[number] := by
    have hget : (s.handles.map (·.limits))[number]? = some h.limits := by simp [hh]
    rw [hlimits, List.getElem?_eq_getElem hn] at hget
    exact (Option.some.inj hget).symm
  -- The handle reads and changes the database at the place, and the other handles stay ready.
  obtain ⟨h', d', hrun, hcontent, hopen', hlimit', hready', hothers⟩ :=
    Handle.run_of_ready (hready h hmem) hopenable q
  have hperform : s.perform number (.query q) =
      ((s.disk.content.run h.limits true q).1, ⟨d', s.handles.set number h'⟩) := by
    simp only [perform, hh, hrun]
  rw [hperform, ← hlimit]
  refine ⟨rfl, hcontent, hopen', ?_, ?_⟩
  · rw [List.map_set, hlimit', hlimits, hlimit]
    exact List.set_getElem_self hn
  · intro g hg
    rcases List.mem_or_eq_of_mem_set hg with hg | rfl
    · exact hothers g (hready g hg)
    · exact hready'

end Shelf

/-! ## §3 Runs -/

/-- Operations in order, each under the limits of the handle that it goes through, with their
answers and what they mean for the queue of a history. -/
inductive Queue.Run (limits : List Limits) (kind : HistoryKind) :
    List (Fin limits.length × Query) → List (Except Error Answer) → Queue → Queue → Prop where
  | nil (q : Queue) :
      Run limits kind [] [] q q
  | cons {q q' q'' : Queue} {number : Fin limits.length} {query : Query}
      {answer : Except Error Answer} {rest : List (Fin limits.length × Query)}
      {answers : List (Except Error Answer)} :
      Step limits[number] kind query answer q q' →
      Run limits kind rest answers q' q'' →
      Run limits kind ((number, query) :: rest) (answer :: answers) q q''

namespace Shelf

/-- A run through handles that serve is a run of the queues. -/
theorem run_queue_of_serves {s : Shelf} {limits : List Limits} (hs : s.Serves limits)
    (hd : s.disk.content.Distinct) (steps : List (Fin limits.length × Query))
    (kind : HistoryKind) :
    let r := s.performAll (steps.map fun x => (x.1.val, .query x.2))
    Queue.Run limits kind steps r.1 (s.table kind).queue (r.2.table kind).queue := by
  induction steps generalizing s with
  | nil => exact .nil _
  | cons x rest ih =>
    obtain ⟨number, query⟩ := x
    obtain ⟨hanswer, hcontent, hs'⟩ := perform_query_of_serves hs number.isLt query
    -- One step of the database, and the rest on a shelf that serves the content after it.
    have hstep := Database.run_step hd limits[number] query kind
    have hd' : (s.perform number.val (.query query)).2.disk.content.Distinct := by
      intro k
      rw [hcontent]
      exact (Database.run_step hd limits[number] query k).1
    have hrest := ih hs' hd'
    simp only [table, List.map_cons, performAll, hcontent] at hrest ⊢
    refine .cons ?_ hrest
    rw [hanswer]
    exact hstep.2

/-- Whatever is recorded, removed and read through any handles on one place, with whatever limits
and at whatever times, happens to the listing of a history as to a bounded queue. -/
theorem performAll_run_queue (disk : Disk) (limits : List Limits) (ho : disk.Openable)
    (hd : disk.content.Distinct) (steps : List (Fin limits.length × Query)) (kind : HistoryKind) :
    let r := (Shelf.new disk limits).performAll (steps.map fun x => (x.1.val, .query x.2))
    Queue.Run limits kind steps r.1 (disk.content.table kind).queue (r.2.table kind).queue :=
  run_queue_of_serves (serves_new ho limits) hd steps kind

/-- Two handles with different limits on entries that lie ahead of the clock, out of order. -/
theorem performAll_run_queue_two_handles :
    let disk := Disk.holding ⟨⟨[⟨2, 900, "b"⟩, ⟨1, 900, "a"⟩], 2⟩, .empty⟩
    let limits : List Limits := [⟨4, 3⟩, ⟨1, 3⟩]
    let steps : List (Fin 2 × Query) :=
      [(0, .insert .queries "b" 5), (0, .insert .queries "c" 5), (1, .insert .queries "d" 3),
        (0, .delete .queries 4), (1, .reset), (1, .insert .queries "e" 1)]
    let r := (Shelf.new disk limits).performAll (steps.map fun x => (x.1.val, .query x.2))
    disk.Openable ∧ disk.content.Distinct ∧
      Queue.Run limits .queries steps r.1 (disk.content.table .queries).queue
        (r.2.table .queries).queue := by
  intro disk limits steps r
  have ho : disk.Openable := Nat.zero_lt_one
  have hd : disk.content.Distinct := by
    intro kind
    cases kind <;> decide
  exact ⟨ho, hd, performAll_run_queue disk limits ho hd steps .queries⟩

/-- A text that the queue would take is not recorded once the greatest number is in use. -/
theorem not_recorded_iff_takes :
    ¬ ∀ (disk : Disk) (limits : Limits) (content : String) (now : Int),
      disk.Openable → disk.content.Distinct →
      ((∃ i, ((Shelf.new disk [limits]).perform 0 (.query (.insert .queries content now))).1 =
          .ok (.insertion (some i))) ↔
        (disk.content.table .queries).queue.Takes limits content) := by
  intro h
  -- A table whose greatest number is in use takes a text, and the insertion fails.
  let disk := Disk.holding ⟨⟨[⟨Table.maxId, 900, "a"⟩], Table.maxId⟩, .empty⟩
  have hd : disk.content.Distinct := by
    intro kind
    cases kind <;> decide
  have hfull : ((Shelf.new disk [.default]).perform 0 (.query (.insert .queries "b" 5))).1 =
      .error fullError := by decide
  obtain ⟨i, hi⟩ := (h disk .default "b" 5 Nat.zero_lt_one hd).mpr (by
    refine (Table.takes_iff (hd .queries) _ _).mpr ?_
    decide)
  rw [hfull] at hi
  cases hi

end Shelf

end QueryPlayground.History
