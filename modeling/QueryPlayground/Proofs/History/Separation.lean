import QueryPlayground.Proofs.History.Availability

/-!
# Histories do not meet

Both histories lie in one file, are reached through the same handles and are cleared together. Still
what is done to one of them cannot be told from the other: leaving it out of a run changes no answer
about the other history and neither its entries nor its numbers. So it does not matter how a run over
queries and a run over templates are put into one, as long as what concerns both stays in its place.

A handle that has not opened its place yet may do so because of an operation on either history.
This makes no difference, as a place may as well be opened from the beginning (`Shelf.opened`).

Main statement: `Shelf.separates_turns`.
-/

namespace QueryPlayground.History

/-! ## §1 What concerns a history -/

/-- The one history that an operation is about, if it is not about both. -/
def Query.kind? : Query → Option HistoryKind
  | .insert kind _ _ | .page kind _ | .delete kind _ | .count kind | .stats kind => some kind
  | .reset | .dump => none

/-- An action concerns a history unless it is an operation on the other one. -/
def Action.concerns (kind : HistoryKind) : Action → Bool
  | .query q => q.kind?.all (· == kind)
  | .reconnect | .close => true

/-- What an answer says about a history. Only a list of both says more. -/
def Answer.part (kind : HistoryKind) : Answer → Answer
  | .dump queries templates =>
    match kind with
    | .queries => .dump queries []
    | .templates => .dump [] templates
  | answer => answer

namespace Database

variable {d d' : Database} {kind : HistoryKind}

/-- An operation on a history reads and changes only the table of that history. -/
theorem run_of_table_eq (h : d.table kind = d'.table kind) (limits : Limits) (writable : Bool)
    {q : Query} (hq : q.kind?.all (· == kind) = true) :
    (d.run limits writable q).1.map (Answer.part kind) =
        (d'.run limits writable q).1.map (Answer.part kind) ∧
      (d.run limits writable q).2.table kind = (d'.run limits writable q).2.table kind := by
  cases q with
  | insert k content now =>
    obtain rfl : k = kind := by simpa [Query.kind?] using hq
    simp only [run, h]
    cases (d'.table k).insert limits now content <;> cases writable <;>
      simp [table_setTable, h]
  | page k request =>
    obtain rfl : k = kind := by simpa [Query.kind?] using hq
    simp only [run, h, and_self]
  | delete k id =>
    obtain rfl : k = kind := by simpa [Query.kind?] using hq
    simp only [run, h]
    split <;> simp [table_setTable, h]
  | count k =>
    obtain rfl : k = kind := by simpa [Query.kind?] using hq
    simp only [run, h, and_self]
  | stats k =>
    obtain rfl : k = kind := by simpa [Query.kind?] using hq
    simp only [run, h, and_self]
  | reset =>
    cases writable <;> simp [run, table_reset, h]
  | dump =>
    -- A list of both histories says more, so only the part of it is compared that is about this one.
    cases kind
    · have hqueries : d.queries = d'.queries := h
      simp [run, Except.map, Answer.part, hqueries, table]
    · have htemplates : d.templates = d'.templates := h
      simp [run, Except.map, Answer.part, htemplates, table]

/-- An operation on the other history leaves the table as it is. -/
theorem table_run_of_other (d : Database) (limits : Limits) (writable : Bool) {q : Query}
    (hq : q.kind?.all (· == kind) = false) :
    (d.run limits writable q).2.table kind = d.table kind := by
  cases q with
  | insert k content now =>
    have hk : k ≠ kind := by simpa [Query.kind?] using hq
    simp only [run]
    cases (d.table k).insert limits now content <;> cases writable <;> simp [table_setTable, hk]
  | delete k id =>
    have hk : k ≠ kind := by simpa [Query.kind?] using hq
    simp only [run]
    split <;> simp [table_setTable, hk]
  | page | count | stats => rfl
  | reset | dump => simp [Query.kind?] at hq

end Database

/-! ## §2 Opening early -/

namespace Disk

variable {d : Disk}

/-- The place once somebody has opened it. -/
def opened (d : Disk) : Disk :=
  d.openDatabase.2

/-- Opening a place where nothing is creates an empty database. -/
theorem opened_of_nothing (h : d.found = .nothing) :
    d.opened = ⟨.database d.databases.length, d.databases ++ [.empty]⟩ := by
  simp only [opened, openDatabase, h]

theorem opened_of_ne (h : d.found ≠ .nothing) : d.opened = d := by
  unfold opened openDatabase
  split
  next hfound => exact (h hfound).elim
  next => rfl
  next => rfl

/-- Once somebody has opened the place, something is there. -/
theorem found_opened_ne (d : Disk) : d.opened.found ≠ .nothing := by
  by_cases h : d.found = .nothing
  · rw [opened_of_nothing h]
    exact Found.noConfusion
  · rwa [opened_of_ne h]

theorem opened_opened (d : Disk) : d.opened.opened = d.opened :=
  opened_of_ne d.found_opened_ne

/-- A database that was not created yet is no different from one without entries. -/
theorem database_opened (d : Disk) (n : Nat) : d.opened.database n = d.database n :=
  d.database_openDatabase n

/-- The content is the same whether or not the place was opened early. -/
theorem content_opened (d : Disk) : d.opened.content = d.content := by
  by_cases h : d.found = .nothing
  · rw [opened_of_nothing h]
    simp [content, database, h]
  · rw [opened_of_ne h]

/-- A database that is there already is changed alike before and after. -/
theorem setDatabase_opened {n : Nat} (hn : n < d.databases.length) (db : Database) :
    (d.setDatabase n db).opened = d.opened.setDatabase n db := by
  by_cases h : d.found = .nothing
  · have h' : (d.setDatabase n db).found = .nothing := h
    rw [opened_of_nothing h, opened_of_nothing h']
    simp [setDatabase, List.set_append_left _ _ hn]
  · have h' : (d.setDatabase n db).found ≠ .nothing := h
    rw [opened_of_ne h, opened_of_ne h']

/-- Whoever opens the place finds what was to be found before, and no database has gone. -/
structure Continues (d d' : Disk) : Prop where
  found_eq : d'.opened.found = d.opened.found
  length_le : d.databases.length ≤ d'.databases.length

theorem Continues.refl (d : Disk) : d.Continues d :=
  ⟨rfl, Nat.le_refl _⟩

theorem Continues.trans {d' d'' : Disk} (h : d.Continues d') (h' : d'.Continues d'') :
    d.Continues d'' :=
  ⟨h'.found_eq.trans h.found_eq, Nat.le_trans h.length_le h'.length_le⟩

/-- Opening the place continues it, and so does changing a database. -/
theorem continues_opened (d : Disk) : d.Continues d.opened := by
  refine ⟨by rw [opened_opened], ?_⟩
  by_cases h : d.found = .nothing
  · simp [opened_of_nothing h]
  · simp [opened_of_ne h]

theorem continues_setDatabase (d : Disk) (n : Nat) (db : Database) :
    d.Continues (d.setDatabase n db) := by
  refine ⟨?_, by simp [setDatabase]⟩
  by_cases h : d.found = .nothing
  · have h' : (d.setDatabase n db).found = .nothing := h
    rw [opened_of_nothing h, opened_of_nothing h']
    simp [setDatabase]
  · have h' : (d.setDatabase n db).found ≠ .nothing := h
    rw [opened_of_ne h, opened_of_ne h']
    rfl

end Disk

namespace Handle

variable {h : Handle} {d : Disk}

/-- The database that a handle has open is one of those that have been at the place. -/
def Rooted (h : Handle) (d : Disk) : Prop :=
  ∀ n, h.state = .opened n → n < d.databases.length

theorem Rooted.of_length_le {d' : Disk} (hr : h.Rooted d)
    (hd : d.databases.length ≤ d'.databases.length) : h.Rooted d' :=
  fun n hn => Nat.lt_of_lt_of_le (hr n hn) hd

/-- To open a place that somebody has opened already makes no difference to a handle. -/
theorem connect_opened (h : Handle) (d : Disk) :
    h.connect d.opened = ((h.connect d).1, d.opened) := by
  cases hfound : d.found <;> cases hre : h.reopenable <;>
    simp [connect, Disk.openDatabase, Disk.opened, hre, hfound]

/-- To connect a handle opens the place or leaves it as it is. -/
theorem connect_snd_cases (h : Handle) (d : Disk) :
    (h.connect d).2 = d ∨ (h.connect d).2 = d.opened := by
  unfold connect
  split
  next => exact .inl rfl
  next => split <;> next heq => exact .inr (congrArg Prod.snd heq).symm

/-- Connecting continues the place, and whoever opens it afterwards finds the same. -/
theorem continues_connect (h : Handle) (d : Disk) : d.Continues (h.connect d).2 := by
  rcases connect_snd_cases h d with heq | heq <;> rw [heq]
  · exact .refl d
  · exact d.continues_opened

theorem opened_connect (h : Handle) (d : Disk) : (h.connect d).2.opened = d.opened := by
  rcases connect_snd_cases h d with heq | heq <;> rw [heq]
  exact d.opened_opened

/-- A handle that has been connected has a database open that was found or created there. -/
theorem rooted_connect (h : Handle) (hd : d.Sound) : (h.connect d).1.Rooted (h.connect d).2 := by
  have hsound := hd
  unfold Disk.Sound at hsound
  cases hfound : d.found <;> cases hre : h.reopenable <;>
    simp_all [Rooted, connect, Disk.openDatabase]

/-- A handle sees of a place only what is found there, once somebody has opened it. -/
theorem connect_fst_of_found {d' : Disk} (hne : d.found ≠ .nothing) (heq : d'.found = d.found) :
    (h.connect d').1 = (h.connect d).1 := by
  unfold connect Disk.openDatabase
  rw [heq]
  cases hfound : d.found with
  | nothing => exact (hne hfound).elim
  | obstacle reason => split <;> rfl
  | database n => split <;> rfl

/-- So with the first operation. -/
theorem settle_fst_of_found {d' : Disk} (hne : d.found ≠ .nothing) (heq : d'.found = d.found) :
    (h.settle d').1 = (h.settle d).1 := by
  unfold settle
  split
  next => exact connect_fst_of_found hne heq
  next => rfl

/-- A handle that has tried to open its place does not try again. -/
theorem settle_of_ne (hstate : h.state ≠ .unopened) (d : Disk) : h.settle d = (h, d) := by
  unfold settle
  split
  next hunopened => exact (hstate hunopened).elim
  next => rfl

/-- Whoever connects anew or closes a handle does not care about its state before. -/
theorem reconnect_settle_opened (h : Handle) (d : Disk) :
    (h.settle d.opened).1.reconnect d.opened =
      ((h.reconnect d).1, (h.reconnect d).2.1, d.opened) := by
  obtain ⟨state, hstate⟩ := settle_fst h d.opened
  have hconnect : (h.settle d.opened).1.connect d.opened = ((h.connect d).1, d.opened) := by
    rw [hstate]
    exact connect_opened h d
  simp only [reconnect, hconnect]
  cases (h.connect d).1.access <;> rfl

theorem close_settle (h : Handle) (d : Disk) : (h.settle d).1.close = h.close := by
  obtain ⟨state, hstate⟩ := settle_fst h d
  rw [hstate]
  rfl

theorem rooted_close (h : Handle) (d : Disk) : h.close.Rooted d := by
  intro n hn
  cases hn

/-- An operation comes to the same on a place that somebody has opened early. -/
structure RunsOpened (h : Handle) (d : Disk) (q : Query) : Prop where
  run_eq : (h.settle d.opened).1.run d.opened q =
    ((h.run d q).1, ((h.run d q).2.1.settle d.opened).1, (h.run d q).2.2.opened)
  continues : d.Continues (h.run d q).2.2
  rooted : (h.run d q).2.1.Rooted (h.run d q).2.2

/-- With a handle that has tried to open its place, only the database it has open matters. -/
theorem runsOpened_of_ne (hstate : h.state ≠ .unopened) (hr : h.Rooted d) (q : Query) :
    h.RunsOpened d q := by
  have hsettle := settle_of_ne hstate
  cases haccess : h.access with
  | error reason =>
    have hrun (d : Disk) : h.run d q = (.error (.storeUnavailable reason), h, d) := by
      simp only [run, hsettle, haccess]
    constructor <;> simp only [hrun, hsettle]
    · exact .refl d
    · exact hr
  | ok n =>
    have hopened : h.state = .opened n := by
      unfold access at haccess
      split at haccess <;> simp_all
    -- The database of the handle is none that opening the place creates.
    have hn : n < d.databases.length := hr n hopened
    have hcurrent : d.opened.isCurrent n = d.isCurrent n := by
      by_cases hfound : d.found = .nothing
      · rw [Disk.opened_of_nothing hfound]
        simp [Disk.isCurrent, hfound, Nat.ne_of_gt hn]
      · rw [Disk.opened_of_ne hfound]
    have hcontinues (db : Database) := d.continues_setDatabase n db
    constructor
    · simp only [run, hsettle, haccess, hcurrent, Disk.database_opened, Disk.setDatabase_opened hn]
    · simp only [run, hsettle, haccess]
      exact hcontinues _
    · simp only [run, hsettle, haccess]
      exact hr.of_length_le (hcontinues _).length_le

/-- No operation tells whether the place was opened early. -/
theorem runsOpened (hd : d.Sound) (hr : h.Rooted d) (q : Query) : h.RunsOpened d q := by
  by_cases hstate : h.state = .unopened
  · -- The first operation opens the place and then goes on as with any other handle.
    have hne := h.connect_state_ne d
    have hruns := runsOpened_of_ne hne (rooted_connect h hd) q
    have hrun : h.run d q = (h.connect d).1.run (h.connect d).2 q := run_of_unopened hstate q
    have hsettle : (h.settle d.opened).1 = (h.connect d).1 := by
      simp only [settle, hstate, connect_opened]
    have heq := hruns.run_eq
    rw [opened_connect, settle_of_ne hne] at heq
    refine ⟨?_, ?_, ?_⟩
    · rw [hsettle, hrun]
      exact heq
    · rw [hrun]
      exact (continues_connect h d).trans hruns.continues
    · rw [hrun]
      exact hruns.rooted
  · exact runsOpened_of_ne hstate hr q

end Handle

namespace Shelf

variable {s : Shelf}

/-- The shelf once every handle has tried to open the place that had not done so before. -/
def opened (s : Shelf) : Shelf :=
  ⟨s.disk.opened, s.handles.map fun h => (h.settle s.disk.opened).1⟩

/-- The databases that are found or open are those that have been at the place. -/
structure Rooted (s : Shelf) : Prop where
  sound : s.disk.Sound
  rooted : ∀ h ∈ s.handles, h.Rooted s.disk

theorem Rooted.handles_set (hs : s.Rooted) {d : Disk} (hd : s.disk.Continues d) {h : Handle}
    (hh : h.Rooted d) (number : Nat) : ∀ g ∈ s.handles.set number h, g.Rooted d := by
  intro g hg
  rcases List.mem_or_eq_of_mem_set hg with hg | rfl
  · exact (hs.rooted g hg).of_length_le hd.length_le
  · exact hh

/-- The other handles of a shelf see no change of the place. -/
theorem opened_set {d : Disk} (hd : s.disk.Continues d) (h : Handle) (number : Nat) :
    (Shelf.mk d (s.handles.set number h)).opened =
      ⟨d.opened, s.opened.handles.set number (h.settle s.disk.opened).1⟩ := by
  have hsettle (g : Handle) : (g.settle d.opened).1 = (g.settle s.disk.opened).1 :=
    Handle.settle_fst_of_found s.disk.found_opened_ne hd.found_eq
  simp only [opened, hsettle, List.map_set]

/-- No answer tells whether the place was opened early. -/
theorem perform_opened (hs : s.Rooted) (number : Nat) (a : Action) :
    s.opened.perform number a = ((s.perform number a).1, (s.perform number a).2.opened) ∧
      (s.perform number a).2.Rooted := by
  -- Each action is done on both shelves; the early one differs in the place and in the states of its
  -- handles.
  have hsound := (perform_commits hs.sound number a).sound
  cases hh : s.handles[number]? with
  | none =>
    have hh' : s.opened.handles[number]? = none := by simp [opened, hh]
    rw [perform_of_none hh, perform_of_none hh']
    exact ⟨rfl, hs⟩
  | some h =>
    have hh' : s.opened.handles[number]? = some (h.settle s.disk.opened).1 := by simp [opened, hh]
    cases a with
    | query q =>
      have hruns := Handle.runsOpened hs.sound (hs.rooted h (List.mem_of_getElem? hh)) q
      rw [perform_query hh] at hsound ⊢
      rw [perform_query hh', opened_set hruns.continues]
      refine ⟨?_, hsound, hs.handles_set hruns.continues hruns.rooted number⟩
      simp only [opened, hruns.run_eq]
    | reconnect =>
      have hsnd : (h.reconnect s.disk).2 = h.connect s.disk := h.reconnect_snd s.disk
      have hcontinues := Handle.continues_connect h s.disk
      rw [perform_reconnect hh, hsnd] at hsound ⊢
      rw [perform_reconnect hh', opened_set hcontinues]
      refine ⟨?_, hsound, hs.handles_set hcontinues (Handle.rooted_connect h hs.sound) number⟩
      simp only [opened, Handle.reconnect_settle_opened, hsnd, Handle.opened_connect,
        Handle.settle_of_ne (h.connect_state_ne s.disk)]
    | close =>
      rw [perform_close hh] at hsound ⊢
      rw [perform_close hh', opened_set (.refl _)]
      refine ⟨?_, hsound, hs.handles_set (.refl _) (h.rooted_close s.disk) number⟩
      simp only [opened, Handle.close_settle]
      rfl

/-- Nor does a run tell it. -/
theorem performAll_opened (hs : s.Rooted) (steps : List (Nat × Action)) :
    s.opened.performAll steps = ((s.performAll steps).1, (s.performAll steps).2.opened) := by
  induction steps generalizing s with
  | nil => rfl
  | cons x steps ih =>
    obtain ⟨number, a⟩ := x
    obtain ⟨hperform, hrooted⟩ := perform_opened hs number a
    simp only [performAll, hperform, ih hrooted]

/-- Whatever is done, the databases that are open have been at the place. -/
theorem Rooted.turn (hs : s.Rooted) (t : Turn) : (s.turn t).Rooted := by
  cases t with
  | act number a => exact (perform_opened hs number a).2
  | change c =>
    -- Even where a file is taken away its database stays open for whoever has opened it.
    have hlength : s.disk.databases.length ≤ (s.disk.change c).databases.length := by
      cases c <;> simp [Disk.change, Disk.clear]
    exact ⟨Disk.sound_change s.disk c, fun h hh => (hs.rooted h hh).of_length_le hlength⟩

theorem Rooted.turns (hs : s.Rooted) (ts : List Turn) : (s.turns ts).Rooted := by
  induction ts generalizing s with
  | nil => exact hs
  | cons t ts ih => exact ih (hs.turn t)

/-- In the beginning no handle has a database open, or the one in memory. -/
theorem rooted_new (limits : List Limits) : (new .vacant limits).Rooted := by
  refine ⟨(fun n hn => nomatch hn), fun h hh n hn => ?_⟩
  obtain ⟨l, -, rfl⟩ := List.mem_map.mp hh
  cases hn

theorem rooted_inMemory (limits : Limits) : (inMemory limits).Rooted := by
  refine ⟨(fun n hn => nomatch hn), fun h hh n hn => ?_⟩
  obtain rfl := List.mem_singleton.mp hh
  obtain rfl := HandleState.opened.inj hn
  exact Nat.zero_lt_one

theorem table_opened (s : Shelf) (kind : HistoryKind) : s.opened.table kind = s.table kind :=
  congrArg (Database.table · kind) s.disk.content_opened

/-! ## §3 Shelves that differ in one history -/

/-- Two shelves whose databases may differ in the other history only. -/
structure Alike (kind : HistoryKind) (s s' : Shelf) : Prop where
  handles_eq : s'.handles = s.handles
  found_eq : s'.disk.found = s.disk.found
  length_eq : s'.disk.databases.length = s.disk.databases.length
  table_eq : ∀ n, (s'.disk.database n).table kind = (s.disk.database n).table kind

/-- Every handle has tried to open the place, and something is there. -/
structure Settled (s : Shelf) : Prop where
  found_ne : s.disk.found ≠ .nothing
  state_ne : ∀ h ∈ s.handles, h.state ≠ .unopened

/-- Opened early, a shelf is settled. -/
theorem settled_opened (s : Shelf) : s.opened.Settled := by
  refine ⟨s.disk.found_opened_ne, fun h hh => ?_⟩
  obtain ⟨g, -, rfl⟩ := List.mem_map.mp hh
  exact g.settle_state_ne s.disk.opened

variable {kind : HistoryKind} {s' : Shelf}

/-- Shelves that are alike have the same table at their places. -/
theorem Alike.table (h : s.Alike kind s') : s'.table kind = s.table kind := by
  unfold Shelf.table Disk.content
  rw [h.found_eq]
  cases s.disk.found with
  | database n => exact h.table_eq n
  | nothing | obstacle => rfl

/-- What an action does on a settled shelf: nothing but to its handle, or something to one database
that the handle has open. -/
theorem perform_of_settled (hs : s.Settled) {number : Nat} {h : Handle}
    (hh : s.handles[number]? = some h) (q : Query) :
    s.perform number (.query q) =
      match h.access with
      | .error reason => (.error (.storeUnavailable reason), s)
      | .ok n =>
        let r := (s.disk.database n).run h.limits (!h.reopenable || s.disk.isCurrent n) q
        (r.1, { s with disk := s.disk.setDatabase n r.2 }) := by
  obtain ⟨hlt, rfl⟩ := List.getElem?_eq_some_iff.mp hh
  have hsettle := Handle.settle_of_ne (hs.state_ne _ (List.mem_of_getElem? hh))
  rw [perform_query hh]
  simp only [Handle.run, hsettle]
  cases s.handles[number].access <;> simp

/-- On a settled shelf connecting changes the handle alone. -/
theorem perform_reconnect_of_settled (hs : s.Settled) {number : Nat} {h : Handle}
    (hh : s.handles[number]? = some h) :
    s.perform number .reconnect =
      ((h.reconnect s.disk).1.map fun _ => .done,
        { s with handles := s.handles.set number (h.connect s.disk).1 }) := by
  have hdisk : (h.connect s.disk).2 = s.disk := by
    rcases h.connect_snd_cases s.disk with heq | heq
    · exact heq
    · rw [heq, Disk.opened_of_ne hs.found_ne]
  rw [perform_reconnect hh, h.reconnect_snd, hdisk]

/-- A settled shelf stays so. -/
theorem Settled.perform (hs : s.Settled) (number : Nat) (a : Action) :
    (s.perform number a).2.Settled := by
  -- A handle that replaces another one has been opened too.
  have hset {h : Handle} (hstate : h.state ≠ .unopened) :
      ∀ g ∈ s.handles.set number h, g.state ≠ .unopened := by
    intro g hg
    rcases List.mem_or_eq_of_mem_set hg with hg | rfl
    · exact hs.state_ne g hg
    · exact hstate
  cases hh : s.handles[number]? with
  | none =>
    rw [perform_of_none hh]
    exact hs
  | some h =>
    -- Each action leaves the place as it is found, and the handle with what it has come to.
    cases a with
    | query q =>
      rw [perform_of_settled hs hh]
      cases h.access with
      | error reason => exact hs
      | ok n => exact ⟨hs.found_ne, hs.state_ne⟩
    | reconnect =>
      rw [perform_reconnect_of_settled hs hh]
      exact ⟨hs.found_ne, hset (h.connect_state_ne s.disk)⟩
    | close =>
      rw [perform_close hh]
      exact ⟨hs.found_ne, hset (by simp [Handle.close])⟩

end Shelf

/-- A changed database is the one of its number, if there is one. -/
theorem Disk.database_setDatabase_eq (d : Disk) (m n : Nat) (db : Database) :
    (d.setDatabase m db).database n =
      if n = m ∧ m < d.databases.length then db else d.database n := by
  by_cases hm : m < d.databases.length
  · by_cases hn : n = m
    · subst hn
      simp [setDatabase, database, hm]
    · simp [setDatabase, database, hn, List.getElem?_set_ne (Ne.symm hn)]
  · simp [setDatabase, hm, List.set_eq_of_length_le (Nat.le_of_not_lt hm)]

namespace Shelf

variable {s s' : Shelf} {kind : HistoryKind}

/-- An operation on the other history makes no difference. -/
theorem Alike.skip (h : s.Alike kind s') (hs : s.Settled) {a : Action}
    (ha : a.concerns kind = false) (number : Nat) : (s.perform number a).2.Alike kind s' := by
  cases a with
  | reconnect | close => cases ha
  | query q =>
    cases hh : s.handles[number]? with
    | none =>
      rw [perform_of_none hh]
      exact h
    | some g =>
      rw [perform_of_settled hs hh]
      cases g.access with
      | error reason => exact h
      | ok n =>
        refine ⟨h.handles_eq, h.found_eq, by simpa [Disk.setDatabase] using h.length_eq, fun m => ?_⟩
        simp only [Disk.database_setDatabase_eq]
        split
        -- The table is that of the changed database or of another one.
        next hm =>
          rw [Database.table_run_of_other _ _ _ ha, h.table_eq, hm.1]
        next => exact h.table_eq m

/-- Any other action answers alike, and leaves no more difference than there was. -/
theorem Alike.perform (h : s.Alike kind s') (hs : s.Settled) (hs' : s'.Settled) {a : Action}
    (ha : a.concerns kind = true) (number : Nat) :
    (s'.perform number a).1.map (Answer.part kind) = (s.perform number a).1.map (Answer.part kind) ∧
      (s.perform number a).2.Alike kind (s'.perform number a).2 := by
  cases hh : s.handles[number]? with
  | none =>
    have hh' : s'.handles[number]? = none := by rw [h.handles_eq, hh]
    rw [perform_of_none hh, perform_of_none hh']
    exact ⟨rfl, h⟩
  | some g =>
    have hh' : s'.handles[number]? = some g := by rw [h.handles_eq, hh]
    cases a with
    | close =>
      rw [perform_close hh, perform_close hh']
      exact ⟨rfl, by rw [h.handles_eq], h.found_eq, h.length_eq, h.table_eq⟩
    | reconnect =>
      have hconnect : (g.connect s'.disk).1 = (g.connect s.disk).1 :=
        Handle.connect_fst_of_found hs.found_ne h.found_eq
      rw [perform_reconnect_of_settled hs hh, perform_reconnect_of_settled hs' hh']
      refine ⟨?_, ?_, h.found_eq, h.length_eq, h.table_eq⟩
      · simp only [Handle.reconnect, hconnect]
        cases (g.connect s.disk).1.access <;> rfl
      · rw [h.handles_eq, hconnect]
    | query q =>
      rw [perform_of_settled hs hh, perform_of_settled hs' hh']
      cases g.access with
      | error reason => exact ⟨rfl, h⟩
      | ok n =>
        -- Both shelves find the same, so the handle may write on both or on neither.
        have hcurrent : s'.disk.isCurrent n = s.disk.isCurrent n := by
          rw [Disk.isCurrent, h.found_eq, Disk.isCurrent]
        obtain ⟨hanswer, htable⟩ :=
          Database.run_of_table_eq (h.table_eq n) g.limits (!g.reopenable || s.disk.isCurrent n) ha
        simp only [hcurrent]
        refine ⟨hanswer, h.handles_eq, h.found_eq, by simpa [Disk.setDatabase] using h.length_eq,
          fun m => ?_⟩
        simp only [Disk.database_setDatabase_eq, h.length_eq]
        split
        next => exact htable
        next => exact h.table_eq m

/-! ## §4 Runs -/

/-- The actions that concern a history. -/
def concerning (kind : HistoryKind) (steps : List (Nat × Action)) : List (Nat × Action) :=
  steps.filter fun x => x.2.concerns kind

/-- What the answers of a run say about a history. -/
def answersOn (s : Shelf) (kind : HistoryKind) (steps : List (Nat × Action)) :
    List (Except Error Answer) :=
  ((steps.zip (s.performAll steps).1).filter fun x => x.1.2.concerns kind).map fun x =>
    x.2.map (Answer.part kind)

/-- The answers on a run are those on its first action, if it concerns the history, and on the rest. -/
theorem answersOn_cons (s : Shelf) (kind : HistoryKind) (x : Nat × Action)
    (steps : List (Nat × Action)) :
    s.answersOn kind (x :: steps) =
      (if x.2.concerns kind then [(s.perform x.1 x.2).1.map (Answer.part kind)] else []) ++
        (s.perform x.1 x.2).2.answersOn kind steps := by
  cases hx : x.2.concerns kind <;> simp [answersOn, performAll, hx]

theorem after_cons (s : Shelf) (x : Nat × Action) (steps : List (Nat × Action)) :
    s.after (x :: steps) = (s.perform x.1 x.2).2.after steps :=
  rfl

/-- Two runs go side by side, of which one leaves out the operations on the other history. -/
theorem Alike.run (h : s.Alike kind s') (hs : s.Settled) (hs' : s'.Settled)
    (steps : List (Nat × Action)) :
    s.answersOn kind steps =
        (s'.performAll (concerning kind steps)).1.map (Except.map (Answer.part kind)) ∧
      (s.after steps).Alike kind (s'.after (concerning kind steps)) := by
  induction steps generalizing s s' with
  | nil => exact ⟨rfl, h⟩
  | cons x steps ih =>
    rw [answersOn_cons, after_cons]
    have hs₁ := hs.perform x.1 x.2
    -- The action is left out on one side, and makes no difference on the other.
    cases hx : x.2.concerns kind with
    | false =>
      have hsteps : concerning kind (x :: steps) = concerning kind steps := by
        simp [concerning, hx]
      rw [hsteps]
      exact ih (h.skip hs hx x.1) hs₁ hs'
    -- The action is done on both sides.
    | true =>
      have hsteps : concerning kind (x :: steps) = x :: concerning kind steps := by
        simp [concerning, hx]
      obtain ⟨hanswer, halike⟩ := h.perform hs hs' hx x.1
      obtain ⟨hanswers, hafter⟩ := ih halike hs₁ (hs'.perform x.1 x.2)
      rw [hsteps]
      refine ⟨?_, hafter⟩
      simp only [performAll, List.map_cons, hanswer, hanswers, if_true, List.singleton_append]

/-- In a run the histories do not meet. -/
structure Separates (s : Shelf) (steps : List (Nat × Action)) : Prop where
  /-- The answers about a history are those of the run without operations on the other one. -/
  answers : ∀ kind, s.answersOn kind steps =
    (s.performAll (concerning kind steps)).1.map (Except.map (Answer.part kind))
  /-- So are its entries and its last number in the end. -/
  table : ∀ kind, (s.after steps).table kind = (s.after (concerning kind steps)).table kind
  /-- Any other run in which the actions that concern a history have the same order, for each
  history, answers alike and ends in the same tables. -/
  interleaving : ∀ steps', (∀ kind, concerning kind steps' = concerning kind steps) →
    ∀ kind, s.answersOn kind steps' = s.answersOn kind steps ∧
      (s.after steps').table kind = (s.after steps).table kind

/-- Where the databases that are open have been at the place, the histories do not meet. -/
theorem Rooted.separates (hs : s.Rooted) (steps : List (Nat × Action)) : s.Separates steps := by
  -- Opened early, the two runs of each history are alike from the beginning.
  have hown (steps : List (Nat × Action)) (kind : HistoryKind) :
      s.answersOn kind steps =
          (s.performAll (concerning kind steps)).1.map (Except.map (Answer.part kind)) ∧
        (s.after steps).table kind = (s.after (concerning kind steps)).table kind := by
    have halike : s.opened.Alike kind s.opened := ⟨rfl, rfl, rfl, fun _ => rfl⟩
    obtain ⟨hanswers, hafter⟩ := halike.run s.settled_opened s.settled_opened steps
    have htable := hafter.table
    simp only [answersOn, after, performAll_opened hs, table_opened] at hanswers htable ⊢
    exact ⟨hanswers, htable.symm⟩
  -- Another interleaving comes to the same run once the other history is left out.
  refine ⟨fun kind => (hown steps kind).1, fun kind => (hown steps kind).2, ?_⟩
  intro steps' hsame kind
  obtain ⟨hanswers, htable⟩ := hown steps kind
  obtain ⟨hanswers', htable'⟩ := hown steps' kind
  rw [hsame] at hanswers' htable'
  exact ⟨hanswers'.trans hanswers.symm, htable'.trans htable.symm⟩

/-- Whatever was done before through whatever handles, on a place or in memory, and whatever is at the
place: from then on what becomes of a history is decided by what concerns it. -/
theorem separates_turns (limits : List Limits) (l : Limits) (before : List Turn)
    (steps : List (Nat × Action)) :
    ((new .vacant limits).turns before).Separates steps ∧
      ((inMemory l).turns before).Separates steps :=
  ⟨((rooted_new limits).turns before).separates steps,
    ((rooted_inMemory l).turns before).separates steps⟩

/-- The second queries and templates are those of a full history, whose numbers go on after both were
cleared. -/
example :
    let s := (new .vacant [⟨1, 9⟩]).turns [.change (.put ⟨⟨[⟨7, 900, "a"⟩], 7⟩, .empty⟩)]
    let steps : List (Nat × Action) :=
      [(0, .query (.insert .templates "t" 5)), (0, .query (.insert .queries "t" 6)),
        (0, .query .reset), (0, .query (.insert .templates "a" 7)), (0, .query (.count .queries)),
        (0, .query (.insert .queries "a" 8))]
    (s.after steps).table .queries = ⟨[⟨9, 8, "a"⟩], 9⟩ ∧
      (s.after (concerning .queries steps)).table .queries = ⟨[⟨9, 8, "a"⟩], 9⟩ := by
  decide +kernel

end Shelf

end QueryPlayground.History
