import QueryPlayground.Proofs.History.Reuse

/-!
# When a history can be used

Turns are taken on a place: something is done through a handle, or the place is changed from
outside. Only operations and attempts to connect open the place. Once that has failed or a handle
was closed, the handle refuses every operation for that reason and touches nothing, whatever
happens to the place, until it is connected anew; then its operations are those of the database
that is there, as it was left. A database in memory is gone for good.

Main statement: `Shelf.available`.
-/

namespace QueryPlayground.History

/-! ## §1 Turns -/

/-- A change of a place from outside. -/
inductive Change where
  /-- Whatever is there is taken away. -/
  | clear
  /-- Something is put there that cannot be opened, for a reason. -/
  | block (reason : String)
  /-- A file with a database is put there. An empty file is one without entries. -/
  | put (db : Database)

/-- The place after a change from outside. -/
def Disk.change (d : Disk) : Change → Disk
  | .clear => d.clear
  | .block reason => { d with found := .obstacle reason }
  | .put db => ⟨.database d.databases.length, d.databases ++ [db]⟩

/-- What happens on a place. -/
inductive Turn where
  /-- Something is done through the handle of a number. -/
  | act (number : Nat) (a : Action)
  /-- The place is changed from outside. -/
  | change (c : Change)

namespace Turn

/-- A turn opens or closes the handle of a number. -/
def Renews (number : Nat) : Turn → Prop
  | .act m .reconnect | .act m .close => m = number
  | _ => False

/-- A turn needs the database: it is an operation, or an attempt to connect. -/
def Needs : Turn → Prop
  | .act _ (.query _) | .act _ .reconnect => True
  | _ => False

/-- The change of the place from outside, if a turn is one. -/
def change? : Turn → Option Change
  | .change c => some c
  | .act .. => none

end Turn

namespace Shelf

/-- The shelf after a turn. -/
def turn (s : Shelf) : Turn → Shelf
  | .act number a => (s.perform number a).2
  | .change c => { s with disk := s.disk.change c }

/-- The shelf after turns. -/
def turns (s : Shelf) (ts : List Turn) : Shelf :=
  ts.foldl turn s

/-! ## §2 What a turn leaves alone -/

section Perform

variable {s : Shelf} {number : Nat} {h : Handle}

/-- An action through a handle sees only this handle and the place. -/
theorem perform_query (hh : s.handles[number]? = some h) (q : Query) :
    let r := h.run s.disk q
    s.perform number (.query q) = (r.1, ⟨r.2.2, s.handles.set number r.2.1⟩) := by
  simp only [perform, hh]

theorem perform_reconnect (hh : s.handles[number]? = some h) :
    let r := h.reconnect s.disk
    s.perform number .reconnect =
      (r.1.map fun _ => .done, ⟨r.2.2, s.handles.set number r.2.1⟩) := by
  simp only [perform, hh]

theorem perform_close (hh : s.handles[number]? = some h) :
    s.perform number .close = (.ok .done, ⟨s.disk, s.handles.set number h.close⟩) := by
  simp only [perform, hh]

/-- Where there is no handle of a number, the answer is that of a closed one. -/
theorem perform_of_none (hh : s.handles[number]? = none) (a : Action) :
    s.perform number a = (.error (.storeUnavailable Handle.closedReason), s) := by
  simp only [perform, hh]

/-- What is done through one handle leaves the others as they are. -/
theorem handles_perform_of_ne {m : Nat} (hne : m ≠ number) (a : Action) :
    (s.perform m a).2.handles[number]? = s.handles[number]? := by
  cases hh : s.handles[m]? with
  | none => rw [perform_of_none hh]
  | some h =>
    -- Each action puts one handle back at its own number, which is not the one asked for.
    cases a with
    | query q =>
      rw [perform_query hh]
      exact List.getElem?_set_ne hne
    | reconnect =>
      rw [perform_reconnect hh]
      exact List.getElem?_set_ne hne
    | close =>
      rw [perform_close hh]
      exact List.getElem?_set_ne hne

end Perform

end Shelf

/-! ## §3 Handles that refuse -/

namespace Handle

/-- A handle refuses everything for a reason, as opening the place has failed or it was closed. -/
def Refuses (h : Handle) (reason : String) : Prop :=
  h.state = .failed reason ∨ h.state = .closed ∧ reason = closedReason

/-- A handle that refuses neither changes nor looks at the place. -/
theorem Refuses.run {h : Handle} {reason : String} (hr : h.Refuses reason) (d : Disk) (q : Query) :
    h.run d q = (.error (.storeUnavailable reason), h, d) := by
  rcases hr with hstate | ⟨hstate, rfl⟩
  · simp only [Handle.run, settle, access, hstate]
  · simp only [Handle.run, settle, access, hstate]

/-- An attempt to open the place is no longer to be made afterwards. -/
theorem connect_state_ne (h : Handle) (d : Disk) : (h.connect d).1.state ≠ .unopened := by
  unfold connect
  split
  next => simp
  next => split <;> simp

theorem settle_state_ne (h : Handle) (d : Disk) : (h.settle d).1.state ≠ .unopened := by
  unfold settle
  split
  next => exact connect_state_ne h d
  next hne => exact fun hstate => hne hstate

/-- Once that was tried, either a database is open or the handle refuses everything. -/
theorem access_cases {h : Handle} (hstate : h.state ≠ .unopened) :
    (∃ n, h.access = .ok n) ∨ ∃ reason, h.Refuses reason ∧ h.access = .error reason := by
  unfold access
  cases hs : h.state with
  | unopened => exact (hstate hs).elim
  | opened n => exact .inl ⟨n, rfl⟩
  | failed reason => exact .inr ⟨reason, .inl hs, rfl⟩
  | closed => exact .inr ⟨closedReason, .inr ⟨hs, rfl⟩, rfl⟩

/-- To connect is to connect and then to ask for the database: what comes of it is that of the one
attempt. -/
theorem reconnect_cases (h : Handle) (d : Disk) :
    h.reconnect d = (.ok (), h.connect d) ∨
      ∃ reason, (h.connect d).1.Refuses reason ∧
        h.reconnect d = (.error (.storeUnavailable reason), h.connect d) := by
  rcases access_cases (h.connect_state_ne d) with ⟨n, haccess⟩ | ⟨reason, hr, haccess⟩
  · left
    simp only [reconnect, haccess]
  · right
    refine ⟨reason, hr, ?_⟩
    simp only [reconnect, haccess]

theorem reconnect_snd (h : Handle) (d : Disk) : (h.reconnect d).2 = h.connect d := by
  rcases h.reconnect_cases d with heq | ⟨reason, -, heq⟩ <;> rw [heq]

end Handle

/-- What a database refuses it does not refuse for being unavailable. -/
theorem Database.run_ne_storeUnavailable (d : Database) (limits : Limits) (writable : Bool)
    (q : Query) (reason : String) :
    (d.run limits writable q).1 ≠ .error (.storeUnavailable reason) := by
  cases q with
  | insert kind content now =>
    simp only [run]
    split
    · simp
    · cases writable <;> simp [fullError, readOnlyError]
    · cases writable <;> simp [readOnlyError]
  | delete kind id =>
    simp only [run]
    split <;> simp [readOnlyError]
  | reset =>
    cases writable <;> simp [run, readOnlyError]
  | page | count | stats | dump => simp [run]

namespace Handle

/-- Whoever refuses an operation refuses everything from then on. -/
theorem refuses_of_run {h : Handle} {d : Disk} {q : Query} {reason : String}
    (hrun : (h.run d q).1 = .error (.storeUnavailable reason)) :
    (h.run d q).2.1.Refuses reason := by
  unfold run at hrun ⊢
  rcases access_cases (h.settle_state_ne d) with ⟨n, haccess⟩ | ⟨r, hr, haccess⟩
  · -- With a database open the answer is that of the database.
    simp only [haccess] at hrun
    exact (Database.run_ne_storeUnavailable _ _ _ q reason hrun).elim
  · simp only [haccess, Except.error.injEq, Error.storeUnavailable.injEq] at hrun ⊢
    subst hrun
    exact hr

end Handle

namespace Shelf

variable {s : Shelf} {number : Nat} {reason : String}

/-- The handle of a number refuses everything for a reason. There is none of a number too great. -/
def Refuses (s : Shelf) (number : Nat) (reason : String) : Prop :=
  match s.handles[number]? with
  | some h => h.Refuses reason
  | none => reason = Handle.closedReason

theorem Refuses.perform_query (hr : s.Refuses number reason) (q : Query) :
    s.perform number (.query q) = (.error (.storeUnavailable reason), s) := by
  unfold Refuses at hr
  cases hh : s.handles[number]? with
  | none =>
    rw [hh] at hr
    obtain rfl : reason = Handle.closedReason := hr
    exact perform_of_none hh _
  | some h =>
    rw [hh] at hr
    obtain ⟨hlt, rfl⟩ := List.getElem?_eq_some_iff.mp hh
    rw [Shelf.perform_query hh]
    simp only [Handle.Refuses.run hr, List.set_getElem_self]

/-- A handle that has refused something, or was closed, refuses everything for the same reason. -/
theorem refuses_of_perform {a : Action}
    (h : (s.perform number a).1 = .error (.storeUnavailable reason) ∨
      a = .close ∧ reason = Handle.closedReason) :
    (s.perform number a).2.Refuses number reason := by
  unfold Refuses
  cases hh : s.handles[number]? with
  | none =>
    rw [perform_of_none hh] at h ⊢
    rw [hh]
    rcases h with h | ⟨-, rfl⟩
    · exact (Error.storeUnavailable.inj (Except.error.inj h)).symm
    · rfl
  | some g =>
    obtain ⟨hlt, -⟩ := List.getElem?_eq_some_iff.mp hh
    -- A query and a connection fail for a reason that the handle then keeps; closing gives it one.
    cases a with
    | query q =>
      rw [perform_query hh] at h ⊢
      simp only [List.getElem?_set_self hlt]
      exact Handle.refuses_of_run (h.resolve_right (by simp))
    | reconnect =>
      rw [perform_reconnect hh] at h ⊢
      simp only [List.getElem?_set_self hlt]
      rcases g.reconnect_cases s.disk with heq | ⟨r, hr, heq⟩
      all_goals rw [heq] at h ⊢
      · simp [Except.map] at h
      · obtain rfl : r = reason := by simpa [Except.map] using h
        exact hr
    | close =>
      rw [perform_close hh] at h ⊢
      obtain ⟨-, rfl⟩ := h.resolve_left (by simp)
      simp only [List.getElem?_set_self hlt]
      exact .inr ⟨rfl, rfl⟩

/-- The answer to connecting a handle is that it is done, or a reason why the store cannot be had. -/
theorem perform_reconnect_answer (s : Shelf) (number : Nat) :
    (s.perform number .reconnect).1 = .ok .done ∨
      ∃ reason, (s.perform number .reconnect).1 = .error (.storeUnavailable reason) := by
  cases hh : s.handles[number]? with
  | none =>
    rw [perform_of_none hh]
    exact .inr ⟨_, rfl⟩
  | some h =>
    rw [perform_reconnect hh]
    rcases h.reconnect_cases s.disk with heq | ⟨reason, -, heq⟩
    all_goals rw [heq]
    · exact .inl rfl
    · exact .inr ⟨reason, rfl⟩

/-- The reason for refusing after a turn: that of an attempt to connect which fails, or of closing
the handle, and otherwise the one before. -/
def reasonAfter (s : Shelf) (number : Nat) (reason : String) : Turn → String
  | .act m .close => if m = number then Handle.closedReason else reason
  | .act m .reconnect =>
    match decide (m = number), (s.perform m .reconnect).1 with
    | true, .error (.storeUnavailable r) => r
    | _, _ => reason
  | _ => reason

/-- The most recent reason after turns. -/
def latestReason (s : Shelf) (number : Nat) (reason : String) : List Turn → String
  | [] => reason
  | t :: ts => (s.turn t).latestReason number (s.reasonAfter number reason t) ts

/-- An attempt to connect the handle of a number succeeds in one of the turns. -/
def Reconnects (s : Shelf) (number : Nat) : List Turn → Prop
  | [] => False
  | t :: ts =>
    t = .act number .reconnect ∧ (s.perform number .reconnect).1 = .ok .done ∨
      (s.turn t).Reconnects number ts

/-- A handle goes on refusing, whatever happens to the place. -/
theorem Refuses.turn (hr : s.Refuses number reason) {t : Turn}
    (ht : t = .act number .reconnect → (s.perform number .reconnect).1 ≠ .ok .done) :
    (s.turn t).Refuses number (s.reasonAfter number reason t) := by
  cases t with
  | change c => exact hr
  | act m a =>
    -- What is done through other handles cannot be told from a change of the place.
    by_cases hm : m = number
    · subst hm
      cases a with
      | query q =>
        rw [Shelf.turn, hr.perform_query]
        exact hr
      | reconnect =>
        -- An attempt that does not succeed fails with a reason, which is the one from now on.
        obtain ⟨r, hanswer⟩ := (s.perform_reconnect_answer m).resolve_left (ht rfl)
        have hreason : s.reasonAfter m reason (.act m .reconnect) = r := by
          simp only [reasonAfter, decide_true, hanswer]
        rw [hreason]
        exact refuses_of_perform (.inl hanswer)
      | close =>
        rw [reasonAfter, if_pos rfl]
        exact refuses_of_perform (.inr ⟨rfl, rfl⟩)
    · have hreason : s.reasonAfter number reason (.act m a) = reason := by
        cases a <;> simp [reasonAfter, hm]
      rw [hreason]
      unfold Refuses
      rw [Shelf.turn, handles_perform_of_ne hm]
      exact hr

/-- It goes on until an attempt to connect succeeds, and gives the most recent reason. -/
theorem Refuses.turns (hr : s.Refuses number reason) {ts : List Turn}
    (hts : ¬ s.Reconnects number ts) :
    (s.turns ts).Refuses number (s.latestReason number reason ts) := by
  -- By induction on the turns, for whatever reason is the one at their beginning.
  induction ts generalizing s reason with
  | nil => exact hr
  | cons t ts ih =>
    obtain ⟨ht, hts⟩ := not_or.mp hts
    exact ih (hr.turn fun h hok => ht ⟨h, hok⟩) hts

end Shelf

/-! ## §4 Attempts to open a place -/

/-- The database that is found at a place is one of its databases. -/
def Disk.Sound (d : Disk) : Prop :=
  ∀ n, d.found = .database n → n < d.databases.length

/-- What keeps a handle from opening a place. -/
def Handle.obstacle? (h : Handle) (d : Disk) : Option String :=
  if !h.reopenable then some Handle.memoryReason
  else
    match d.found with
    | .obstacle reason => some reason
    | _ => none

namespace Handle

variable {h : Handle} {d : Disk} {reason : String}

theorem connect_of_obstacle (hobstacle : h.obstacle? d = some reason) :
    h.connect d = ({ h with state := .failed reason }, d) := by
  unfold obstacle? at hobstacle
  split at hobstacle
  next hre =>
    obtain rfl := Option.some.inj hobstacle
    rw [connect, if_pos hre]
  next hre =>
    split at hobstacle
    next r hfound =>
      obtain rfl := Option.some.inj hobstacle
      simp only [connect, hre, Disk.openDatabase, hfound]
      rfl
    next => cases hobstacle

theorem openable_of_obstacle? (hd : d.Sound) (hobstacle : h.obstacle? d = none) :
    h.reopenable = true ∧ d.Openable := by
  unfold obstacle? at hobstacle
  split at hobstacle
  next => cases hobstacle
  next hre =>
    refine ⟨by simpa using hre, ?_⟩
    unfold Disk.Openable
    split at hobstacle
    next => cases hobstacle
    next hfound =>
      split
      next => trivial
      next r hr => exact hfound r hr
      next n hn => exact hd n hn

/-- Where something keeps the handle from the place, connecting it fails for this reason and leaves the
place. -/
theorem reconnect_of_obstacle (hobstacle : h.obstacle? d = some reason) :
    h.reconnect d =
      (.error (.storeUnavailable reason), { h with state := .failed reason }, d) := by
  simp only [reconnect, connect_of_obstacle hobstacle, access]

/-- The database that a handle had open is found again. -/
theorem reconnect_close_of_opened {n : Nat} (hre : h.reopenable = true)
    (hstate : h.state = .opened n) (hfound : d.found = .database n) :
    h.close.reconnect d = (.ok (), h, d) := by
  obtain ⟨limits, reopenable, state⟩ := h
  obtain rfl : state = .opened n := hstate
  obtain rfl : reopenable = true := hre
  simp only [reconnect, connect, close, Disk.openDatabase, hfound, access, Bool.not_true,
    Bool.false_eq_true, if_false]

/-- The first operation through a handle is an attempt to open the place. -/
theorem run_of_obstacle (hstate : h.state = .unopened) (hobstacle : h.obstacle? d = some reason)
    (q : Query) :
    h.run d q = (.error (.storeUnavailable reason), { h with state := .failed reason }, d) := by
  simp only [run, settle, hstate, connect_of_obstacle hobstacle, access]

end Handle

/-! ## §5 What is at a place -/

namespace Disk

variable {d : Disk}

/-- Whatever is put at a place from outside can be found there. -/
theorem sound_change (d : Disk) (c : Change) : (d.change c).Sound := by
  cases c with
  | clear => exact fun n hn => nomatch hn
  | block reason => exact fun n hn => nomatch hn
  | put db =>
    intro n hn
    obtain rfl := Found.database.inj hn
    simp [Disk.change]

theorem Sound.setDatabase (hd : d.Sound) (n : Nat) (db : Database) :
    (d.setDatabase n db).Sound := by
  intro m hm
  simpa [Disk.setDatabase] using hd m hm

/-- Another database than the one at the place makes no difference to what is there. -/
theorem content_setDatabase_of_ne {n : Nat} (hne : d.found ≠ .database n) (db : Database) :
    (d.setDatabase n db).content = d.content := by
  unfold content setDatabase
  cases hfound : d.found with
  | nothing => rfl
  | obstacle reason => rfl
  | database m =>
    have hmn : n ≠ m := by
      rintro rfl
      exact hne hfound
    simp [database, List.getElem?_set_ne hmn]

/-- To open a place leaves there what is there; only where nothing is it creates a database, and
that one has no entries. -/
theorem openDatabase_frame (hd : d.Sound) :
    d.openDatabase.2.Sound ∧ d.openDatabase.2.content = d.content ∧
      ∀ n, d.found = .database n → d.openDatabase.2 = d := by
  unfold openDatabase
  cases hfound : d.found with
  | nothing =>
    -- The new database is the last one of the place, and an empty one.
    refine ⟨fun n hn => ?_, ?_, nofun⟩
    · obtain rfl := Found.database.inj hn
      simp
    · simp [content, database, hfound]
  | obstacle reason => exact ⟨hd, rfl, fun _ _ => rfl⟩
  | database n => exact ⟨hd, rfl, fun _ _ => rfl⟩

end Disk

namespace Handle

variable {h : Handle} {d : Disk}

/-- So does an attempt of a handle to open it. -/
theorem connect_frame (h : Handle) (hd : d.Sound) :
    (h.connect d).2.Sound ∧ (h.connect d).2.content = d.content ∧
      ∀ n, d.found = .database n → (h.connect d).2 = d := by
  have hopen := Disk.openDatabase_frame hd
  unfold connect
  split
  next => exact ⟨hd, rfl, fun _ _ => rfl⟩
  next =>
    split
    next n d' heq => rwa [heq] at hopen
    next r d' heq => rwa [heq] at hopen

/-- What an operation through a handle does to what is at the place: nothing, or what the operation
does to the database there. -/
structure Commits (h : Handle) (d : Disk) (q : Query) : Prop where
  sound : (h.run d q).2.2.Sound
  content : (h.run d q).2.2.content = d.content ∨
    ((h.run d q).1, (h.run d q).2.2.content) = d.content.run h.limits true q
  /-- A database that is at the place stays there. -/
  found : ∀ n, d.found = .database n → (h.run d q).2.2.found = .database n

/-- A handle that has a database open changes that one. -/
theorem commits_of_opened {n : Nat} (hstate : h.state = .opened n) (hd : d.Sound) (q : Query) :
    h.Commits d q := by
  by_cases hfound : d.found = .database n
  · have hrun := run_of_opened hstate hfound q
    refine ⟨?_, .inr ?_, fun m hm => ?_⟩
    all_goals rw [hrun]
    · exact hd.setDatabase n _
    · refine Prod.ext rfl ?_
      rw [Disk.content, Disk.setDatabase, hfound]
      exact Disk.database_setDatabase (hd n hfound) _
    · exact hm
  · -- Another one has taken the place of its database, or nothing has.
    have hrun : ∃ answer db, h.run d q = (answer, h, d.setDatabase n db) := by
      simp only [run, settle, access, hstate]
      exact ⟨_, _, rfl⟩
    obtain ⟨answer, db, hrun⟩ := hrun
    refine ⟨?_, .inl ?_, fun m hm => ?_⟩
    all_goals rw [hrun]
    · exact hd.setDatabase n _
    · exact Disk.content_setDatabase_of_ne hfound db
    · exact hm

/-- A handle that refuses does nothing to the place. -/
theorem Refuses.commits {reason : String} (hr : h.Refuses reason) (hd : d.Sound) (q : Query) :
    h.Commits d q := by
  refine ⟨?_, .inl ?_, fun n hn => ?_⟩
  all_goals rw [hr.run]
  · exact hd
  · exact hn

/-- After the first attempt to open the place a handle acts on its database or refuses. -/
theorem commits_of_ne (hstate : h.state ≠ .unopened) (hd : d.Sound) (q : Query) :
    h.Commits d q := by
  cases hs : h.state with
  | unopened => exact (hstate hs).elim
  | opened n => exact commits_of_opened hs hd q
  | failed reason => exact Refuses.commits (.inl hs) hd q
  | closed => exact Refuses.commits (.inr ⟨hs, rfl⟩) hd q

/-- The first operation through a handle opens the place, and then goes on as any other one. -/
theorem run_of_unopened (hstate : h.state = .unopened) (q : Query) :
    h.run d q = (h.connect d).1.run (h.connect d).2 q := by
  have hsettle : h.settle d = h.connect d := by rw [settle, hstate]
  have hsettled : (h.connect d).1.settle (h.connect d).2 = h.connect d := by
    have hne := h.connect_state_ne d
    unfold settle
    split
    next hunopened => exact (hne hunopened).elim
    next => rfl
  rw [run, run, hsettle, hsettled]

/-- An action changes nothing of a handle but its state. -/
theorem connect_fst (h : Handle) (d : Disk) :
    ∃ state, (h.connect d).1 = { h with state := state } := by
  unfold connect
  split
  next => exact ⟨_, rfl⟩
  next => split <;> exact ⟨_, rfl⟩

theorem settle_fst (h : Handle) (d : Disk) :
    ∃ state, (h.settle d).1 = { h with state := state } := by
  unfold settle
  split
  next => exact connect_fst h d
  next => exact ⟨h.state, rfl⟩

theorem run_handle (h : Handle) (d : Disk) (q : Query) :
    ∃ state, (h.run d q).2.1 = { h with state := state } := by
  cases haccess : (h.settle d).1.access <;> simpa only [run, haccess] using settle_fst h d

theorem reconnect_handle (h : Handle) (d : Disk) :
    ∃ state, (h.reconnect d).2.1 = { h with state := state } := by
  rw [reconnect_snd]
  exact connect_fst h d

/-- Every operation through every handle keeps to this, also the first one, which opens the place. -/
theorem run_commits (h : Handle) (hd : d.Sound) (q : Query) : h.Commits d q := by
  by_cases hstate : h.state = .unopened
  · -- The place is opened, which leaves its content, and then it is as with any other handle.
    obtain ⟨hsound, hcontent, hfound⟩ := connect_frame h hd
    have hcommits := commits_of_ne (h.connect_state_ne d) hsound q
    have hrun := run_of_unopened (d := d) hstate q
    refine ⟨?_, ?_, fun n hn => ?_⟩
    all_goals rw [hrun]
    · exact hcommits.sound
    · have hlimits : (h.connect d).1.limits = h.limits := by
        obtain ⟨state, hstate⟩ := connect_fst h d
        rw [hstate]
      rw [← hcontent, ← hlimits]
      exact hcommits.content
    · exact hcommits.found n (by rw [hfound n hn, hn])
  · exact commits_of_ne hstate hd q

/-- Connecting a handle leaves what is at the place. -/
theorem reconnect_frame (h : Handle) (hd : d.Sound) :
    (h.reconnect d).2.2.Sound ∧ (h.reconnect d).2.2.content = d.content ∧
      ∀ n, d.found = .database n → (h.reconnect d).2.2.found = .database n := by
  obtain ⟨hsound, hcontent, hfound⟩ := connect_frame h hd
  rw [reconnect_snd]
  exact ⟨hsound, hcontent, fun n hn => by rw [hfound n hn, hn]⟩

end Handle

namespace Shelf

variable {s : Shelf} {number : Nat}

/-- What an action does to what is at the place: nothing, or what an operation does to the database
there. -/
structure Commits (s : Shelf) (number : Nat) (a : Action) : Prop where
  sound : (s.perform number a).2.disk.Sound
  content : (s.perform number a).2.disk.content = s.disk.content ∨
    ∃ h q, s.handles[number]? = some h ∧ a = .query q ∧
      ((s.perform number a).1, (s.perform number a).2.disk.content) =
        s.disk.content.run h.limits true q
  found : ∀ n, s.disk.found = .database n → (s.perform number a).2.disk.found = .database n

/-- What an action does to the place is what its operation does to the database there, if it is one. -/
theorem perform_commits (hs : s.disk.Sound) (number : Nat) (a : Action) : s.Commits number a := by
  cases hh : s.handles[number]? with
  -- Without a handle, and with one that is connected or closed, the content stays; an operation is
  -- that of the handle.
  | none =>
    have hperform := perform_of_none hh a
    refine ⟨?_, .inl ?_, ?_⟩
    all_goals rw [hperform]
    · exact hs
    · exact fun _ hn => hn
  | some h =>
    cases a with
    | query q =>
      have hcommits := h.run_commits hs q
      refine ⟨?_, ?_, ?_⟩
      all_goals rw [perform_query hh]
      · exact hcommits.sound
      · exact hcommits.content.imp_right fun hrun => ⟨h, q, hh, rfl, hrun⟩
      · exact hcommits.found
    | reconnect =>
      obtain ⟨hsound, hcontent, hfound⟩ := h.reconnect_frame hs
      refine ⟨?_, .inl ?_, ?_⟩
      all_goals rw [perform_reconnect hh]
      · exact hsound
      · exact hcontent
      · exact hfound
    | close =>
      refine ⟨?_, .inl ?_, ?_⟩
      all_goals rw [perform_close hh]
      · exact hs
      · exact fun _ hn => hn

theorem sound_turn (hs : s.disk.Sound) (t : Turn) : (s.turn t).disk.Sound := by
  cases t with
  | act number a => exact (perform_commits hs number a).sound
  | change c => exact Disk.sound_change s.disk c

/-- The database that is found is one of the place at every time. -/
theorem sound_turns (hs : s.disk.Sound) (ts : List Turn) : (s.turns ts).disk.Sound := by
  induction ts generalizing s with
  | nil => exact hs
  | cons t ts ih => exact ih (sound_turn hs t)

/-! ## §6 Handles that are connected -/

/-- A handle has the database open that is at the place. -/
structure Connected (s : Shelf) (number : Nat) (h : Handle) : Prop where
  handle_eq : s.handles[number]? = some h
  found_eq : ∃ n, h.state = .opened n ∧ s.disk.found = .database n

/-- An operation through a connected handle is one of the database at the place. -/
theorem Connected.perform_query {h : Handle} (hc : s.Connected number h) (hs : s.disk.Sound)
    (q : Query) :
    ((s.perform number (.query q)).1, (s.perform number (.query q)).2.disk.content) =
      s.disk.content.run h.limits true q := by
  obtain ⟨hh, n, hstate, hfound⟩ := hc
  have hrun := Handle.run_of_opened hstate hfound q
  -- The handle changes the database of its own number, which is the one that is found.
  rw [Shelf.perform_query hh, hrun]
  refine Prod.ext rfl ?_
  rw [Disk.content, Disk.setDatabase, hfound]
  exact Disk.database_setDatabase (hs n hfound) _

/-- A handle stays connected until it is connected anew or closed, as long as the place is not
changed from outside. -/
theorem Connected.turn {h : Handle} (hc : s.Connected number h) (hs : s.disk.Sound) {t : Turn}
    (hinside : t.change? = none) (ht : ¬ t.Renews number) : (s.turn t).Connected number h := by
  obtain ⟨hh, n, hstate, hfound⟩ := hc
  cases t with
  | change c => cases hinside
  | act m a =>
    -- No action takes away the database at the place, so only the handle is of interest.
    refine ⟨?_, n, hstate, (perform_commits hs m a).found n hfound⟩
    by_cases hm : m = number
    · subst hm
      cases a with
      | query q =>
        have hlt := (List.getElem?_eq_some_iff.mp hh).1
        have hrun := Handle.run_of_opened hstate hfound q
        rw [Shelf.turn, Shelf.perform_query hh, hrun]
        exact List.getElem?_set_self hlt
      | reconnect => exact (ht rfl).elim
      | close => exact (ht rfl).elim
    · rw [Shelf.turn, handles_perform_of_ne hm, hh]

/-- As long as nobody renews the handle or changes the place, it stays connected. -/
theorem Connected.turns {h : Handle} (hc : s.Connected number h) (hs : s.disk.Sound)
    {ts : List Turn} (hts : ∀ t ∈ ts, t.change? = none ∧ ¬ t.Renews number) :
    (s.turns ts).Connected number h := by
  induction ts generalizing s with
  | nil => exact hc
  | cons t ts ih =>
    obtain ⟨⟨hinside, ht⟩, hts⟩ := List.forall_mem_cons.mp hts
    exact ih (hc.turn hs hinside ht) (sound_turn hs t) hts

/-- Every operation through a handle acts on the database at the place, under the limits, until the
handle is connected anew or closed, or the place is changed from outside. -/
def Acts (s : Shelf) (number : Nat) (limits : Limits) : Prop :=
  ∀ later, (∀ t ∈ later, t.change? = none ∧ ¬ t.Renews number) → ∀ q,
    let r := (s.turns later).perform number (.query q)
    (r.1, r.2.disk.content) = (s.turns later).disk.content.run limits true q

theorem Connected.acts {h : Handle} (hc : s.Connected number h) (hs : s.disk.Sound) :
    s.Acts number h.limits :=
  fun later hlater q => (hc.turns hs hlater).perform_query (sound_turns hs later) q

/-- Where nothing keeps a handle from opening the place, connecting it anew does so. -/
theorem connected_of_reconnect {h : Handle} (hh : s.handles[number]? = some h)
    (hs : s.disk.Sound) (hobstacle : h.obstacle? s.disk = none) :
    (s.perform number .reconnect).1 = .ok .done ∧
      (s.perform number .reconnect).2.disk.content = s.disk.content ∧
      ∃ n, (s.perform number .reconnect).2.Connected number { h with state := .opened n } := by
  obtain ⟨hre, hopenable⟩ := Handle.openable_of_obstacle? hs hobstacle
  obtain ⟨n, d, hconnect, hcontent, hfound, -, -⟩ := Handle.connect_of_openable hre hopenable
  have hperform : s.perform number .reconnect =
      (.ok .done, ⟨d, s.handles.set number { h with state := .opened n }⟩) := by
    rw [perform_reconnect hh]
    simp only [Handle.reconnect, hconnect, Handle.access, Except.map]
  rw [hperform]
  have hlt := (List.getElem?_eq_some_iff.mp hh).1
  exact ⟨rfl, hcontent, n, List.getElem?_set_self hlt, n, rfl, hfound⟩

/-- Where something keeps it from it, connecting the handle fails for this reason. -/
theorem perform_reconnect_of_obstacle {h : Handle} {reason : String}
    (hh : s.handles[number]? = some h) (hobstacle : h.obstacle? s.disk = some reason) :
    s.perform number .reconnect = (.error (.storeUnavailable reason),
      { s with handles := s.handles.set number { h with state := .failed reason } }) := by
  rw [perform_reconnect hh, Handle.reconnect_of_obstacle hobstacle]
  rfl

/-- To close a handle that is connected and to connect it anew changes nothing at all. -/
theorem Connected.perform_close_reconnect {h : Handle} (hc : s.Connected number h)
    (hre : h.reopenable = true) :
    (s.perform number .close).2.perform number .reconnect = (.ok .done, s) := by
  obtain ⟨hh, n, hstate, hfound⟩ := hc
  have hreconnect := Handle.reconnect_close_of_opened hre hstate hfound
  obtain ⟨hlt, rfl⟩ := List.getElem?_eq_some_iff.mp hh
  have hclosed : (s.handles.set number s.handles[number].close)[number]? =
      some s.handles[number].close := List.getElem?_set_self hlt
  rw [perform_close hh, perform_reconnect hclosed, hreconnect]
  simp only [List.set_set, List.set_getElem_self, Except.map]

/-- The first operation finds what is at the place, where nothing keeps the handle from it. -/
theorem perform_query_of_unopened {h : Handle} (hh : s.handles[number]? = some h)
    (hs : s.disk.Sound) (hstate : h.state = .unopened) (hobstacle : h.obstacle? s.disk = none)
    (q : Query) :
    let r := s.perform number (.query q)
    (r.1, r.2.disk.content) = s.disk.content.run h.limits true q ∧
      ∃ n, r.2.Connected number { h with state := .opened n } := by
  obtain ⟨hre, hopenable⟩ := Handle.openable_of_obstacle? hs hobstacle
  obtain ⟨n, d, hconnect, hcontent, hfound, hn, -⟩ := Handle.connect_of_openable hre hopenable
  -- It is as if the handle had opened the place before.
  have hrun : h.run s.disk q = { h with state := .opened n }.run d q := by
    rw [Handle.run_of_unopened hstate, hconnect]
  rw [Handle.run_of_opened rfl hfound q, hcontent] at hrun
  rw [perform_query hh, hrun]
  refine ⟨Prod.ext rfl ?_, n, List.getElem?_set_self (List.getElem?_eq_some_iff.mp hh).1, n, rfl,
    hfound⟩
  rw [Disk.content, Disk.setDatabase, hfound]
  exact Disk.database_setDatabase hn _

/-- Nothing but changes from outside is seen at the place until the database is needed. -/
theorem disk_turns_of_not_needs {ts : List Turn} (hts : ∀ t ∈ ts, ¬ t.Needs) :
    (s.turns ts).disk = (ts.filterMap Turn.change?).foldl Disk.change s.disk := by
  induction ts generalizing s with
  | nil => rfl
  | cons t ts ih =>
    obtain ⟨ht, hts⟩ := List.forall_mem_cons.mp hts
    have hrest := ih (s := s.turn t) hts
    -- Operations and attempts to connect are left out; to close a handle does not touch the place.
    cases t with
    | change c => exact hrest
    | act m a =>
      have hdisk : (s.turn (.act m a)).disk = s.disk := by
        cases a with
        | query q => exact (ht trivial).elim
        | reconnect => exact (ht trivial).elim
        | close =>
          cases hh : s.handles[m]? with
          | none => rw [Shelf.turn, perform_of_none hh]
          | some h => rw [Shelf.turn, perform_close hh]
      rw [hdisk] at hrest
      exact hrest

/-- Whether a handle can be opened anew is never changed. -/
theorem reopenable_perform (s : Shelf) (number : Nat) (a : Action) :
    (s.perform number a).2.handles.map (·.reopenable) = s.handles.map (·.reopenable) := by
  cases hh : s.handles[number]? with
  | none => rw [perform_of_none hh]
  | some h =>
    -- The handle is put back where it was with another state.
    have hset (state : HandleState) :
        (s.handles.set number { h with state := state }).map (·.reopenable) =
          s.handles.map (·.reopenable) := by
      obtain ⟨hlt, rfl⟩ := List.getElem?_eq_some_iff.mp hh
      have hlt' : number < (s.handles.map (·.reopenable)).length := by simpa using hlt
      have hget : (s.handles.map (·.reopenable))[number] = s.handles[number].reopenable :=
        List.getElem_map _
      rw [List.map_set]
      show (s.handles.map (·.reopenable)).set number s.handles[number].reopenable = _
      rw [← hget, List.set_getElem_self]
    cases a with
    | query q =>
      obtain ⟨state, hstate⟩ := h.run_handle s.disk q
      rw [perform_query hh, hstate]
      exact hset state
    | reconnect =>
      obtain ⟨state, hstate⟩ := h.reconnect_handle s.disk
      rw [perform_reconnect hh, hstate]
      exact hset state
    | close =>
      rw [perform_close hh]
      exact hset .closed

theorem reopenable_turns (s : Shelf) (ts : List Turn) :
    (s.turns ts).handles.map (·.reopenable) = s.handles.map (·.reopenable) := by
  induction ts generalizing s with
  | nil => rfl
  | cons t ts ih =>
    refine (ih (s.turn t)).trans ?_
    cases t with
    | act m a => exact reopenable_perform s m a
    | change c => rfl

/-! ## §7 Databases in memory -/

/-- The handle of a number is on a database in memory. -/
def Volatile (s : Shelf) (number : Nat) : Prop :=
  (s.handles.map (·.reopenable))[number]? = some false

/-- A handle on a database in memory stays one. -/
theorem Volatile.turns (hv : s.Volatile number) (ts : List Turn) :
    (s.turns ts).Volatile number := by
  rw [Volatile, reopenable_turns]
  exact hv

/-- A database in memory cannot be opened anew. -/
theorem Volatile.perform_reconnect (hv : s.Volatile number) :
    (s.perform number .reconnect).1 = .error (.storeUnavailable Handle.memoryReason) := by
  obtain ⟨h, hh, hre⟩ : ∃ h, s.handles[number]? = some h ∧ h.reopenable = false := by
    simpa [Volatile] using hv
  have hobstacle : h.obstacle? s.disk = some Handle.memoryReason := by
    simp [Handle.obstacle?, hre]
  rw [perform_reconnect_of_obstacle hh hobstacle]

/-- No attempt to connect its handle ever succeeds. -/
theorem Volatile.not_reconnects (hv : s.Volatile number) (ts : List Turn) :
    ¬ s.Reconnects number ts := by
  induction ts generalizing s with
  | nil => exact not_false
  | cons t ts ih =>
    rintro (⟨-, hok⟩ | hrest)
    · rw [hv.perform_reconnect] at hok
      cases hok
    · exact ih (hv.turns [t]) hrest

/-- What was in memory is refused through the handle of a number, and there is no way back to it. -/
structure Lost (s : Shelf) (number : Nat) : Prop where
  refused : ∀ q, ∃ reason, s.perform number (.query q) = (.error (.storeUnavailable reason), s)
  reconnect_fails :
    (s.perform number .reconnect).1 = .error (.storeUnavailable Handle.memoryReason)

/-- Once such a handle refuses, it refuses for good. -/
theorem Volatile.lost (hv : s.Volatile number) {reason : String} (hr : s.Refuses number reason)
    (ts : List Turn) : (s.turns ts).Lost number :=
  ⟨fun q => ⟨_, (hr.turns (hv.not_reconnects ts)).perform_query q⟩,
    (hv.turns ts).perform_reconnect⟩

theorem Volatile.lost_of_close (hv : s.Volatile number) (ts : List Turn) :
    ((s.turn (.act number .close)).turns ts).Lost number :=
  Volatile.lost (hv.turns [.act number .close]) (refuses_of_perform (.inr ⟨rfl, rfl⟩)) ts

theorem Volatile.lost_of_reconnect (hv : s.Volatile number) (ts : List Turn) :
    ((s.turn (.act number .reconnect)).turns ts).Lost number :=
  Volatile.lost (hv.turns [.act number .reconnect])
    (refuses_of_perform (.inl hv.perform_reconnect)) ts

/-! ## §8 Every handle at every time -/

/-- What can be done through the handle of a number, now and later. -/
structure Available (s : Shelf) (number : Nat) : Prop where
  /-- Until the database is needed just what comes from outside is seen at the place. -/
  untouched : ∀ ts, (∀ t ∈ ts, ¬ t.Needs) →
    (s.turns ts).disk = (ts.filterMap Turn.change?).foldl Disk.change s.disk
  /-- The first operation opens the place and finds what is there. -/
  first : ∀ h, s.handles[number]? = some h → h.state = .unopened → h.obstacle? s.disk = none →
    ∀ q, let r := s.perform number (.query q)
      (r.1, r.2.disk.content) = s.disk.content.run h.limits true q ∧ r.2.Acts number h.limits
  /-- It fails where the place cannot be opened. -/
  first_fails : ∀ h reason, s.handles[number]? = some h → h.state = .unopened →
    h.obstacle? s.disk = some reason → ∀ q,
      (s.perform number (.query q)).1 = .error (.storeUnavailable reason) ∧
        (s.perform number (.query q)).2.disk = s.disk
  /-- Once an attempt to open the place has failed or the handle was closed, every operation is
  refused for the most recent such reason and touches nothing, until an attempt to connect
  succeeds. -/
  refused : ∀ a reason,
    (s.perform number a).1 = .error (.storeUnavailable reason) ∨
      a = .close ∧ reason = Handle.closedReason →
    let s' := s.turn (.act number a)
    ∀ later, ¬ s'.Reconnects number later → ∀ q,
      (s'.turns later).perform number (.query q) =
        (.error (.storeUnavailable (s'.latestReason number reason later)), s'.turns later)
  /-- An attempt to connect succeeds just where the place can be opened. -/
  reconnects : ∀ h, s.handles[number]? = some h →
    ((s.perform number .reconnect).1 = .ok .done ↔ h.obstacle? s.disk = none)
  /-- It fails where the place cannot be opened. -/
  reconnect_fails : ∀ h reason, s.handles[number]? = some h → h.obstacle? s.disk = some reason →
    (s.perform number .reconnect).1 = .error (.storeUnavailable reason) ∧
      (s.perform number .reconnect).2.disk = s.disk
  /-- After one that succeeds every operation acts on the database that is at the place, as it was
  left. -/
  resumes : ∀ h, s.handles[number]? = some h → (s.perform number .reconnect).1 = .ok .done →
    let r := s.perform number .reconnect
    r.2.disk.content = s.disk.content ∧ r.2.Acts number h.limits
  /-- The database is changed by what operations do to it, and by nothing else. -/
  committed : ∀ m a, s.Commits m a
  /-- To close a handle of a file that has the file open and to connect it anew makes no
  difference. -/
  unnoticed : ∀ h, s.Connected number h → h.reopenable = true →
    (s.perform number .close).2.perform number .reconnect = (.ok .done, s)

/-- Where the database that is found is one of the place, all this holds of each handle. -/
theorem available_of_sound (hs : s.disk.Sound) (number : Nat) : s.Available number := by
  -- An attempt to connect fails just where something keeps the handle from the place.
  have hfails {h : Handle} (hh : s.handles[number]? = some h) {reason : String}
      (hobstacle : h.obstacle? s.disk = some reason) :
      (s.perform number .reconnect).1 = .error (.storeUnavailable reason) := by
    rw [perform_reconnect_of_obstacle hh hobstacle]
  have hreconnects {h : Handle} (hh : s.handles[number]? = some h) :
      (s.perform number .reconnect).1 = .ok .done ↔ h.obstacle? s.disk = none := by
    refine ⟨fun hok => ?_, fun hnone => (connected_of_reconnect hh hs hnone).1⟩
    by_contra hsome
    obtain ⟨reason, hobstacle⟩ := Option.ne_none_iff_exists'.mp hsome
    rw [hfails hh hobstacle] at hok
    cases hok
  refine ⟨fun ts => disk_turns_of_not_needs, ?first, ?first_fails, ?refused,
    fun h => hreconnects, ?reconnect_fails, ?resumes, perform_commits hs,
    fun h => Connected.perform_close_reconnect⟩
  case first =>
    intro h hh hstate hobstacle q
    obtain ⟨hanswer, n, hc⟩ := perform_query_of_unopened hh hs hstate hobstacle q
    exact ⟨hanswer, hc.acts (perform_commits hs number (.query q)).sound⟩
  case first_fails =>
    intro h reason hh hstate hobstacle q
    rw [perform_query hh, Handle.run_of_obstacle hstate hobstacle q]
    exact ⟨rfl, rfl⟩
  case refused =>
    intro a reason hrefused s' later hlater q
    -- The handle refuses from this action on, and goes on through the later turns.
    exact ((refuses_of_perform hrefused).turns hlater).perform_query q
  case reconnect_fails =>
    intro h reason hh hobstacle
    rw [perform_reconnect_of_obstacle hh hobstacle]
    exact ⟨rfl, rfl⟩
  case resumes =>
    intro h hh hok
    obtain ⟨-, hcontent, n, hc⟩ := connected_of_reconnect hh hs ((hreconnects hh).mp hok)
    exact ⟨hcontent, hc.acts (perform_commits hs number .reconnect).sound⟩

/-- Whatever was done before through whatever handles on a place, and whatever was at the place:
where a handle has failed to open it or was closed nothing can be done until it is connected anew,
and then everything is as it was left. A database in memory does not come back. -/
theorem available (limits : List Limits) (l : Limits) (before : List Turn) :
    (∀ number, ((new .vacant limits).turns before).Available number) ∧
      (∀ number, ((inMemory l).turns before).Available number) ∧
      ∀ later,
        ((((inMemory l).turns before).turn (.act 0 .close)).turns later).Lost 0 ∧
          ((((inMemory l).turns before).turn (.act 0 .reconnect)).turns later).Lost 0 := by
  -- Nothing is found in the beginning, so what is found later was put there or created.
  have hnew : (new .vacant limits).disk.Sound := fun n hn => nomatch hn
  have hmemory : (inMemory l).disk.Sound := fun n hn => nomatch hn
  have hstart : (inMemory l).Volatile 0 := rfl
  have hvolatile := hstart.turns before
  exact ⟨available_of_sound (sound_turns hnew before),
    available_of_sound (sound_turns hmemory before),
    fun later => ⟨hvolatile.lost_of_close later, hvolatile.lost_of_reconnect later⟩⟩

/-- A directory is in the way, and goes. -/
example :
    let count : Action := .query (.count .queries)
    let s := (new .vacant [.default]).turns
      [.change (.block "unable to open database file"), .act 0 count, .change .clear]
    (s.perform 0 count).1 = .error (.storeUnavailable "unable to open database file") ∧
      ((s.turn (.act 0 .reconnect)).perform 0 count).1 = .ok (.count 0) := by
  decide

end Shelf

end QueryPlayground.History
