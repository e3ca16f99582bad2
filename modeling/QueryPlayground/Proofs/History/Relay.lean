import QueryPlayground.History.Relay
import QueryPlayground.Proofs.History.Availability
import QueryPlayground.Proofs.History.Broadcast
import QueryPlayground.Proofs.History.Recording

/-!
# A recorder at work does what a plain run does

However the sinks and the task take turns, what happens is what a plain run over the texts does that
puts each of them in through the same handle.

Main statement: `Relay.faithful`.
-/

namespace QueryPlayground.History

/-! ## §1 The plain run -/

/-- Putting texts in one after the other, each at its time, through the only handle on a place. -/
def Record.inserts (xs : List (Int × Record)) : List (Nat × Action) :=
  xs.map fun x => (0, .query (.insert x.2.kind x.2.content x.1))

/-- The events of texts that were put in with some answers. -/
def Event.ofAll (xs : List Record) (answers : List (Except Error Answer)) : List Event :=
  (List.zipWith Event.of? xs answers).filterMap id

/-! ## §2 What a recorder does with one text, and with many -/

theorem Record.inserts_cons (x : Int × Record) (xs : List (Int × Record)) :
    inserts (x :: xs) = (0, .query (.insert x.2.kind x.2.content x.1)) :: inserts xs :=
  rfl

theorem Event.ofAll_cons (x : Record) (xs : List Record) (answer : Except Error Answer)
    (answers : List (Except Error Answer)) :
    ofAll (x :: xs) (answer :: answers) = (of? x answer).toList ++ ofAll xs answers := by
  cases h : of? x answer <;> simp [ofAll, h]

theorem Shelf.perform_only (h : Handle) (d : Disk) (q : Query) :
    perform ⟨d, [h]⟩ 0 (.query q) =
      ((h.run d q).1, ⟨(h.run d q).2.2, [(h.run d q).2.1]⟩) :=
  rfl

namespace Recorder

theorem record_eq (r : Recorder) (now : Int) (x : Record) :
    let result := r.handle.run r.disk (.insert x.kind x.content now)
    r.record now x =
      ⟨result.2.1, result.2.2, (Event.of? x result.1).toList ++ r.published⟩ := by
  simp only [record, Event.of?]
  generalize r.handle.run r.disk (.insert x.kind x.content now) = result
  obtain ⟨answer, handle, disk⟩ := result
  split
  next h =>
    obtain ⟨rfl, rfl, rfl⟩ := h
    rfl
  next hne h =>
    obtain ⟨rfl, rfl, rfl⟩ := h
    split
    next i heq => exact (hne i heq).elim
    next => rfl

theorem events_record (r : Recorder) (now : Int) (x : Record) :
    (r.record now x).events = r.events ++
      (Event.of? x (r.handle.run r.disk (.insert x.kind x.content now)).1).toList := by
  rw [record_eq]
  cases Event.of? x (r.handle.run r.disk (.insert x.kind x.content now)).1 <;> simp [events]

theorem recordEach_cons (r : Recorder) (x : Int × Record) (xs : List (Int × Record)) :
    r.recordEach (x :: xs) = (r.record x.1 x.2).recordEach xs :=
  rfl

/-- A recorder that takes texts in order does what the plain run does. -/
theorem recordEach_plain (r : Recorder) (xs : List (Int × Record)) :
    let plain := Shelf.performAll ⟨r.disk, [r.handle]⟩ (Record.inserts xs)
    plain.2 = ⟨(r.recordEach xs).disk, [(r.recordEach xs).handle]⟩ ∧
      (r.recordEach xs).events = r.events ++ Event.ofAll (xs.map Prod.snd) plain.1 := by
  induction xs generalizing r with
  | nil => simp [Record.inserts, Shelf.performAll, recordEach, Event.ofAll]
  | cons x xs ih =>
    obtain ⟨hshelf, hevents⟩ := ih (r.record x.1 x.2)
    rw [events_record, List.append_assoc] at hevents
    rw [record_eq] at hshelf hevents
    simp only [Record.inserts_cons, Shelf.performAll, Shelf.perform_only, recordEach_cons,
      record_eq, List.map_cons, Event.ofAll_cons]
    exact ⟨hshelf, hevents⟩

end Recorder

/-! ## §3 Stores that cannot be used -/

/-- Every attempt to use a handle fails for a reason. -/
def Handle.Unusable (h : Handle) (d : Disk) (reason : String) : Prop :=
  h.Refuses reason ∨ h.state = .unopened ∧ h.obstacle? d = some reason

theorem Handle.Unusable.run {h : Handle} {d : Disk} {reason : String} (hu : h.Unusable d reason)
    (q : Query) :
    ∃ h', h.run d q = (.error (.storeUnavailable reason), h', d) ∧ h'.Unusable d reason := by
  rcases hu with hr | ⟨hstate, hobstacle⟩
  · exact ⟨h, hr.run d q, .inl hr⟩
  · exact ⟨_, run_of_obstacle hstate hobstacle q, .inl (.inl rfl)⟩

/-- A plain run over an unusable store fails at each text and leaves the place as it is. -/
theorem Handle.Unusable.performAll {h : Handle} {d : Disk} {reason : String}
    (hu : h.Unusable d reason) (xs : List (Int × Record)) :
    let plain := Shelf.performAll ⟨d, [h]⟩ (Record.inserts xs)
    (∀ answer ∈ plain.1, answer = .error (.storeUnavailable reason)) ∧ plain.2.disk = d := by
  induction xs generalizing h with
  | nil => simp [Record.inserts, Shelf.performAll]
  | cons x xs ih =>
    obtain ⟨h', hrun, hu'⟩ := hu.run (.insert x.2.kind x.2.content x.1)
    obtain ⟨hanswers, hdisk⟩ := ih hu'
    simp only [Record.inserts_cons, Shelf.performAll, Shelf.perform_only, hrun, List.mem_cons]
    refine ⟨?_, hdisk⟩
    rintro answer (rfl | hmem)
    · rfl
    · exact hanswers answer hmem

theorem Event.ofAll_of_errors {xs : List Record} {answers : List (Except Error Answer)}
    (h : ∀ answer ∈ answers, ∃ e, answer = .error e) : ofAll xs answers = [] := by
  induction xs generalizing answers with
  | nil => rfl
  | cons x xs ih =>
    cases answers with
    | nil => rfl
    | cons answer answers =>
      obtain ⟨⟨e, rfl⟩, hrest⟩ := List.forall_mem_cons.mp h
      rw [ofAll_cons, ih hrest]
      rfl

/-! ## §4 Every moment of a recorder -/

namespace Relay

variable {handle : Handle} {disk : Disk} {s : Relay}

/-- A recorder has come as far as the plain run has with the texts that were written, and holds what
is still to be written: no text is lost, and the task does not stop too early. -/
structure Follows (handle : Handle) (disk : Disk) (s : Relay) : Prop where
  recorder_eq :
    (Recorder.new handle disk).recordEach s.written = ⟨s.handle, s.disk, s.published.reverse⟩
  holds : s.channel.Holds s.published
  texts_eq :
    s.calls.map Prod.fst = s.written.map Prod.snd ++ s.stage.text?.toList ++ s.waiting
  accepted : ∀ call ∈ s.calls, call.2 = .ok ()
  done : s.stage = .stopped → s.sinks = 0 ∧ s.waiting = []

theorem follows_new (handle : Handle) (disk : Disk) : (new handle disk).Follows handle disk where
  recorder_eq := rfl
  holds := Broadcast.holds_new
  texts_eq := rfl
  accepted _ h := nomatch h
  done h := nomatch h

theorem Follows.record (h : s.Follows handle disk) (hsinks : s.sinks ≠ 0) (x : Record) :
    (s.record x).Follows handle disk := by
  -- While there is a sink the task cannot have stopped.
  have hstage : s.stage ≠ .stopped := fun hstopped => hsinks (h.done hstopped).1
  have heq : s.record x =
      { s with waiting := s.waiting ++ [x], calls := s.calls ++ [(x, .ok ())] } := by
    unfold Relay.record
    split
    next hstopped => exact (hstage hstopped).elim
    all_goals rfl
  rw [heq]
  refine { h with texts_eq := ?_, accepted := ?_, done := fun hstopped => (hstage hstopped).elim }
  · simp [h.texts_eq]
  · intro call hmem
    rcases List.mem_append.mp hmem with hmem | hmem
    · exact h.accepted call hmem
    · rw [List.mem_singleton.mp hmem]

theorem Follows.write (h : s.Follows handle disk) {x : Record} (hstage : s.stage = .writing x)
    (now : Int) : (s.write now x).Follows handle disk := by
  have hrecorder := Recorder.recordEach_concat (.new handle disk) s.written (now, x)
  rw [h.recorder_eq, Recorder.record_eq] at hrecorder
  have htexts := h.texts_eq
  rw [hstage] at htexts
  unfold Relay.write
  -- The event goes into the channel as it goes into the list of the plain run.
  cases hevent : Event.of? x (s.handle.run s.disk (.insert x.kind x.content now)).1 with
  | none =>
    rw [hevent] at hrecorder
    simp only [hevent]
    refine ⟨?_, h.holds, ?_, h.accepted, nofun⟩
    · simpa using hrecorder
    · simpa [Stage.text?] using htexts
  | some e =>
    rw [hevent] at hrecorder
    simp only [hevent]
    refine ⟨?_, h.holds.publish e, ?_, h.accepted, nofun⟩
    · simpa [publish] using hrecorder
    · simpa [publish, Stage.text?] using htexts

theorem Follows.work (h : s.Follows handle disk) (now : Int) : (s.work now).Follows handle disk := by
  unfold Relay.work
  cases hstage : s.stage with
  | stopped => exact h
  | writing x => exact h.write hstage now
  | idle =>
    have htexts := h.texts_eq
    rw [hstage] at htexts
    cases hwaiting : s.waiting with
    | cons x rest =>
      -- The first text goes from the queue to the task.
      refine { h with texts_eq := ?_, done := nofun }
      simpa [Stage.text?, hwaiting] using htexts
    | nil =>
      rw [hwaiting] at htexts
      dsimp only
      split
      next hsinks => exact { h with texts_eq := htexts, done := fun _ => ⟨hsinks, rfl⟩ }
      next => exact h

theorem Follows.act (h : s.Follows handle disk) (a : Act) : (s.act a).Follows handle disk := by
  cases a with
  | record x =>
    simp only [Relay.act]
    split
    next => exact h
    next hsinks => exact h.record hsinks x
  | clone =>
    simp only [Relay.act]
    split
    next => exact h
    next hsinks => exact { h with done := fun hstopped => (hsinks (h.done hstopped).1).elim }
  | drop =>
    refine { h with done := fun hstopped => ⟨?_, (h.done hstopped).2⟩ }
    simp [Relay.act, (h.done hstopped).1]
  | work now => exact h.work now

theorem Follows.actAll (h : s.Follows handle disk) (acts : List Act) :
    (s.actAll acts).Follows handle disk := by
  induction acts generalizing s with
  | nil => exact h
  | cons a acts ih => exact ih (h.act a)

/-! ## §5 Joining a recorder -/

/-- How many turns the task needs to stop, once no text can be handed over any more. -/
def todo (s : Relay) : Nat :=
  match s.stage with
  | .idle => 2 * s.waiting.length + 1
  | .writing _ => 2 * s.waiting.length + 2
  | .stopped => 0

theorem todo_write (s : Relay) (now : Int) (x : Record) :
    (s.write now x).todo = 2 * s.waiting.length + 1 := by
  unfold write
  cases hevent : Event.of? x (s.handle.run s.disk (.insert x.kind x.content now)).1 <;>
    simp [hevent, publish, todo]

theorem calls_sinks_work (s : Relay) (now : Int) :
    (s.work now).calls = s.calls ∧ (s.work now).sinks = s.sinks := by
  unfold work
  cases s.stage with
  | stopped => exact ⟨rfl, rfl⟩
  | writing x =>
    unfold write
    cases hevent : Event.of? x (s.handle.run s.disk (.insert x.kind x.content now)).1 <;>
      simp [hevent, publish]
  | idle =>
    cases s.waiting with
    | cons => exact ⟨rfl, rfl⟩
    | nil => dsimp only; split <;> exact ⟨rfl, rfl⟩

theorem texts_sinks_record (s : Relay) (x : Record) :
    (s.record x).calls.map Prod.fst = s.calls.map Prod.fst ++ [x] ∧
      (s.record x).sinks = s.sinks := by
  unfold record
  split <;> exact ⟨List.map_append, rfl⟩

/-- Without a sink each turn of the task brings it nearer to its end. -/
theorem todo_work (hsinks : s.sinks = 0) (now : Int) : (s.work now).todo ≤ s.todo - 1 := by
  cases hstage : s.stage with
  | stopped => simp [work, hstage, todo]
  | writing x =>
    have hwork : s.work now = s.write now x := by simp only [work, hstage]
    rw [hwork, todo_write]
    simp [todo, hstage]
  | idle =>
    cases hwaiting : s.waiting with
    | cons x rest =>
      simp only [work, todo, hstage, hwaiting, List.length_cons]
      omega
    | nil => simp [work, hstage, hwaiting, hsinks, todo]

theorem act_of_not_isWork (hsinks : s.sinks = 0) {a : Act} (ha : a.isWork = false) :
    s.act a = s := by
  cases a with
  | record x => exact if_pos hsinks
  | clone => exact if_pos hsinks
  | drop =>
    obtain ⟨sinks, _⟩ := s
    obtain rfl : sinks = 0 := hsinks
    rfl
  | work now => cases ha

theorem todo_actAll (hsinks : s.sinks = 0) (later : List Act) :
    (s.actAll later).todo ≤ s.todo - later.countP Act.isWork ∧
      (s.actAll later).calls = s.calls := by
  induction later generalizing s with
  | nil => exact ⟨Nat.le_refl _, rfl⟩
  | cons a later ih =>
    cases hwork : a.isWork with
    | false =>
      -- Neither calls nor sinks are left that could do anything.
      have hsame := act_of_not_isWork hsinks hwork
      simpa [actAll, hsame, hwork] using ih hsinks
    | true =>
      cases a with
      | work now =>
        obtain ⟨hcalls, hsame⟩ := s.calls_sinks_work now
        obtain ⟨htodo, hcalls'⟩ := ih (s := s.work now) (hsame.trans hsinks)
        have hstep := todo_work hsinks now
        rw [List.countP_cons_of_pos hwork]
        refine ⟨?_, hcalls'.trans hcalls⟩
        change ((s.work now).actAll later).todo ≤ _
        omega
      | record | clone | drop => cases hwork

theorem stage_of_todo (h : s.todo = 0) : s.stage = .stopped := by
  unfold todo at h
  cases hstage : s.stage with
  | stopped => rfl
  | idle | writing => simp [hstage] at h

/-! ## §6 Faithfulness -/

/-- What a recorder does to a store that was as given when it started. -/
structure Faithful (handle : Handle) (disk : Disk) (s : Relay) : Prop where
  /-- Every text that is handed to a sink is accepted. -/
  accepted : ∀ call ∈ s.calls, call.2 = .ok ()
  /-- They are written in the order in which they were handed over. -/
  ordered : s.written.map Prod.snd <+: s.calls.map Prod.fst
  /-- Once the task has stopped all of them are written. -/
  complete : s.stage = .stopped → s.written.map Prod.snd = s.calls.map Prod.fst
  /-- What has been done is what a recorder does that takes the written texts one after the other. -/
  recorder : (Recorder.new handle disk).recordEach s.written = ⟨s.handle, s.disk, s.published.reverse⟩
  /-- Store and handle are left as by the plain run. -/
  store : (Shelf.performAll ⟨disk, [handle]⟩ (Record.inserts s.written)).2 = ⟨s.disk, [s.handle]⟩
  /-- There is an event for each text that the plain run has put in, and for no other one. -/
  published : s.published = Event.ofAll (s.written.map Prod.snd)
    (Shelf.performAll ⟨disk, [handle]⟩ (Record.inserts s.written)).1
  /-- A subscriber that came before the first event and begins to read now is told how many it has
  missed, where there were too many, and gets the last ones. -/
  heard : s.channel.drain 0 = Event.notices s.published
  /-- Where each text fails there is no event. -/
  silent : (∀ answer ∈ (Shelf.performAll ⟨disk, [handle]⟩ (Record.inserts s.written)).1,
    ∃ e, answer = .error e) → s.published = []
  /-- In a store that cannot be used each text fails, and nothing is changed at the place. -/
  unusable : ∀ reason, handle.Unusable disk reason →
    (∀ answer ∈ (Shelf.performAll ⟨disk, [handle]⟩ (Record.inserts s.written)).1,
      answer = .error (.storeUnavailable reason)) ∧ s.published = [] ∧ s.disk = disk
  /-- When every sink is gone the task needs so many turns to stop, and nothing keeps it from
  that. -/
  stops : s.sinks = 0 → ∀ later, 2 * s.waiting.length + 2 ≤ later.countP Act.isWork →
    (s.actAll later).stage = .stopped ∧ (s.actAll later).calls = s.calls

/-- A relay that follows is a faithful one. -/
theorem Follows.toFaithful (h : s.Follows handle disk) : s.Faithful handle disk := by
  obtain ⟨hshelf, hevents⟩ := Recorder.recordEach_plain (.new handle disk) s.written
  rw [h.recorder_eq] at hshelf hevents
  simp only [Recorder.events, Recorder.new, List.reverse_reverse, List.reverse_nil,
    List.nil_append] at hshelf hevents
  -- Where every insertion fails no event is published.
  have hsilent : (∀ answer ∈ (Shelf.performAll ⟨disk, [handle]⟩ (Record.inserts s.written)).1,
      ∃ e, answer = .error e) → s.published = [] := by
    intro hfail
    rw [hevents, Event.ofAll_of_errors hfail]
  refine ⟨h.accepted, ?ordered, ?complete, h.recorder_eq, hshelf, hevents, ?heard, hsilent,
    ?unusable, ?stops⟩
  case ordered =>
    -- What was written comes before what is in hand and what waits.
    rw [h.texts_eq, List.append_assoc]
    exact List.prefix_append _ _
  case complete =>
    intro hstage
    simp [h.texts_eq, hstage, Stage.text?, (h.done hstage).2]
  case heard =>
    exact Broadcast.drain_of_holds h.holds (Nat.zero_le _)
  case unusable =>
    intro reason hu
    obtain ⟨hanswers, hdisk⟩ := hu.performAll s.written
    rw [hshelf] at hdisk
    exact ⟨hanswers, hsilent fun answer hmem => ⟨_, hanswers answer hmem⟩, hdisk⟩
  case stops =>
    intro hsinks later hlater
    -- Each turn brings the end nearer, and there are no more turns than twice what waits.
    obtain ⟨htodo, hcalls⟩ := todo_actAll hsinks later
    refine ⟨stage_of_todo ?_, hcalls⟩
    have hbound : s.todo ≤ 2 * s.waiting.length + 2 := by
      unfold todo
      split <;> omega
    omega

end Relay

end QueryPlayground.History
