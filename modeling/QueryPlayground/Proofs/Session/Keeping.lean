import QueryPlayground.Program.Launch
import QueryPlayground.Proofs.Session.Run

/-!
# Sessions from the beginning to the end

A session goes on by events: edits and applies, quiet times that are over, answers of the worker and
takings of the recorder, in any order. It keeps to the ledger of the events in everything that a user
sees of it. An apply that meets another one is dropped; one whose end is awaited meets none but an
automatic one.

Main statements: `Session.start_actAll_keeps`, and `Session.Sound.exists_actAll_step` on the steps of the
program, which are runs of events.
-/

namespace QueryPlayground

open QueryPlayground.Coordinator
open QueryPlayground.History (Disk Handle Limits Record Recorder)
open QueryPlayground.Program (Launcher)

/-! ## §1 The worker behind the evaluator -/

namespace Worker

end Worker

/-! ## §2 Events -/

namespace Session

/-- The coordinator has come to a ledger by what has happened, and the recorder lags behind it. -/
structure Runs (clock : Nat → Int) (first : Recorder) (s : Session) (hs : List Happening)
    (l : Ledger) : Prop extends Lags clock first s where
  evaluator_eq : s.evaluator = builtinEvaluator
  mirrors : s.coordinator.Mirrors s.sent (answers hs) l

variable {clock : Nat → Int} {first : Recorder} {s : Session} {hs : List Happening} {l l' : Ledger}

/-- Where the coordinator keeps to the ledger, the session does. -/
theorem Runs.follow (h : s.Runs clock first hs l) {after : Machine × List Happening}
    (henters : Machine.Enters s.sent (answers hs) after l') :
    (s.follow after).1.Runs clock first (hs ++ (s.follow after).2) l' := by
  refine ⟨h.toLags.follow after, h.evaluator_eq, ?_⟩
  rw [answers_append]
  exact henters

/-- The session keeps to the ledger in every event. -/
theorem act_runs (h : s.Runs clock first hs l) (e : Event) :
    (s.act clock e).1.Runs clock first (hs ++ (s.act clock e).2) (l.act e) := by
  cases e with
  | step what =>
    have henters := Machine.perform_enters h.mirrors what
    rw [← h.evaluator_eq] at henters
    exact h.follow { henters with }
  | quiet =>
    cases harmed : s.coordinator.debouncer.armed with
    | none =>
      -- No edit waits, in the ledger as in the coordinator.
      have hwaits : l.waits = false := by simpa [harmed] using h.mirrors.waits_eq.symm
      simpa [act, harmed, Ledger.act, Ledger.quiet, hwaits] using h
    | some armed =>
      have hwaits : l.waits = true := by simpa [harmed] using h.mirrors.waits_eq.symm
      have hlater : Machine.Mirrors
          { s.coordinator with now := max s.coordinator.now armed.due } s.sent (answers hs) l :=
        { h.mirrors with }
      have henters := Machine.quiet_enters hlater hwaits
      rw [← h.evaluator_eq] at henters
      simp only [act, harmed]
      exact h.follow henters
  | write =>
    obtain ⟨hevaluator, hcoordinator, hsent⟩ := s.write_frame clock
    simp only [act, List.append_nil]
    refine ⟨h.toLags.write, hevaluator.trans h.evaluator_eq, ?_⟩
    rw [hcoordinator, hsent]
    exact h.mirrors

/-- What happens in more events comes after what happens in those before. -/
theorem actAll_append (clock : Nat → Int) (s : Session) (events more : List Event) :
    (s.actAll clock (events ++ more)).1 =
        ((s.actAll clock events).1.actAll clock more).1 ∧
      (s.actAll clock (events ++ more)).2 =
        (s.actAll clock events).2 ++ ((s.actAll clock events).1.actAll clock more).2 := by
  induction events generalizing s with
  | nil => exact ⟨rfl, rfl⟩
  | cons e rest ih =>
    obtain ⟨hs, hhs⟩ := ih (s.act clock e).1
    refine ⟨hs, ?_⟩
    simp only [List.cons_append, actAll, List.append_assoc, hhs]

end Session

/-! ## §3 Workers that answer at once

A session that is taken step by step, with a worker that answers before anything else happens, goes
through one of these runs. -/

namespace Coordinator.Machine

@[simp]
theorem conclude_now (m : Machine) (origin : Origin) (i : Inputs) (r : Except Error Document) :
    (m.conclude origin i r).1.now = m.now := by
  cases r <;> rfl

@[simp]
theorem start_now (m : Machine) (e : Evaluator) (origin : Origin) :
    (m.start e origin).1.now = m.now := by
  unfold start
  split
  · rfl
  · dsimp only
    split <;> simp

/-- An evaluation that lands does not turn the clock. -/
@[simp]
theorem land_now (m : Machine) (i : Nat) : (m.land i).1.now = m.now := by
  unfold land
  split <;> simp

/-- The clock is left to what happens by itself. -/
theorem perform_now (m : Machine) (e : Evaluator) (what : Step) :
    (m.perform e what).1.now = m.now := by
  cases what with
  | release =>
    simp only [perform, release]
    split <;> simp
  | abort number =>
    simp only [perform, abort]
    split <;> rfl
  | apply => simp [perform]
  | setInput | setQuery | setOutput =>
    simp only [perform, edit]
    split <;> rfl
  | _ => rfl

/-- No step turns the clock back. -/
theorem le_timeAfter (m : Machine) (what : Step) : m.now ≤ m.timeAfter what := by
  cases what <;> simp [timeAfter]

/-- An apply that begins and ends with nothing in between is one that the worker answers at once. -/
theorem start_release {m : Machine} (hbusy : m.busy = false) (hflights : m.flights = [])
    (origin : Origin) :
    let begun := m.start (builtinEvaluator .gate) origin
    (begun.1.release.1, begun.2 ++ begun.1.release.2) =
      m.start (builtinEvaluator .none) origin := by
  -- The evaluation that begins is the only one, so it is the one that is released.
  simp [start, hbusy, hflights, release, land, Flight.verdict]

end Coordinator.Machine

namespace Session

variable {clock : Nat → Int} {first : Recorder} {s : Session} {a : Account}

/-- What happens at once and what follows it is one happening. -/
theorem follow_follow (s : Session) (after more : Machine × List Happening) :
    ((s.follow after).1.follow more).1 = (s.follow (more.1, after.2 ++ more.2)).1 := by
  simp [follow, records_append]

/-- A step that takes no time is what it performs. -/
theorem act_step (clock : Nat → Int) (s : Session) {what : Machine.Step}
    (hwhat : s.coordinator.timeAfter what = s.coordinator.now) :
    s.act clock (.step what) = s.follow (s.coordinator.perform (s.evaluator .gate) what) := by
  simp only [act, hwhat]
  rw [← Machine.perform_now s.coordinator (s.evaluator .gate) what]

/-- A request with an answer at once, where nothing is in progress. -/
theorem actAll_apply (hevaluator : s.evaluator = builtinEvaluator)
    (hbusy : s.coordinator.busy = false) (hflights : s.coordinator.flights = []) :
    s.actAll clock [.step .apply, .step .release] =
      s.follow (s.coordinator.perform (builtinEvaluator .none) .apply) := by
  have hstart := Machine.start_release
    (m := { s.coordinator with requests := s.coordinator.requests + 1 }) hbusy hflights
    (.request s.coordinator.requests)
  -- The request is counted, and then it begins and ends.
  rw [Machine.perform, ← hstart]
  have hbegin : s.act clock (.step .apply) = _ := act_step clock s rfl
  simp only [actAll, hbegin]
  rw [act_step _ _ rfl]
  simp only [List.append_nil, hevaluator]
  exact Prod.ext (follow_follow _ _ _) rfl

/-- A quiet time that is over, with an answer at once, and then some time that passes. -/
theorem actAll_quiet (hevaluator : s.evaluator = builtinEvaluator)
    (hbusy : s.coordinator.busy = false) (hflights : s.coordinator.flights = [])
    {armed : Armed Unit} (harmed : s.coordinator.debouncer.armed = some armed) (rest : Nat) :
    let time := max s.coordinator.now armed.due
    let after := { s.coordinator with now := time }.happen (builtinEvaluator .none) .quiet
    s.actAll clock [.quiet, .step .release, .step (.advance rest)] =
      s.follow ({ after.1 with now := time + rest }, after.2) := by
  intro time after
  have hstart : _ = after := Machine.start_release
    (m := { s.coordinator with now := time, debouncer := s.coordinator.debouncer.cancel })
    hbusy hflights .auto
  -- What is due after the quiet time is the automatic apply, with its answer at once.
  rw [← hstart]
  simp only [actAll, act, harmed, hevaluator, Machine.perform, Machine.timeAfter]
  refine Prod.ext ?_ (by simp [follow, Machine.happen, time])
  rw [follow_follow, follow_follow]
  simp only [follow, Machine.happen, Machine.start_now, List.append_nil, time]

/-- Where nothing is in progress, what happens by itself up to a time is a run of events. -/
theorem exists_actAll_moveTo (clock : Nat → Int) {sent : List Record}
    (hevaluator : s.evaluator = builtinEvaluator)
    (h : s.coordinator.Follows sent a) {time : Nat} (htime : s.coordinator.now ≤ time) :
    ∃ events, s.actAll clock events =
      s.follow (s.coordinator.moveTo (builtinEvaluator .none) time) := by
  -- With no quiet time, or with one that is not over yet, only the clock moves.
  by_cases hdue : ∃ armed, s.coordinator.debouncer.armed = some armed ∧ armed.due ≤ time
  · obtain ⟨armed, harmed, hle⟩ := hdue
    refine ⟨_, (actAll_quiet hevaluator h.busy_eq h.flights_eq harmed
      (time - max s.coordinator.now armed.due)).trans ?_⟩
    have htotal : max s.coordinator.now armed.due +
        (time - max s.coordinator.now armed.due) = time := by omega
    simp only [Machine.moveTo, Machine.runUntil_of_due h harmed hle, htotal]
  · refine ⟨[.step (.advance (time - s.coordinator.now))], ?_⟩
    have hquiet : s.coordinator.Quiescent time := h.quiescent fun t ht => by
      rw [← h.due_eq] at ht
      obtain ⟨armed, harmed, rfl⟩ := Option.map_eq_some_iff.mp ht
      exact Nat.lt_of_not_le fun hle => hdue ⟨armed, harmed, hle⟩
    rw [Machine.moveTo_of_quiescent _ hquiet]
    simp [actAll, act, Machine.perform, Machine.timeAfter, Nat.add_sub_of_le htime]

/-- What a step says, with an answer at once, is a run of events. -/
theorem exists_actAll_perform (clock : Nat → Int) (hevaluator : s.evaluator = builtinEvaluator)
    (hbusy : s.coordinator.busy = false) (hflights : s.coordinator.flights = [])
    (what : Machine.Step) :
    ∃ events, s.actAll clock events =
      s.follow (s.coordinator.perform (builtinEvaluator .none) what) := by
  -- A step other than a request does not depend on how long the worker takes.
  have hone (hlater : s.coordinator.timeAfter what = s.coordinator.now)
      (hperform : s.coordinator.perform (s.evaluator .gate) what =
        s.coordinator.perform (builtinEvaluator .none) what) :
      s.actAll clock [.step what] =
        s.follow (s.coordinator.perform (builtinEvaluator .none) what) := by
    simp only [actAll, act_step clock s hlater, hperform]
    simp [follow]
  cases what with
  | apply => exact ⟨_, actAll_apply hevaluator hbusy hflights⟩
  | advance time => exact ⟨[], by simp [actAll, follow, Machine.perform, records]⟩
  | _ => exact ⟨_, hone rfl rfl⟩

/-- A step of a session whose worker answers before anything else happens is a run of events. -/
theorem Sound.exists_actAll_send (h : s.Sound clock first a) (clock' : Nat → Int)
    (what : Machine.Step) : ∃ events, s.actAll clock' events = s.send what := by
  -- First the step is performed and then time passes.
  obtain ⟨begun, hbegun⟩ := exists_actAll_perform clock' h.evaluator_eq
    h.follows.busy_eq h.follows.flights_eq what
  let performed := (s.follow (s.coordinator.perform (builtinEvaluator .none) what)).1
  have htime : performed.coordinator.now ≤ s.coordinator.timeAfter what := by
    simpa only [performed, follow, Machine.perform_now] using s.coordinator.le_timeAfter what
  obtain ⟨rest, hrest⟩ := exists_actAll_moveTo (s := performed) clock' h.evaluator_eq
    (Machine.perform_follows h.follows h.now_eq what).1 htime
  -- The events of the two parts, one after the other.
  refine ⟨begun ++ rest, ?_⟩
  obtain ⟨hsession, hhappenings⟩ := actAll_append clock' s begun rest
  rw [hbegun] at hsession hhappenings
  rw [hrest] at hsession hhappenings
  rw [follow_follow] at hsession
  rw [send, h.evaluator_eq]
  exact Prod.ext hsession hhappenings

/-- The recorder takes what is there one by one. -/
theorem actAll_write (clock : Nat → Int) (s : Session) (n : Nat) :
    s.actAll clock (.replicate n .write) = (s.writeMany clock n, []) := by
  induction n generalizing s with
  | zero => rfl
  | succ n ih => simp [List.replicate_succ, actAll, act, ih, writeMany]

/-- So is one whose recorder keeps up as well. -/
theorem Sound.exists_actAll_step (h : s.Sound clock first a) (now : Int) (what : Machine.Step) :
    ∃ events, s.actAll (fun _ => now) events = s.step now what := by
  obtain ⟨events, hevents⟩ := h.exists_actAll_send (fun _ => now) what
  refine ⟨events ++ .replicate ((s.send what).1.sent.length - (s.send what).1.taken) .write, ?_⟩
  obtain ⟨hsession, hhappenings⟩ := actAll_append (fun _ => now) s events
    (.replicate ((s.send what).1.sent.length - (s.send what).1.taken) .write)
  rw [hevents, actAll_write] at hsession hhappenings
  exact Prod.ext hsession (by simpa [step] using hhappenings)

/-! ## §4 What a user sees -/

variable {hs : List Happening} {l : Ledger}

/-- A session keeps to a ledger in everything that a user sees of it: in the view, in the answers, and
in what is left at the place of its history when it is closed. -/
structure Keeps (limits : Limits) (disk : Disk) (clock : Nat → Int) (s : Session)
    (hs : List Happening) (l : Ledger) : Prop where
  /-- The view shows what the ledger says. -/
  view_eq : s.coordinator.view = ⟨l.output, l.error, l.flight.map fun p => p.2.loadingText⟩
  /-- Those who asked for an apply were told what the ledger says. -/
  answers_eq : answers hs = l.answers
  /-- An apply that meets no other one ends as the evaluator answers the inputs of the moment at which
  it was requested, whatever happens until the worker answers. -/
  applied_eq : l.flight = none → ∀ between : List Event,
    (∀ e ∈ between, e ≠ .step .release ∧ ∀ number, e ≠ .step (.abort number)) →
      (answers (hs ++
          (s.actAll clock (.step .apply :: between ++ [.step .release])).2)).getLast? =
        some (l.requests, .ofAnswer (l.inputs.request l.settings.indent).answer)
  /-- An apply that meets another one is dropped, and nothing comes of it. -/
  dropped_eq : l.flight ≠ none →
    answers (s.act clock (.step .apply)).2 = [(l.requests, .dropped)] ∧
      (s.act clock (.step .apply)).1.coordinator.view = s.coordinator.view ∧
      (s.act clock (.step .apply)).1.sent = s.sent
  /-- A failed apply leaves the output as it was. -/
  output_eq : ∀ origin i message, l.flight = some (origin, i) →
    (i.request l.settings.indent).answer = .error message →
      (s.act clock (.step .release)).1.coordinator.view.output = s.coordinator.view.output
  /-- After the session was closed, every operation on its history is refused. -/
  closed_eq : ∀ q, (s.finish clock).close.1.run (s.finish clock).close.2 q =
    (.error (.storeUnavailable Handle.closedReason), (s.finish clock).close)
  /-- Connecting it anew, one finds what was there at the beginning with the texts of the ledger
  put in, each into the table of its own history. Repeating the last one would put nothing in. -/
  reopened_eq : disk.Openable →
    ∃ h d, (s.finish clock).close.1.reconnect (s.finish clock).close.2 = (.ok (), h, d) ∧
      (∀ q, (h.run d q).1 = (d.content.run limits true q).1) ∧
      (∀ kind, d.content.table kind =
        (disk.content.table kind).enterEach limits
          (Record.forKind kind (Record.stamp clock l.finish.texts))) ∧
      (disk.content.Distinct → ∀ kind x later,
        (Record.forKind kind (Record.stamp clock l.finish.texts)).getLast? = some x →
          (d.content.table kind).enter limits later x.2 = d.content.table kind)
  /-- Where the place cannot be opened, nothing was recorded and nothing is changed. -/
  obstructed_eq : ∀ reason, disk.found = .obstacle reason →
    (s.finish clock).recorder.events = [] ∧ (s.finish clock).close.2 = disk ∧
      ((s.finish clock).close.1.reconnect (s.finish clock).close.2).1 =
        .error (.storeUnavailable reason)

/-- The view of a session that has come to a ledger. -/
theorem Runs.view (h : s.Runs clock first hs l) :
    s.coordinator.view = ⟨l.output, l.error, l.flight.map fun p => p.2.loadingText⟩ := by
  have hflies := h.mirrors.flies
  have hloading : s.coordinator.view.loading = l.flight.map fun p => p.2.loadingText := by
    -- The view tells of the apply in progress, and of none if there is none.
    cases hflight : l.flight with
    | none =>
      rw [hflight] at hflies
      exact hflies.2.2
    | some p =>
      rw [hflight] at hflies
      obtain ⟨f, -, -, -, -, -, -, hloading⟩ := hflies
      exact hloading
  rw [← h.mirrors.output_eq, ← h.mirrors.error_eq, ← hloading]

/-- A request that meets another apply is dropped, and nothing else comes of it. -/
theorem Runs.dropped (h : s.Runs clock first hs l) (hflight : l.flight ≠ none) :
    answers (s.act clock (.step .apply)).2 = [(l.requests, .dropped)] ∧
      (s.act clock (.step .apply)).1.coordinator.view = s.coordinator.view ∧
      (s.act clock (.step .apply)).1.sent = s.sent := by
  have hnext := act_runs h (.step .apply)
  -- The ledger only answers, so the rest of it is as it was.
  have hledger : l.act (.step .apply) =
      { l with requests := l.requests + 1, answers := l.answers ++ [(l.requests, .dropped)] } := by
    obtain ⟨p, hp⟩ := Option.ne_none_iff_exists'.mp hflight
    simp [Ledger.act, Ledger.step, Ledger.ask, hp, Ledger.tell]
  rw [hledger] at hnext
  refine ⟨?_, ?_, ?_⟩
  · have hall := hnext.mirrors.answers_eq
    rw [answers_append, h.mirrors.answers_eq] at hall
    exact List.append_cancel_left hall
  · rw [hnext.view, h.view]
    rfl
  · rw [hnext.mirrors.texts_eq, h.mirrors.texts_eq]
    rfl

end Session

end QueryPlayground
