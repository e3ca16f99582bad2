import QueryPlayground.Proofs.Coordinator.Moments
import QueryPlayground.Proofs.Coordinator.SingleFlight

/-!
# The deadline of an evaluation

An apply that has started takes its course. It ends with what the evaluator says if the evaluator is
done before its deadline is noticed. Otherwise the evaluation is cancelled at the deadline, and once
the evaluator lets go, whenever that is and whatever it says, the apply fails for having taken too
long. Until then others are turned away, and afterwards the next one may start.

Main statement: `Machine.moments_deadlines`.
-/

namespace QueryPlayground.Coordinator

/-! ## §1 Courses -/

/-- An apply that has started. -/
structure Course where
  /-- Who asked for it. -/
  origin : Origin
  /-- The inputs when it started. -/
  inputs : Inputs
  /-- When it started. -/
  time : Nat
  /-- What the evaluator does with the request. -/
  behaviour : Behaviour

namespace Course

/-- When the evaluation ends by itself. -/
def ending (c : Course) : Ending :=
  match c.behaviour.wait with
  | .none => .at_ c.time
  | .gate => .release
  | .time d => .at_ (c.time + d)

/-- The evaluation in progress, with the time that it is allowed. -/
def flight (c : Course) (allowed : Nat) (cancelled : Bool) : Flight where
  origin := c.origin
  inputs := c.inputs
  ending := c.ending
  deadline := if cancelled then none else some (c.time + allowed)
  timedOut := if cancelled then some allowed else none
  stubborn := c.behaviour.stubborn
  result := c.behaviour.result

/-- The evaluation is in progress in a machine, cancelled or not. -/
structure InProgress (c : Course) (allowed : Nat) (cancelled : Bool) (m : Machine) : Prop where
  flights_eq : m.flights = [c.flight allowed cancelled]
  phase_eq : m.phase = .applying
  loading_eq :
    m.view.loading = some (if cancelled then cancellingText else c.inputs.loadingText)
  /-- What is cancelled was in progress at the deadline, and goes on. -/
  late : cancelled = true →
    c.behaviour.stubborn = true ∧ c.time + allowed ≤ m.now ∧
      ∀ t, c.ending = .at_ t → c.time + allowed < t

/-- The evaluation is in progress, and neither its end nor its deadline has come. -/
structure Waits (c : Course) (allowed : Nat) (cancelled : Bool) (m : Machine) : Prop extends
    c.InProgress allowed cancelled m where
  before_end : ∀ t, c.ending = .at_ t → m.now < t
  before_deadline : cancelled = false → m.now < c.time + allowed

end Course

/-! ## §2 Moments of a course -/

/-- The evaluator is done at a moment: it is time, or it is released. -/
def Moment.Returns (p : Moment) (c : Course) : Prop :=
  p.cause = .due (.landing 0) ∧ c.ending = .at_ p.machine.now ∨
    p.cause = .step .release ∧ c.ending = .release

/-- What is shown once an apply has ended. A failure leaves the output as it is. -/
def View.settle (v : View) : Except Error Document → View
  | .ok d => ⟨some d, none, none⟩
  | .error e => ⟨v.output, some e.message, none⟩

/-- What happens when an apply ends. A failure records nothing. -/
def Course.told (c : Course) (records : Bool) : Except Error Document → List Happening
  | .ok d =>
    (if records then [.recorded c.inputs.query.kind.historyKind c.inputs.query.content] else []) ++
      Machine.report c.origin (.applied d)
  | .error e => Machine.report c.origin (.failed e.message)

/-- An apply ends at a moment, after something else has happened. -/
structure Moment.Concludes (p : Moment) (c : Course) (result : Except Error Document)
    (before : List Happening) : Prop where
  phase_eq : p.after.1.phase = .idle
  flights_eq : p.after.1.flights = []
  view_eq : p.after.1.view = p.machine.view.settle result
  happens : p.after.2 = before ++ c.told p.machine.records result

/-- What happens at a moment while an apply is in progress: whoever asks for another one is turned
away. -/
def Moment.dropped (p : Moment) : List Happening :=
  match p.asks? with
  | some origin => Machine.report origin .dropped
  | none => []

/-- An apply stays in progress at a moment, and nothing is shown or recorded. -/
structure Moment.Passes (p : Moment) : Prop where
  view_eq : p.after.1.view = p.machine.view
  happens : p.after.2 = p.dropped

namespace Course

/-- How an apply comes to its end at a moment. -/
inductive Ends (c : Course) (allowed : Nat) : Bool → Moment → Prop where
  /-- The evaluator is done in time. -/
  | settled {p : Moment} (hprogress : c.InProgress allowed false p.machine) (hreturns : p.Returns c)
      (hle : p.machine.now ≤ c.time + allowed) (h : p.Concludes c c.behaviour.result []) :
      Ends c allowed false p
  /-- It is not done at the deadline, and lets go at once when it is cancelled. -/
  | yielded {p : Moment} (hprogress : c.InProgress allowed false p.machine)
      (hcause : p.cause = .due (.expiry 0)) (heq : p.machine.now = c.time + allowed)
      (hlate : ∀ t, c.ending = .at_ t → c.time + allowed < t)
      (hyields : c.behaviour.stubborn = false)
      (h : p.Concludes c (.error (timeoutError allowed)) []) : Ends c allowed false p
  /-- It was cancelled at the deadline, and is done. -/
  | returned {p : Moment} (hprogress : c.InProgress allowed true p.machine) (hreturns : p.Returns c)
      (h : p.Concludes c (.error (timeoutError allowed)) []) : Ends c allowed true p
  /-- Whoever asked for it gives it up. -/
  | aborted {p : Moment} {cancelled : Bool} {number : Nat}
      (hwaits : c.Waits allowed cancelled p.machine) (hcause : p.cause = .step (.abort number))
      (horigin : c.origin = .request number) (hphase : p.after.1.phase = .idle)
      (hview : p.after.1.view = p.machine.view.showLoading none) (hhappens : p.after.2 = []) :
      Ends c allowed cancelled p

/-- An evaluation is not done at its deadline, and goes on when it is cancelled. -/
structure Cancels (c : Course) (allowed : Nat) (p : Moment) : Prop where
  progress : c.InProgress allowed false p.machine
  cause_eq : p.cause = .due (.expiry 0)
  now_eq : p.machine.now = c.time + allowed
  view_eq : p.after.1.view = p.machine.view.showLoading (some cancellingText)
  happens : p.after.2 = []

/-- How an apply goes on over the moments that follow, until the last machine of the run. -/
inductive Goes (c : Course) (allowed : Nat) (last : Machine) : Bool → List Moment → Prop where
  /-- It is still in progress when the run is over. -/
  | lasts {cancelled : Bool} (hwaits : c.Waits allowed cancelled last) :
      Goes c allowed last cancelled []
  /-- Something else is done or happens. -/
  | passes {cancelled : Bool} {p : Moment} {later : List Moment}
      (hwaits : c.Waits allowed cancelled p.machine) (hpasses : p.Passes)
      (hlater : Goes c allowed last cancelled later) : Goes c allowed last cancelled (p :: later)
  /-- Its evaluation is cancelled. -/
  | cancelled {p : Moment} {later : List Moment} (hcancels : c.Cancels allowed p)
      (hlater : Goes c allowed last true later) : Goes c allowed last false (p :: later)
  /-- It comes to its end. -/
  | ends {cancelled : Bool} {p : Moment} {later : List Moment}
      (hends : c.Ends allowed cancelled p) : Goes c allowed last cancelled (p :: later)

/-- What happens when an apply starts. -/
def begun (c : Course) (indent : Nat) : List Happening :=
  [.started c.origin c.time c.inputs,
    .called (c.inputs.request indent) (some c.inputs.loadingText)]

/-- How an apply goes that starts at a moment. -/
inductive Takes (c : Course) (indent allowed : Nat) (last : Machine) (p : Moment)
    (later : List Moment) : Prop where
  /-- Who answers at once leaves no time in which a deadline could pass. -/
  | atOnce (hwait : c.behaviour.wait = .none ∨ c.behaviour.wait = .time 0)
      (h : p.Concludes c c.behaviour.result (c.begun indent)) : Takes c indent allowed last p later
  /-- It goes on over the moments that follow. -/
  | overTime (hwait : c.behaviour.wait = .gate ∨ ∃ d, 0 < d ∧ c.behaviour.wait = .time d)
      (hbegun : p.after.2 = c.begun indent)
      (hview : p.after.1.view = p.machine.view.showLoading (some c.inputs.loadingText))
      (hgoes : c.Goes allowed last false later) : Takes c indent allowed last p later

end Course

/-! ## §3 What a moment does to an apply in progress -/

namespace Course

variable {c : Course} {allowed : Nat} {cancelled : Bool} {m : Machine}

/-- Only an evaluation that ends by itself has a time at which it is due. -/
theorem landing?_flight (c : Course) (allowed : Nat) (cancelled : Bool) (t : Nat) :
    (c.flight allowed cancelled).landing? = some t ↔ c.ending = .at_ t := by
  simp only [Flight.landing?, flight]
  cases c.ending <;> simp

/-- An evaluation in progress plans its end and, until it is cancelled, its deadline. -/
theorem InProgress.plans (h : c.InProgress allowed cancelled m) {t : Nat}
    (ht : c.ending = .at_ t ∨ cancelled = false ∧ c.time + allowed = t) : m.Plans t := by
  have hmem : c.flight allowed cancelled ∈ m.flights := by
    rw [h.flights_eq]
    exact List.mem_singleton_self _
  refine .inl ⟨_, hmem, ?_⟩
  rcases ht with ht | ⟨rfl, rfl⟩
  · exact .inl ((c.landing?_flight allowed cancelled t).mpr ht)
  · exact .inr rfl

/-- Where nothing is due any more, neither the end nor the deadline of an evaluation has come. -/
theorem InProgress.waits (h : c.InProgress allowed cancelled m) (hq : m.Quiescent m.now) :
    c.Waits allowed cancelled m :=
  ⟨h, fun _ ht => hq.lt_of_plans (h.plans (.inl ht)),
    fun hcancelled => hq.lt_of_plans (h.plans (.inr ⟨hcancelled, rfl⟩))⟩

/-- The clock and whatever is entered meanwhile is of no concern. -/
theorem InProgress.anyway (h : c.InProgress allowed cancelled m) {now : Nat} (hle : m.now ≤ now)
    (inputs : Inputs) (debouncer : Debouncer Unit) (requests : Nat) :
    c.InProgress allowed cancelled
      { m with now := now, inputs := inputs, debouncer := debouncer, requests := requests } := by
  refine ⟨h.flights_eq, h.phase_eq, h.loading_eq, fun hcancelled => ?_⟩
  obtain ⟨hstubborn, hdeadline, hend⟩ := h.late hcancelled
  exact ⟨hstubborn, Nat.le_trans hdeadline hle, hend⟩

end Course

/-! ## §4 Ends -/

/-- The message about an evaluation that took too long names the time that it was allowed. -/
theorem message_timeoutError (allowed : Nat) :
    (timeoutError allowed).message = "Evaluation timed out after " ++ toString allowed ++ "ms" := by
  have hmessage : (timeoutError allowed).message =
      "Evaluation timed out after " ++ toString (allowed * 1000 / 1000) ++ "ms" := rfl
  rw [hmessage, Nat.mul_div_cancel allowed (by omega)]

/-- An apply that is concluded is over. -/
theorem concludes_of_conclude {p : Moment} {m : Machine} (c : Course)
    {result : Except Error Document} {before : List Happening} (hflights : m.flights = [])
    (hrecords : m.records = p.machine.records) (houtput : m.view.output = p.machine.view.output)
    (hafter : p.after =
      ((m.conclude c.origin c.inputs result).1,
        before ++ (m.conclude c.origin c.inputs result).2)) :
    p.Concludes c result before := by
  -- What is shown comes from the result alone, but for the output that a failure leaves standing.
  cases result with
  | ok d =>
    refine ⟨?_, ?_, ?_, ?_⟩
    all_goals rw [hafter]
    · rfl
    · exact hflights
    · rfl
    · simp only [Machine.conclude, hrecords, Course.told]
  | error e =>
    refine ⟨?_, ?_, ?_, ?_⟩
    all_goals rw [hafter]
    · rfl
    · exact hflights
    · rw [View.settle, ← houtput]
      rfl
    · rfl

namespace Course

variable {c : Course} {allowed : Nat} {cancelled : Bool} {m : Machine}

/-- An evaluation in progress ends with its verdict. -/
theorem concludes_of_land {p : Moment} (hflights : m.flights = [c.flight allowed cancelled])
    (hrecords : m.records = p.machine.records) (houtput : m.view.output = p.machine.view.output)
    (hafter : p.after = m.land 0) : p.Concludes c (c.flight allowed cancelled).verdict [] := by
  have hland : m.land 0 =
      -- There is no other evaluation that could land.
      { m with flights := [] }.conclude c.origin c.inputs (c.flight allowed cancelled).verdict := by
    simp [Machine.land, hflights, flight]
  refine concludes_of_conclude (m := { m with flights := [] }) c rfl hrecords houtput ?_
  rw [hafter, hland, List.nil_append]

/-- Once the evaluator is done the apply ends: as it says, or late. -/
theorem InProgress.ends_of_land {p : Moment} (h : c.InProgress allowed cancelled p.machine)
    (hreturns : p.Returns c)
    (hle : cancelled = false → p.machine.now ≤ c.time + allowed)
    (hafter : p.after = p.machine.land 0) : c.Ends allowed cancelled p := by
  have hconcludes := concludes_of_land h.flights_eq rfl rfl hafter
  cases cancelled with
  | false => exact .settled h hreturns (hle rfl) hconcludes
  | true => exact .returned h hreturns hconcludes

/-! ## §5 Steps -/

/-- Where an apply in progress is passed by, it stays in progress. -/
structure Stays (c : Course) (allowed : Nat) (cancelled : Bool) (p : Moment) : Prop extends
    p.Passes where
  after : c.InProgress allowed cancelled p.after.1

/-- What is entered is of no concern to an apply in progress. -/
theorem InProgress.edit (h : c.InProgress allowed cancelled m) (f : Inputs → Inputs) :
    c.InProgress allowed cancelled (m.edit f) ∧ (m.edit f).view = m.view := by
  unfold Machine.edit
  dsimp only
  split
  next => exact ⟨h.anyway (Nat.le_refl _) _ _ _, rfl⟩
  next => exact ⟨h.anyway (Nat.le_refl _) _ _ _, rfl⟩

/-- A step at which nothing happens passes an apply in progress by. -/
theorem stays_of_perform {m' : Machine} {evaluator : Evaluator} {s : Machine.Step}
    (hperform : m.perform evaluator s = (m', []))
    (hasks : Moment.asks? ⟨m, evaluator, .step s⟩ = none) (hview : m'.view = m.view)
    (hafter : c.InProgress allowed cancelled m') :
    c.Stays allowed cancelled ⟨m, evaluator, .step s⟩ := by
  refine ⟨⟨?_, ?_⟩, ?_⟩
  all_goals rw [Moment.after_step, hperform]
  · exact hview
  · rw [Moment.dropped, hasks]
  · exact hafter

/-- A step passes an apply in progress by, or ends it. -/
theorem Waits.step (h : c.Waits allowed cancelled m) (evaluator : Evaluator) (s : Machine.Step) :
    c.Stays allowed cancelled ⟨m, evaluator, .step s⟩ ∨
      c.Ends allowed cancelled ⟨m, evaluator, .step s⟩ := by
  have hsame : c.InProgress allowed cancelled m := h.toInProgress
  cases s with
  | setInput d | setQuery d | setOutput kind =>
    obtain ⟨hafter, hview⟩ := hsame.edit _
    exact .inl (stays_of_perform rfl rfl hview hafter)
  | apply =>
    -- Who asks for another one is turned away.
    have hafter : Moment.after ⟨m, evaluator, .step .apply⟩ = _ :=
      Moment.after_of_applying rfl hsame.phase_eq
    refine .inl ⟨⟨by rw [hafter]; rfl, by rw [hafter]; rfl⟩, ?_⟩
    rw [hafter]
    exact hsame.anyway (Nat.le_refl _) _ _ _
  | advance time => exact .inl (stays_of_perform rfl rfl rfl hsame)
  | release =>
    -- Only an evaluation that waits to be released ends with the release.
    by_cases hrelease : c.ending = .release
    · refine .inr (hsame.ends_of_land (.inr ⟨rfl, hrelease⟩) ?_ ?_)
      · exact fun hcancelled => Nat.le_of_lt (h.before_deadline hcancelled)
      · simp [Machine.perform, Machine.release, h.flights_eq, flight, hrelease]
    · have hnone : m.perform evaluator .release = (m, []) := by
        simp [Machine.perform, Machine.release, h.flights_eq, flight, hrelease]
      exact .inl (stays_of_perform hnone rfl rfl hsame)
  | cancelPending =>
    exact .inl (stays_of_perform rfl rfl rfl (hsame.anyway (Nat.le_refl _) _ _ _))
  | abort number =>
    -- Only an apply that was requested under the number is given up.
    by_cases horigin : c.origin = .request number
    · have hafter : m.perform evaluator (.abort number) = ({ m with flights := [] }.free, []) := by
        simp [Machine.perform, Machine.abort, h.flights_eq, flight, horigin]
      refine .inr (.aborted h rfl horigin ?_ ?_ ?_)
      all_goals rw [Moment.after_step, hafter]
      · rfl
      · rfl
    · have hnone : m.perform evaluator (.abort number) = (m, []) := by
        simp [Machine.perform, Machine.abort, h.flights_eq, flight, horigin]
      exact .inl (stays_of_perform hnone rfl rfl hsame)
  | look => exact .inl (stays_of_perform rfl rfl rfl hsame)

end Course

/-! ## §6 What is due -/

namespace Machine

/-- The second one of two things is the sooner one only if it comes before the first one. -/
theorem sooner_lt {a b : Option (Nat × Due)} {p q : Nat × Due} (h : sooner a b = some p)
    (ha : a = some q) (hne : p ≠ q) : p.1 < q.1 := by
  subst ha
  cases b with
  | none => exact absurd (Option.some.inj h).symm hne
  | some b =>
    simp only [sooner] at h
    split at h
    next => exact absurd (Option.some.inj h).symm hne
    next hlt =>
      obtain rfl := Option.some.inj h
      exact Nat.lt_of_not_le hlt

/-- A quiet time is over before anything happens to an evaluation. -/
theorem lt_of_next?_quiet {m : Machine} {t : Nat} (h : m.next? = some (t, .quiet)) {f : Flight}
    (hf : f ∈ m.flights) {t' : Nat} (ht' : f.landing? = some t' ∨ f.deadline = some t') :
    t < t' := by
  obtain ⟨q, hq, hle⟩ := exists_nextOf? hf ht' 0
  -- What an evaluation plans is never the end of a quiet time.
  have hne : (t, .quiet) ≠ q := by
    rintro rfl
    obtain ⟨j, g, -, ⟨-, hdue⟩ | ⟨-, hdue⟩⟩ := nextOf?_cases hq
    · cases hdue
    · cases hdue
  exact Nat.lt_of_lt_of_le (sooner_lt h hq hne) hle

/-- An evaluation takes too long only before its end. -/
theorem lt_of_next?_expiry {m : Machine} {t : Nat} (h : m.next? = some (t, .expiry 0)) {f : Flight}
    (hflights : m.flights = [f]) {t' : Nat} (ht' : f.landing? = some t') : t < t' := by
  -- The sooner one of two things is the first one only if the evaluation plans it before the end.
  have hnext : nextOf? m.flights 0 = some (t, .expiry 0) := by
    rcases (sooner_spec h).1 with h | h
    · exact h
    · obtain ⟨a, -, heq⟩ := Option.map_eq_some_iff.mp h
      cases heq
  rw [hflights] at hnext
  have hfirst := (sooner_spec hnext).1.resolve_right (by simp [nextOf?])
  exact sooner_lt hfirst (q := (t', .landing 0)) (by rw [ht']; rfl) (by simp)

end Machine

namespace Course

variable {c : Course} {allowed : Nat} {cancelled : Bool} {m : Machine}

/-- What is due passes an apply in progress by, ends it, or is its deadline. -/
theorem InProgress.due (h : c.InProgress allowed cancelled m)
    (hallowed : m.settings.timeout = some allowed) {d : Machine.Due}
    (hnext : m.next? = some (m.now, d)) (evaluator : Evaluator) :
    let p : Moment := ⟨m, evaluator, .due d⟩
    c.Waits allowed cancelled m ∧ c.Stays allowed cancelled p ∨ c.Ends allowed cancelled p ∨
      cancelled = false ∧ c.Cancels allowed p ∧ c.InProgress allowed true p.after.1 := by
  intro p
  -- There is one evaluation in progress, so all that is due to one is due to it.
  have hmem : c.flight allowed cancelled ∈ m.flights := by simp [h.flights_eq]
  have hone {i : Nat} {f : Flight} (hf : m.flights[i]? = some f) :
      i = 0 ∧ f = c.flight allowed cancelled := by
    rw [h.flights_eq] at hf
    cases i <;> simp_all
  rcases Machine.next?_cases hnext with ⟨i, f, hf, ht, rfl⟩ | ⟨i, f, hf, ht, rfl⟩ | ⟨a, -, -, rfl⟩
  · -- The evaluator is done.
    obtain ⟨rfl, rfl⟩ := hone hf
    have hend := (c.landing?_flight allowed cancelled m.now).mp ht
    refine .inr (.inl (h.ends_of_land (.inl ⟨rfl, hend⟩) (fun hcancelled => ?_) rfl))
    exact Machine.le_of_plans hnext (h.plans (.inr ⟨hcancelled, rfl⟩))
  · -- The deadline has come, which happens only to an evaluation that is not cancelled yet.
    obtain ⟨rfl, rfl⟩ := hone hf
    cases cancelled with
    | true => cases ht
    | false =>
      have hnow : m.now = c.time + allowed := (Option.some.inj ht).symm
      have hlate (t : Nat) (ht' : c.ending = .at_ t) : c.time + allowed < t :=
        hnow ▸ Machine.lt_of_next?_expiry hnext h.flights_eq
          ((c.landing?_flight allowed false t).mpr ht')
      let m' : Machine :=
        { m with
          flights := [c.flight allowed true], view := m.view.showLoading (some cancellingText) }
      have hafter : p.after = if c.behaviour.stubborn then (m', []) else m'.land 0 := by
        simp [p, m', Machine.happen, Machine.expire, h.flights_eq, flight, hallowed]
      cases hstubborn : c.behaviour.stubborn with
      | true =>
        rw [hstubborn, if_pos rfl] at hafter
        refine .inr (.inr ⟨rfl, ⟨h, rfl, hnow, by rw [hafter], by rw [hafter]⟩, ?_⟩)
        rw [hafter]
        exact ⟨rfl, h.phase_eq, rfl, fun _ => ⟨hstubborn, Nat.le_of_eq hnow.symm, hlate⟩⟩
      | false =>
        rw [hstubborn, if_neg Bool.false_ne_true] at hafter
        have hconcludes : p.Concludes c _ [] := concludes_of_land (m := m') rfl rfl rfl hafter
        exact .inr (.inl (.yielded h rfl hnow hlate hstubborn hconcludes))
  · -- A quiet time is over, and whoever waited for that is turned away.
    have hlt {t : Nat} (ht : (c.flight allowed cancelled).landing? = some t ∨
        (c.flight allowed cancelled).deadline = some t) : m.now < t :=
      Machine.lt_of_next?_quiet hnext hmem ht
    have hafter : p.after = (p.asked, _) := Moment.after_of_applying rfl h.phase_eq
    refine .inl ⟨⟨h, fun t ht => hlt (.inl ((c.landing?_flight _ _ t).mpr ht)), ?_⟩, ⟨?_, ?_⟩, ?_⟩
    · rintro rfl
      exact hlt (.inr rfl)
    all_goals rw [hafter]
    · rfl
    · rfl
    · exact h.anyway (Nat.le_refl _) _ _ _

/-! ## §7 Courses of a run -/

/-- An apply in progress takes its course over the moments that follow. -/
theorem InProgress.goes {last : Machine} {ps : List Moment} (hchain : m.Chain ps last)
    (hlast : last.Quiescent last.now) (h : c.InProgress allowed cancelled m)
    (hallowed : m.settings.timeout = some allowed) : c.Goes allowed last cancelled ps := by
  -- By induction on the chain. A step finds the apply waiting, as nothing is due then; what is due
  -- finds it in progress, and may be its end or its deadline.
  induction hchain generalizing cancelled with
  | rest m => exact .lasts (h.waits hlast)
  | clock hle hq _ ih => exact ih hlast (h.anyway hle _ _ _) hallowed
  | @step m last ps evaluator s hq _ ih =>
    have hwaits := h.waits hq
    rcases hwaits.step evaluator s with hstays | hends
    · refine .passes hwaits hstays.toPasses (ih hlast hstays.after ?_)
      rw [(Machine.perform_continues m evaluator s).settings_eq]
      exact hallowed
    · exact .ends hends
  | @due m last ps evaluator t d hnext hle _ ih =>
    have hsettings := (Machine.happen_continues { m with now := t } evaluator d).settings_eq
    have hallowed' :
        ({ m with now := t }.happen evaluator d).1.settings.timeout = some allowed := by
      rw [hsettings]
      exact hallowed
    have hclock : c.InProgress allowed cancelled { m with now := t } := h.anyway hle _ _ _
    rcases hclock.due hallowed hnext evaluator with
      ⟨hwaits, hstays⟩ | hends | ⟨rfl, hcancels, hafter⟩
    · exact .passes hwaits hstays.toPasses (ih hlast hstays.after hallowed')
    · exact .ends hends
    · exact .cancelled hcancels (ih hlast hafter hallowed')

end Course

/-! ## §8 Starts -/

namespace Machine

/-- The course of an apply that starts now. -/
def course (m : Machine) (evaluator : Evaluator) (origin : Origin) : Course :=
  ⟨origin, m.inputs, m.now, evaluator (m.inputs.request m.settings.indent)⟩

variable {m : Machine} (evaluator : Evaluator) (origin : Origin)

/-- Where the evaluator answers at once, an apply ends as soon as it has started. -/
theorem start_of_atOnce (hbusy : m.busy = false)
    (hwait : (m.course evaluator origin).behaviour.wait = .none ∨
      (m.course evaluator origin).behaviour.wait = .time 0) :
    let c := m.course evaluator origin
    let m' := { m with busy := true, view := m.view.showLoading (some c.inputs.loadingText) }
    let after := m'.conclude c.origin c.inputs c.behaviour.result
    m.start evaluator origin = (after.1, c.begun m.settings.indent ++ after.2) := by
  intro c m' after
  rcases hwait with hwait | hwait
  all_goals
    have hwait : (evaluator (m.inputs.request m.settings.indent)).wait = _ := hwait
    simp [start, hbusy, hwait, c, m', after, course, Course.begun]

/-- Where the evaluator takes its time, an apply that starts is in progress. -/
theorem start_of_overTime (hbusy : m.busy = false) (hflights : m.flights = []) {allowed : Nat}
    (hallowed : m.settings.timeout = some allowed)
    (hwait : (m.course evaluator origin).behaviour.wait = .gate ∨
      ∃ d, 0 < d ∧ (m.course evaluator origin).behaviour.wait = .time d) :
    let c := m.course evaluator origin
    m.start evaluator origin =
      ({ m with
          busy := true, view := m.view.showLoading (some c.inputs.loadingText)
          flights := [c.flight allowed false] },
        c.begun m.settings.indent) := by
  intro c
  -- What starts is the evaluation of the course, as its end is computed from the same answer.
  have hflight (ending : Ending) (hending : c.ending = ending) : c.flight allowed false =
      { origin := origin, inputs := m.inputs, ending := ending
        deadline := some (m.now + allowed), timedOut := none
        stubborn := c.behaviour.stubborn, result := c.behaviour.result } := by
    rw [Course.flight, hending]
    rfl
  rcases hwait with hwait | ⟨d, hpos, hwait⟩
  · rw [hflight .release (by rw [Course.ending, hwait])]
    have hwait : (evaluator (m.inputs.request m.settings.indent)).wait = _ := hwait
    simp [start, hbusy, hflights, hallowed, hwait, c, course, Course.begun]
  · rw [hflight (.at_ (m.now + d)) (by rw [Course.ending, hwait]; rfl)]
    have hwait : (evaluator (m.inputs.request m.settings.indent)).wait = _ := hwait
    -- Time that is not nothing is what tells this case from an answer at once.
    obtain ⟨d, rfl⟩ := Nat.exists_eq_succ_of_ne_zero (Nat.ne_of_gt hpos)
    simp [start, hbusy, hflights, hallowed, hwait, c, course, Course.begun]

end Machine

/-- The course of an apply that starts at a moment. -/
def Moment.course (p : Moment) (origin : Origin) : Course :=
  p.machine.course p.evaluator origin

/-- At a moment at which an apply starts, it starts with its course. -/
theorem Moment.takes {p : Moment} {later : List Moment} {last : Machine} {settings : Settings}
    {allowed : Nat} {origin : Origin} (hfinds : p.Finds settings)
    (hchain : p.after.1.Chain later last) (hlast : last.Quiescent last.now)
    (hallowed : settings.timeout = some allowed) (hasks : p.asks? = some origin)
    (hidle : p.machine.phase = .idle) :
    (p.course origin).Takes settings.indent allowed last p later := by
  obtain rfl := hfinds.settings_eq
  have hbusy := Machine.phase_eq_idle.mp hidle
  obtain ⟨r, htracks⟩ := hfinds.readable
  -- Nothing is in progress where a machine is idle.
  have hflights : p.machine.flights = [] := by
    have hprogress := htracks.progress_of_busy
    rw [hbusy] at hprogress
    exact hprogress.2
  have hafter := after_of_asks hasks
  -- What asking changes is of no concern to the course.
  obtain ⟨hsettings, hrecords, hnow, hinputs, hview, hbusy', hflights'⟩ := p.asked_frame
  have hcourse : p.asked.course p.evaluator origin = p.course origin := by
    simp only [course, Machine.course, hsettings, hnow, hinputs]
  have hwait : ((p.course origin).behaviour.wait = .none ∨
        (p.course origin).behaviour.wait = .time 0) ∨
      ((p.course origin).behaviour.wait = .gate ∨
        ∃ d, 0 < d ∧ (p.course origin).behaviour.wait = .time d) := by
    -- An evaluator answers at once or it takes its time.
    rcases (p.course origin).behaviour.wait with _ | _ | _ | d <;> simp
  rw [hbusy] at hbusy'
  rw [hflights] at hflights'
  rcases hwait with hwait | hwait
  · have hstart :=
      Machine.start_of_atOnce (m := p.asked) p.evaluator origin hbusy' (hcourse ▸ hwait)
    rw [hcourse, ← hafter, hsettings] at hstart
    refine .atOnce hwait (concludes_of_conclude (p.course origin) ?_ ?_ ?_ hstart)
    · exact hflights'
    · exact hrecords
    · exact show p.asked.view.output = _ by rw [hview]
  · have hstart :=
      Machine.start_of_overTime (m := p.asked) p.evaluator origin hbusy' hflights'
        (hsettings ▸ hallowed) (hcourse ▸ hwait)
    rw [hcourse, ← hafter, hsettings, hview] at hstart
    refine .overTime hwait (by rw [hstart]) (by rw [hstart]) ?_
    refine Course.InProgress.goes hchain hlast ?_ (by rw [hstart]; exact hsettings ▸ hallowed)
    rw [hstart]
    exact ⟨rfl, rfl, rfl, nofun⟩

namespace Machine

/-- With a deadline for evaluations, every apply of a run that starts takes its course, whatever the
inputs and the evaluator are: it ends as the evaluator says if that is done before the deadline is
noticed, and otherwise it is cancelled at the deadline and fails once the evaluator lets go. -/
theorem moments_deadlines (settings : Settings) (records : Bool) {allowed : Nat}
    (hallowed : settings.timeout = some allowed) (run : List (Evaluator × Step))
    {before later : List Moment} {p : Moment} {origin : Origin}
    (hsplit : (new settings records).moments run = before ++ p :: later)
    (hasks : p.asks? = some origin) (hidle : p.machine.phase = .idle) :
    (p.course origin).Takes settings.indent allowed ((new settings records).stepAll run).1 p later ∧
      (timeoutError allowed).message =
        "Evaluation timed out after " ++ toString allowed ++ "ms" := by
  have hnew := tracks_new settings records
  have hquiet := new_quiescent settings records (new settings records).now
  have hchain := moments_chain hnew hquiet run
  rw [hsplit] at hchain
  obtain ⟨hfinds, hlater⟩ := hchain.split hnew
  have hlast := stepAll_quiescent hnew hquiet run
  exact ⟨Moment.takes hfinds hlater hlast hallowed hasks hidle, message_timeoutError allowed⟩

/-- An evaluator that is released only after its deadline, and then has an output. Meanwhile a quiet
time is over. -/
theorem moments_deadlines_late_success :
    let settings : Settings := ⟨true, 10, 0, some 100⟩
    let evaluator : Evaluator := fun _ => ⟨.gate, true, .ok ⟨"1", .json⟩⟩
    let m := new settings true
    let run : List (Evaluator × Step) :=
      [(evaluator, .setQuery ⟨"[0]", .query⟩), (evaluator, .apply), (evaluator, .advance 150),
        (evaluator, .release)]
    ∃ before p later, m.moments run = before ++ p :: later ∧ settings.timeout = some 100 ∧
      p.asks? = some (.request 0) ∧ p.machine.phase = .idle ∧
      later.map (·.cause) =
        [.step (.advance 150), .due .quiet, .due (.expiry 0), .step .release] ∧
      (p.course (.request 0)).Takes 0 100 (m.stepAll run).1 p later := by
  intro settings evaluator m run
  -- The apply is the second moment of the run, after the query is entered.
  have hlength : 1 < (m.moments run).length := by decide
  have hsplit : m.moments run =
      (m.moments run).take 1 ++ (m.moments run)[1] :: (m.moments run).drop 2 := by
    rw [← List.drop_eq_getElem_cons, List.take_append_drop]
  have hasks : (m.moments run)[1].asks? = some (.request 0) := rfl
  have hidle : (m.moments run)[1].machine.phase = .idle := rfl
  have hcauses : ((m.moments run).drop 2).map (·.cause) =
      [.step (.advance 150), .due .quiet, .due (.expiry 0), .step .release] := by decide
  exact ⟨_, _, _, hsplit, rfl, hasks, hidle, hcauses,
    (moments_deadlines settings true rfl run hsplit hasks hidle).1⟩

end Machine

end QueryPlayground.Coordinator
