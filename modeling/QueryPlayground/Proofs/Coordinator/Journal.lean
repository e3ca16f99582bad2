import QueryPlayground.Coordinator.Machine

/-!
# Journals of a coordinator

A run leaves a journal: every step with what happened in it. A journal can be read without the
machine. A `Reading` follows the inputs through the edits, puts the start and the end of each apply
together, and refuses a journal in which an apply starts while another one is in progress, calls the
evaluator other than once with its own inputs, ends without having started, or is dropped for no other
one.

Main statement: `Machine.step_tracks`, every step of the machine can be read, and the machine agrees
with the reading on what is in progress, on what is shown and on what was recorded.
-/

namespace QueryPlayground.Coordinator

/-! ## §1 Settled applies -/

/-- An apply that has ended. -/
structure Settled where
  /-- Who asked for it. -/
  origin : Origin
  /-- The inputs when it started. -/
  inputs : Inputs
  /-- How it ended. -/
  outcome : Outcome

namespace Settled

/-- The output of an apply, if it has one. -/
def document? (s : Settled) : Option Document :=
  match s.outcome with
  | .applied d => some d
  | _ => none

/-- The message of an apply, if it failed. -/
def message? (s : Settled) : Option String :=
  match s.outcome with
  | .failed message => some message
  | _ => none

/-- What an apply hands to the history: its query, if it has an output. A template goes to the history
of templates, and a query of any other kind to that of queries. -/
def record? (s : Settled) : Option (HistoryKind × String) :=
  match s.outcome with
  | .applied _ =>
    some (if s.inputs.query.kind = .template then .templates else .queries, s.inputs.query.content)
  | _ => none

end Settled

/-! ## §2 Readings -/

/-- How far the apply in progress has come. -/
inductive Progress where
  /-- None is in progress. -/
  | idle
  /-- It has started. -/
  | started (origin : Origin) (inputs : Inputs)
  /-- It has called the evaluator. -/
  | called (origin : Origin) (inputs : Inputs)

/-- What can be read off a journal. -/
structure Reading where
  /-- The indentation of outputs. -/
  indent : Nat
  /-- The inputs after all edits. -/
  inputs : Inputs
  /-- The number of requests to apply. -/
  requests : Nat
  /-- The apply in progress. -/
  progress : Progress
  /-- The applies that have ended, first one first. -/
  settled : List Settled
  /-- What was handed to the history, first one first. -/
  recorded : List (HistoryKind × String)

namespace Reading

/-- Nothing is read yet. -/
def start (indent : Nat) : Reading :=
  ⟨indent, .default, 0, .idle, [], []⟩

/-- Whoever asks for an apply now: the user by the last request, or a quiet time. -/
def asks (r : Reading) : Origin → Bool
  | .request number => number + 1 == r.requests
  | .auto => true

/-- Reads the end of an apply. It is the one in progress, or one that was dropped for it. -/
def finish? (r : Reading) (origin : Origin) (outcome : Outcome) : Option Reading :=
  match r.progress with
  | .called o i =>
    if outcome = .dropped then if r.asks origin then some r else none
    else if o = origin then
      some { r with progress := .idle, settled := r.settled ++ [⟨o, i, outcome⟩] }
    else none
  | _ => none

/-- Reads something that happens. -/
def happen? (r : Reading) : Happening → Option Reading
  | .started origin _ inputs =>
    match r.progress with
    | .idle =>
      if r.asks origin ∧ inputs = r.inputs then some { r with progress := .started origin inputs }
      else none
    | _ => none
  | .called request loading =>
    match r.progress with
    | .started o i =>
      if request = i.request r.indent ∧ loading = some i.loadingText then
        some { r with progress := .called o i }
      else none
    | _ => none
  | .finished number outcome => r.finish? (.request number) outcome
  | .autoFinished outcome => r.finish? .auto outcome
  | .recorded kind content => some { r with recorded := r.recorded ++ [(kind, content)] }

/-- Reads that the requested apply of a number is given up. -/
def abort (r : Reading) (number : Nat) : Reading :=
  match r.progress with
  | .called o _ => if o = .request number then { r with progress := .idle } else r
  | _ => r

/-- Reads a step. -/
def begin (r : Reading) : Machine.Step → Reading
  | .setInput d => { r with inputs := { r.inputs with input := d } }
  | .setQuery d => { r with inputs := { r.inputs with query := d } }
  | .setOutput kind => { r with inputs := { r.inputs with outputType := kind } }
  | .apply => { r with requests := r.requests + 1 }
  | .abort number => r.abort number
  | .advance _ | .release | .cancelPending | .look => r

/-- Reads a step with what happened in it. -/
def read? (r : Reading) (entry : Machine.Step × List Happening) : Option Reading :=
  entry.2.foldlM happen? (r.begin entry.1)

end Reading

/-! ## §3 Machines and readings -/

namespace Machine

/-- What is in progress in a machine. -/
def Shows (m : Machine) : Progress → Prop
  | .idle => m.flights = [] ∧ m.busy = false ∧ m.view.loading = none
  | .started _ _ => False
  | .called o i =>
    ∃ f, m.flights = [f] ∧ f.origin = o ∧ f.inputs = i ∧ m.busy = true ∧
      m.view.loading.isSome = true

/-- A machine agrees with a reading on everything but what is in progress. -/
structure Agrees (m : Machine) (r : Reading) : Prop where
  indent_eq : r.indent = m.settings.indent
  inputs_eq : r.inputs = m.inputs
  requests_eq : r.requests = m.requests
  output_eq : m.view.output = (r.settled.filterMap Settled.document?).getLast?
  error_eq : m.view.error = r.settled.getLast?.bind Settled.message?
  recorded_eq : r.recorded = if m.records then r.settled.filterMap Settled.record? else []

/-- Agreement does not depend on what is in progress. -/
theorem Agrees.anyway {m : Machine} {r : Reading} (h : m.Agrees r) (now : Nat) (busy : Bool)
    (flights : List Flight) (debouncer : Debouncer Unit) (loading : Option String)
    (progress : Progress) :
    Agrees
      { m with
        now := now, busy := busy, flights := flights, debouncer := debouncer
        view := m.view.showLoading loading }
      { r with progress := progress } :=
  ⟨h.indent_eq, h.inputs_eq, h.requests_eq, h.output_eq, h.error_eq, h.recorded_eq⟩

/-- A machine agrees with a reading. -/
structure Tracks (m : Machine) (r : Reading) : Prop extends Agrees m r where
  shows : m.Shows r.progress

theorem tracks_new (settings : Settings) (records : Bool) :
    (new settings records).Tracks (.start settings.indent) := by
  refine ⟨⟨rfl, rfl, rfl, rfl, rfl, ?_⟩, rfl, rfl, rfl⟩
  cases records <;> rfl

/-- The reading after some happenings exists, and a machine agrees with it. -/
def Reads (r : Reading) (after : Machine × List Happening) : Prop :=
  ∃ r', after.2.foldlM Reading.happen? r = some r' ∧ after.1.Tracks r'

theorem reads_nil {m : Machine} {r : Reading} (h : m.Tracks r) : Reads r (m, []) :=
  ⟨r, rfl, h⟩

/-- Happenings are read one after the other. -/
theorem Reads.append {r r' : Reading} {hs : List Happening} {after : Machine × List Happening}
    (hr : hs.foldlM Reading.happen? r = some r') (h : Reads r' after) :
    Reads r (after.1, hs ++ after.2) := by
  obtain ⟨r'', hread, htracks⟩ := h
  refine ⟨r'', ?_, htracks⟩
  rw [List.foldlM_append, hr]
  exact hread

/-! ## §4 The end of an apply -/

theorem report_reads (r : Reading) (origin : Origin) (outcome : Outcome) :
    (report origin outcome).foldlM Reading.happen? r = r.finish? origin outcome := by
  cases origin <;> simp [report, Reading.happen?]

/-- An apply that ends is the one in progress, and afterwards nothing is in progress. -/
theorem conclude_reads {m : Machine} {r : Reading} {origin : Origin} {inputs : Inputs}
    (ha : m.Agrees r) (hp : r.progress = .called origin inputs) (hf : m.flights = [])
    (result : Except Error Document) : Reads r (m.conclude origin inputs result) := by
  cases result with
  | error e =>
    -- Nothing is handed to the history, and the output stays.
    refine ⟨{ r with progress := .idle,
                     settled := r.settled ++ [⟨origin, inputs, .failed e.message⟩] }, ?_, ?_⟩
    · simp [conclude, report_reads, Reading.finish?, hp]
    · refine ⟨⟨ha.indent_eq, ha.inputs_eq, ha.requests_eq, ?_, ?_, ?_⟩, hf, rfl, rfl⟩
      · simpa [conclude, free, View.showError, View.showLoading, Settled.document?]
          using ha.output_eq
      · simp [conclude, free, View.showError, View.showLoading, Settled.message?]
      · cases hrec : m.records <;>
          simp [conclude, free, Settled.record?, ha.recorded_eq, hrec]
  | ok d =>
    -- The query that is handed over is the one of the start, whatever the inputs are by now.
    let recorded : List (HistoryKind × String) :=
      if m.records then [(inputs.query.kind.historyKind, inputs.query.content)] else []
    refine ⟨{ r with progress := .idle,
                     settled := r.settled ++ [⟨origin, inputs, .applied d⟩],
                     recorded := r.recorded ++ recorded }, ?_, ?_⟩
    · cases hrec : m.records <;>
        simp [conclude, report_reads, Reading.happen?, Reading.finish?, hp, hrec, recorded]
    · refine ⟨⟨ha.indent_eq, ha.inputs_eq, ha.requests_eq, ?_, ?_, ?_⟩, hf, rfl, rfl⟩
      · simp [conclude, free, View.showOutput, View.showLoading, Settled.document?]
      · simp [conclude, free, View.showOutput, View.showLoading, Settled.message?]
      · -- The machine routes by the kind of the query, and the reading spells the routing out.
        cases hrec : m.records <;>
          simp [conclude, free, Settled.record?, DocumentKind.historyKind_eq, ha.recorded_eq, hrec,
            recorded]

/-- An evaluation in progress is the only one, and its apply is the one that the reading follows. -/
theorem Tracks.eq_of_getElem? {m : Machine} {r : Reading} (h : m.Tracks r) {i : Nat} {f : Flight}
    (hi : m.flights[i]? = some f) :
    i = 0 ∧ m.flights = [f] ∧ r.progress = .called f.origin f.inputs ∧ m.busy = true := by
  have hshows := h.shows
  -- What is in progress decides how many evaluations there are: one if it has called, else none.
  cases hp : r.progress with
  | idle =>
    rw [hp] at hshows
    simp [hshows.1] at hi
  | started o inputs =>
    rw [hp] at hshows
    exact hshows.elim
  | called o inputs =>
    rw [hp] at hshows
    obtain ⟨g, hflights, rfl, rfl, hbusy, -⟩ := hshows
    rw [hflights] at hi
    cases i with
    | zero =>
      obtain rfl := Option.some.inj hi
      exact ⟨rfl, hflights, rfl, hbusy⟩
    | succ i => cases hi

theorem land_reads {m : Machine} {r : Reading} (h : m.Tracks r) (i : Nat) :
    Reads r (m.land i) := by
  cases hi : m.flights[i]? with
  | none =>
    simp only [land, hi]
    exact reads_nil h
  | some f =>
    obtain ⟨rfl, hflights, hp, -⟩ := h.eq_of_getElem? hi
    simp only [land, hi]
    exact conclude_reads (h.toAgrees.anyway _ _ _ _ _ _) hp (by simp [hflights]) _

/-- An evaluation that takes too long stays in progress until it ends. -/
theorem expire_reads {m : Machine} {r : Reading} (h : m.Tracks r) (i time : Nat) :
    Reads r (m.expire i time) := by
  cases hi : m.flights[i]? with
  | none =>
    simp only [expire, hi]
    exact reads_nil h
  | some f =>
    obtain ⟨rfl, hflights, hp, hbusy⟩ := h.eq_of_getElem? hi
    -- The deadline and the verdict of an evaluation are no part of what is read.
    have hexpired : Tracks
        { m with
          flights := m.flights.set 0 { f with deadline := none, timedOut := some time }
          view := m.view.showLoading (some cancellingText) } r := by
      refine ⟨h.toAgrees.anyway _ _ _ _ _ _, ?_⟩
      rw [hp]
      refine ⟨{ f with deadline := none, timedOut := some time }, ?_, rfl, rfl, hbusy, rfl⟩
      rw [hflights]
      rfl
    simp only [expire, hi]
    split
    next => exact reads_nil hexpired
    next => exact land_reads hexpired 0

/-! ## §5 The start of an apply -/

/-- A machine that keeps others out has an evaluation in progress, and one that does not has none. -/
theorem Tracks.progress_of_busy {m : Machine} {r : Reading} (h : m.Tracks r) :
    if m.busy then ∃ o i, r.progress = .called o i else r.progress = .idle ∧ m.flights = [] := by
  have hshows := h.shows
  cases hp : r.progress with
  | idle =>
    rw [hp] at hshows
    rw [hshows.2.1]
    exact ⟨rfl, hshows.1⟩
  | started o i =>
    rw [hp] at hshows
    exact hshows.elim
  | called o i =>
    rw [hp] at hshows
    obtain ⟨f, -, -, -, hbusy, -⟩ := hshows
    rw [hbusy]
    exact ⟨o, i, rfl⟩

/-- A requested apply is dropped for the one in progress, or starts on the inputs of its time. -/
theorem start_reads {m : Machine} {r : Reading} (h : m.Tracks r) (evaluator : Evaluator)
    {origin : Origin} (hasks : r.asks origin = true) : Reads r (m.start evaluator origin) := by
  have hprogress := h.progress_of_busy
  -- A reading follows the flag: where it is set the reading has an apply to drop this one for.
  unfold start
  cases hbusy : m.busy with
  | true =>
    rw [hbusy] at hprogress
    obtain ⟨o, i, hp⟩ := hprogress
    refine ⟨r, ?_, h⟩
    simp [report_reads, Reading.finish?, hp, hasks]
  | false =>
    rw [hbusy] at hprogress
    obtain ⟨hp, hflights⟩ := hprogress
    let request := m.inputs.request m.settings.indent
    let loading := some m.inputs.loadingText
    let calling : Reading := { r with progress := .called origin m.inputs }
    -- The start and the call are read in this order, both with the inputs of the moment.
    have hbegun : [Happening.started origin m.now m.inputs, .called request loading].foldlM
        Reading.happen? r = some calling := by
      simp [Reading.happen?, hp, hasks, h.inputs_eq, h.indent_eq, request, loading, calling]
    have hagrees (flights : List Flight) : Agrees
        { m with busy := true, view := m.view.showLoading loading, flights := flights } calling :=
      h.toAgrees.anyway _ _ _ _ _ _
    -- An evaluation that takes its time is in progress after the call.
    have hflies (f : Flight) (ho : f.origin = origin) (hi : f.inputs = m.inputs) : Tracks
        { m with busy := true, view := m.view.showLoading loading, flights := m.flights ++ [f] }
        calling := by
      refine ⟨hagrees _, f, ?_, ho, hi, rfl, rfl⟩
      simp [hflights]
    simp only [Bool.false_eq_true, if_false]
    split
    · exact .append hbegun (conclude_reads (hagrees _) rfl hflights _)
    · exact .append hbegun (conclude_reads (hagrees _) rfl hflights _)
    · exact ⟨calling, hbegun, hflies _ rfl rfl⟩
    · exact ⟨calling, hbegun, hflies _ rfl rfl⟩

/-! ## §6 Steps -/

/-- The clock and the applies that wait for a quiet time are not read. -/
theorem Tracks.withClock {m : Machine} {r : Reading} (h : m.Tracks r) (now : Nat)
    (debouncer : Debouncer Unit) : Tracks { m with now := now, debouncer := debouncer } r :=
  ⟨h.toAgrees.anyway _ _ _ _ _ _, h.shows⟩

theorem happen_reads {m : Machine} {r : Reading} (h : m.Tracks r) (evaluator : Evaluator)
    (due : Due) : Reads r (m.happen evaluator due) := by
  cases due with
  | landing i => exact land_reads h i
  | expiry i => exact expire_reads h i _
  | quiet => exact start_reads (h.withClock m.now m.debouncer.cancel) evaluator rfl

theorem runUntil_reads (evaluator : Evaluator) (time fuel : Nat) {m : Machine} {r : Reading}
    (h : m.Tracks r) : Reads r (m.runUntil evaluator time fuel) := by
  -- Fuel plays no part here: wherever the machine stops, it agrees with what was read so far.
  induction fuel generalizing m r with
  | zero => exact reads_nil h
  | succ fuel ih =>
    unfold runUntil
    split
    next => exact reads_nil h
    next t due _ =>
      split
      next => exact reads_nil h
      next =>
        obtain ⟨r', hread, htracks⟩ :=
          happen_reads (h.withClock (max m.now t) m.debouncer) evaluator due
        exact .append hread (ih htracks)

theorem moveTo_reads (evaluator : Evaluator) (time : Nat) {m : Machine} {r : Reading}
    (h : m.Tracks r) : Reads r (m.moveTo evaluator time) := by
  obtain ⟨r', hread, htracks⟩ := runUntil_reads evaluator time m.backlog h
  exact ⟨r', hread, htracks.withClock time _⟩

/-- An edit is read as what it says. -/
theorem edit_tracks {m : Machine} {r : Reading} (h : m.Tracks r) (f : Inputs → Inputs) :
    (m.edit f).Tracks { r with inputs := f r.inputs } := by
  simp only [edit]
  split <;>
    exact ⟨⟨h.indent_eq, congrArg f h.inputs_eq, h.requests_eq, h.output_eq, h.error_eq,
      h.recorded_eq⟩, h.shows⟩

/-- Giving up an apply ends it if it is the one in progress. -/
theorem abort_tracks {m : Machine} {r : Reading} (h : m.Tracks r) (number : Nat) :
    (m.abort number).Tracks (r.abort number) := by
  have hshows := h.shows
  cases hp : r.progress with
  | idle =>
    rw [hp] at hshows
    simpa [abort, Reading.abort, hshows.1, hp] using h
  | started o i =>
    rw [hp] at hshows
    exact hshows.elim
  | called o i =>
    rw [hp] at hshows
    obtain ⟨f, hflights, rfl, -, -, -⟩ := hshows
    -- The one in progress is given up, or else the number is that of an apply that has ended.
    by_cases ho : f.origin = .request number
    · have hidx : m.flights.findIdx? (·.origin = .request number) = some 0 := by
        simp [hflights, ho]
      simp only [abort, hidx, Reading.abort, hp, ho, if_true]
      exact ⟨h.toAgrees.anyway _ _ _ _ _ _, by simp [hflights, free], rfl, rfl⟩
    · have hidx : m.flights.findIdx? (·.origin = .request number) = none := by
        simp [hflights, ho]
      simpa only [abort, hidx, Reading.abort, hp, ho, if_false] using h

theorem perform_reads {m : Machine} {r : Reading} (h : m.Tracks r) (evaluator : Evaluator)
    (s : Step) : Reads (r.begin s) (m.perform evaluator s) := by
  cases s with
  | setInput d => exact reads_nil (edit_tracks h fun i => { i with input := d })
  | setQuery d => exact reads_nil (edit_tracks h fun i => { i with query := d })
  | setOutput kind => exact reads_nil (edit_tracks h fun i => { i with outputType := kind })
  | apply =>
    -- The number of the request is the count of those before it, in the reading as in the machine.
    have hnext : Tracks { m with requests := m.requests + 1 }
        { r with requests := r.requests + 1 } :=
      ⟨⟨h.indent_eq, h.inputs_eq, congrArg (· + 1) h.requests_eq, h.output_eq, h.error_eq,
        h.recorded_eq⟩, h.shows⟩
    refine start_reads hnext evaluator ?_
    simp [Reading.asks, h.requests_eq]
  | advance time => exact reads_nil h
  | release =>
    simp only [perform, release, Reading.begin]
    split
    · exact land_reads h _
    · exact reads_nil h
  | cancelPending => exact reads_nil (h.withClock m.now m.debouncer.cancel)
  | abort number => exact reads_nil (abort_tracks h number)
  | look => exact reads_nil h

/-- Every step can be read, and the machine agrees with the reading after it. -/
theorem step_tracks {m : Machine} {r : Reading} (h : m.Tracks r) (evaluator : Evaluator)
    (s : Step) :
    ∃ r', r.read? (s, (m.step evaluator s).2) = some r' ∧ (m.step evaluator s).1.Tracks r' := by
  obtain ⟨r', hread, htracks⟩ := perform_reads h evaluator s
  exact Reads.append hread (moveTo_reads evaluator (m.timeAfter s) htracks)

/-! ## §7 Runs -/

/-- Does steps in order, each of them with an evaluator that may behave differently from those before.
The result is the machine afterwards and the journal. -/
def stepAll (m : Machine) : List (Evaluator × Step) → Machine × List (Step × List Happening)
  | [] => (m, [])
  | (evaluator, s) :: rest =>
    let (m, hs) := m.step evaluator s
    let (m, journal) := m.stepAll rest
    (m, (s, hs) :: journal)

/-- The journal of a run can be read, and the machine agrees with the reading. -/
theorem stepAll_tracks {m : Machine} {r : Reading} (h : m.Tracks r)
    (run : List (Evaluator × Step)) :
    ∃ r', (m.stepAll run).2.foldlM Reading.read? r = some r' ∧ (m.stepAll run).1.Tracks r' := by
  -- The journal grows at its front, so the reading of the first step is carried along.
  induction run generalizing m r with
  | nil => exact ⟨r, rfl, h⟩
  | cons x rest ih =>
    obtain ⟨r', hread, htracks⟩ := step_tracks h x.1 x.2
    obtain ⟨r'', hrest, htracks'⟩ := ih htracks
    refine ⟨r'', ?_, htracks'⟩
    simp only [stepAll, List.foldlM_cons, hread]
    exact hrest

end Machine

end QueryPlayground.Coordinator
