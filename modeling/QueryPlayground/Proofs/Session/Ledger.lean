import QueryPlayground.Session
import QueryPlayground.Proofs.Coordinator.Journal

/-!
# Ledgers of a session

A `Ledger` tells what a session comes to from the events alone, for a worker that takes as long as it
likes. Whoever asks for an apply takes the inputs of that moment with him; if another apply is in
progress the new one is dropped, and otherwise it is settled when the worker answers, with what the
built-in evaluator says about those inputs. Nothing in a ledger speaks of evaluations, of a view that is
being changed, of a clock or of the recorder.

Main statements: `Machine.perform_enters` and `Machine.quiet_enters`, the coordinator keeps to the
ledger in every event, and `Ledger.numbers_actAll`, every apply that is awaited has one answer.
-/

namespace QueryPlayground

open QueryPlayground.Coordinator

/-! ## §1 Answers -/

/-- How an apply ends that the evaluator answers. -/
def Coordinator.Outcome.ofAnswer : Except Error Document → Outcome
  | .ok d => .applied d
  | .error e => .failed e.message

/-- What the built-in evaluator does depends on its request alone, but for the time it takes. -/
@[simp]
theorem builtinEvaluator_apply (wait : Wait) (r : EvalRequest) :
    builtinEvaluator wait r = ⟨wait, true, r.answer⟩ :=
  rfl

namespace Session

/-- What is recorded of more happenings comes after what is recorded of those before. -/
theorem records_append (hs more : List Happening) :
    records (hs ++ more) = records hs ++ records more :=
  List.filterMap_append

/-- What is answered in more happenings comes after what is answered in those before. -/
theorem answers_append (hs more : List Happening) :
    answers (hs ++ more) = answers hs ++ answers more :=
  List.filterMap_append

end Session

/-! ## §2 Ledgers -/

/-- What is entered, what is in progress and what has come of it. -/
structure Ledger where
  /-- The settings. -/
  settings : Settings
  /-- The inputs after all edits. -/
  inputs : Inputs
  /-- The number of requests to apply. -/
  requests : Nat
  /-- Whether an edit waits for its quiet time. -/
  waits : Bool
  /-- The apply in progress: who asked for it, and the inputs that it has taken. -/
  flight : Option (Origin × Inputs)
  /-- The applies that have ended, first one first, without those that were dropped. -/
  settled : List Settled
  /-- What those were told who asked for an apply by a request, first answer first. -/
  answers : List (Nat × Outcome)

namespace Ledger

/-- Nothing was entered yet. -/
def new (settings : Settings) : Ledger :=
  ⟨settings, .default, 0, false, none, [], []⟩

/-- The output that is shown: that of the last apply that has one. -/
def output (l : Ledger) : Option Document :=
  (l.settled.filterMap Settled.document?).getLast?

/-- The message that is shown: that of the last apply, if it failed. -/
def error (l : Ledger) : Option String :=
  l.settled.getLast?.bind Settled.message?

/-- What is to be recorded, first one first. -/
def texts (l : Ledger) : List History.Record :=
  (l.settled.filterMap Settled.record?).map fun x => History.Record.mk x.1 x.2

/-- How an apply of inputs ends that is not dropped: as the built-in evaluator says. -/
def outcome (l : Ledger) (i : Inputs) : Outcome :=
  .ofAnswer (i.request l.settings.indent).answer

/-- Tells whoever asked for an apply how it ended. Nobody waits for an automatic one. -/
def tell (l : Ledger) (origin : Origin) (o : Outcome) : Ledger :=
  match origin with
  | .request number => { l with answers := l.answers ++ [(number, o)] }
  | .auto => l

/-- Somebody asks for an apply. -/
def ask (l : Ledger) (origin : Origin) : Ledger :=
  match l.flight with
  | some _ => l.tell origin .dropped
  | none => { l with flight := some (origin, l.inputs) }

/-- The worker answers. -/
def land (l : Ledger) : Ledger :=
  match l.flight with
  | some (origin, i) =>
    let ended : Settled := ⟨origin, i, l.outcome i⟩
    { l with flight := none, settled := l.settled ++ [ended] }.tell origin ended.outcome
  | none => l

/-- The ledger after an edit, which begins a quiet time if edits are to be applied by themselves. -/
def edit (l : Ledger) (f : Inputs → Inputs) : Ledger :=
  { l with inputs := f l.inputs, waits := l.settings.autoApply || l.waits }

/-- The requested apply of a number is given up. -/
def abort (l : Ledger) (number : Nat) : Ledger :=
  match l.flight with
  | some (origin, _) => if origin = .request number then { l with flight := none } else l
  | none => l

/-- The ledger after a step of the coordinator. -/
def step (l : Ledger) : Machine.Step → Ledger
  | .setInput d => l.edit fun i => { i with input := d }
  | .setQuery d => l.edit fun i => { i with query := d }
  | .setOutput kind => l.edit fun i => { i with outputType := kind }
  | .apply => { l with requests := l.requests + 1 }.ask (.request l.requests)
  | .release => l.land
  | .cancelPending => { l with waits := false }
  | .abort number => l.abort number
  | .advance _ | .look => l

/-- The ledger once a quiet time is over, if one has begun. -/
def quiet (l : Ledger) : Ledger :=
  if l.waits then { l with waits := false }.ask .auto else l

/-- The ledger after an event; the recorder plays no part in it. -/
def act (l : Ledger) : Session.Event → Ledger
  | .step what => l.step what
  | .quiet => l.quiet
  | .write => l

/-- The ledger after events in order. -/
def actAll (l : Ledger) (events : List Session.Event) : Ledger :=
  events.foldl act l

/-- The ledger of a session that comes to an end. -/
def finish (l : Ledger) : Ledger :=
  { l with waits := false }.land

/-- Where a request is told its answer, nothing else changes. -/
theorem tell_frame (l : Ledger) (origin : Origin) (o : Outcome) :
    l.tell origin o = { l with answers := (l.tell origin o).answers } := by
  cases origin <;> rfl

/-- The request whose apply is in progress. -/
def number? (l : Ledger) : Option Nat :=
  match l.flight with
  | some (.request number, _) => some number
  | some (.auto, _) | none => none

/-- A user who waits for the end of each of his applies does nothing while one is in progress, and never
gives one up. Time, the worker and the recorder go on. -/
def Allows (l : Ledger) : Session.Event → Prop
  | .step (.advance _) | .step .release | .quiet | .write => True
  | .step (.abort _) => False
  | .step _ => l.number? = none

/-- Every request has had its answer, in order, but for the one whose apply is in progress. -/
structure Answered (l : Ledger) : Prop where
  numbers_eq : l.answers.map Prod.fst ++ l.number?.toList = List.range l.requests
  dropped_auto : ∀ x ∈ l.answers, x.2 = .dropped → l.settings.autoApply = true
  waits_auto : l.waits = true → l.settings.autoApply = true
  flight_auto : ∀ i, l.flight = some (.auto, i) → l.settings.autoApply = true

/-- What the evaluator answers is not dropped. -/
theorem outcome_ne_dropped (l : Ledger) (i : Inputs) : l.outcome i ≠ .dropped := by
  unfold outcome
  cases (i.request l.settings.indent).answer <;> simp [Outcome.ofAnswer]

/-- Edits and what becomes of those that wait do not concern the answers. -/
theorem Answered.withInputs {l : Ledger} (h : l.Answered) (inputs : Inputs) {waits : Bool}
    (hwaits : waits = true → l.settings.autoApply = true) :
    Answered { l with inputs := inputs, waits := waits } :=
  ⟨h.numbers_eq, h.dropped_auto, hwaits, h.flight_auto⟩

/-- What waits after an edit waits because edits are to be applied by themselves. -/
theorem Answered.edit {l : Ledger} (h : l.Answered) (f : Inputs → Inputs) : (l.edit f).Answered := by
  refine h.withInputs (f l.inputs) fun hwaits => ?_
  rcases Bool.or_eq_true_iff.mp hwaits with hauto | hwaited
  · exact hauto
  · exact h.waits_auto hwaited

/-- A request of a user who waits meets no apply but an automatic one, and for that it is dropped. -/
theorem Answered.request {l : Ledger} (h : l.Answered) (hnumber : l.number? = none) :
    (l.step .apply).Answered := by
  have hnumbers : l.answers.map Prod.fst = List.range l.requests := by
    simpa [hnumber] using h.numbers_eq
  cases hflight : l.flight with
  | none =>
    simp only [step, ask, hflight]
    exact ⟨by simp [number?, hnumbers, List.range_succ], h.dropped_auto, h.waits_auto, by simp⟩
  | some p =>
    obtain ⟨origin, i⟩ := p
    cases origin with
    | request number => simp [number?, hflight] at hnumber
    | auto =>
      have hauto := h.flight_auto i hflight
      simp only [step, ask, hflight, tell]
      refine ⟨?_, fun _ _ _ => hauto, h.waits_auto, fun _ _ => hauto⟩
      simp [number?, hnumbers, List.range_succ]

/-- The answer of the worker is told to the request whose apply is in progress. -/
theorem Answered.land {l : Ledger} (h : l.Answered) : l.land.Answered := by
  unfold Ledger.land
  split
  next origin i hflight =>
    have hnumbers := h.numbers_eq
    cases origin with
    | request number =>
      refine ⟨?_, ?_, h.waits_auto, by simp [tell]⟩
      · simpa [tell, number?, hflight] using hnumbers
      · -- The evaluator has an answer, so what is told is not that the apply was dropped.
        simp only [tell, List.mem_append, List.mem_singleton]
        rintro x (hx | rfl) hdropped
        · exact h.dropped_auto x hx hdropped
        · exact absurd hdropped (l.outcome_ne_dropped i)
    -- Nobody waits for an automatic apply, so nobody is told.
    | auto => exact ⟨by simpa [tell, number?, hflight] using hnumbers, h.dropped_auto, h.waits_auto,
        by simp [tell]⟩
  next => exact h

/-- An automatic apply answers nobody. -/
theorem Answered.quiet {l : Ledger} (h : l.Answered) : l.quiet.Answered := by
  unfold Ledger.quiet
  split
  next hwaits =>
    have hauto := h.waits_auto hwaits
    cases hflight : l.flight with
    | none =>
      simp only [ask]
      exact ⟨by simpa [number?, hflight] using h.numbers_eq, h.dropped_auto, by simp,
        fun _ _ => hauto⟩
    | some p =>
      simp only [ask, tell]
      exact ⟨by simpa [number?, hflight] using h.numbers_eq, h.dropped_auto, by simp,
        fun _ _ => hauto⟩
  next => exact h

/-- Whatever a user who waits lets happen, each of his requests has its answer in turn. -/
theorem Answered.act {l : Ledger} (h : l.Answered) {e : Session.Event} (hallows : l.Allows e) :
    (l.act e).Answered := by
  cases e with
  | quiet => exact h.quiet
  | write => exact h
  | step what =>
    cases what with
    | setInput d => exact h.edit fun i => { i with input := d }
    | setQuery d => exact h.edit fun i => { i with query := d }
    | setOutput kind => exact h.edit fun i => { i with outputType := kind }
    | apply => exact h.request hallows
    | advance time => exact h
    | release => exact h.land
    | cancelPending => exact h.withInputs l.inputs (by simp)
    | abort number => exact hallows.elim
    | look => exact h

end Ledger

/-! ## §4 Coordinators that keep to a ledger -/

namespace Coordinator.Machine

/-- The evaluation of the apply in progress is the only one. It waits for its release and will say what
the built-in evaluator says about the inputs that were taken, and the view tells of it. -/
def Flies (m : Machine) : Option (Origin × Inputs) → Prop
  | none => m.flights = [] ∧ m.busy = false ∧ m.view.loading = none
  | some (origin, i) =>
    ∃ f, m.flights = [f] ∧ f.origin = origin ∧ f.inputs = i ∧ f.ending = .release ∧
      f.verdict = (i.request m.settings.indent).answer ∧ m.busy = true ∧
      m.view.loading = some i.loadingText

/-- A coordinator shows what a ledger says; what it has handed over is what is to be recorded, and what
it has told is what was to be answered. The clock is left out. -/
structure Mirrors (m : Machine) (sent : List History.Record) (told : List (Nat × Outcome))
    (l : Ledger) : Prop where
  records_eq : m.records = true
  settings_eq : m.settings = l.settings
  inputs_eq : m.inputs = l.inputs
  requests_eq : m.requests = l.requests
  waits_eq : m.debouncer.armed.isSome = l.waits
  output_eq : m.view.output = l.output
  error_eq : m.view.error = l.error
  texts_eq : sent = l.texts
  answers_eq : told = l.answers
  flies : m.Flies l.flight

variable {m : Machine} {sent : List History.Record} {told : List (Nat × Outcome)} {l : Ledger}

/-- The coordinator keeps to the ledger after what has happened, if it had handed over some texts and
told some answers before. -/
def Enters (sent : List History.Record) (told : List (Nat × Outcome))
    (after : Machine × List Happening) (l : Ledger) : Prop :=
  after.1.Mirrors (sent ++ Session.records after.2) (told ++ Session.answers after.2) l

/-- Where nothing has happened there is nothing to hand over and nothing to tell. -/
theorem enters_nil (h : m.Mirrors sent told l) : Enters sent told (m, []) l := by
  simpa [Enters, Session.records, Session.answers] using h

/-- What is entered in a ledger is what the coordinator was told, and it waits where the coordinator
does. -/
theorem edit_mirrors (h : m.Mirrors sent told l) (f : Inputs → Inputs) :
    (m.edit f).Mirrors sent told (l.edit f) := by
  have hauto : m.settings.autoApply = l.settings.autoApply := by rw [h.settings_eq]
  simp only [edit, hauto, Ledger.edit]
  cases l.settings.autoApply with
  | true => exact { h with inputs_eq := congrArg f h.inputs_eq, waits_eq := rfl }
  | false => exact { h with inputs_eq := congrArg f h.inputs_eq }

/-- What an apply reports to the user is what the ledger tells him. -/
theorem answers_report (l : Ledger) (origin : Origin) (o : Outcome) :
    (l.tell origin o).answers = l.answers ++ Session.answers (report origin o) := by
  cases origin <;> simp [Ledger.tell, report, Session.answers]

/-- A report hands nothing over to the history. -/
theorem records_report (origin : Origin) (o : Outcome) :
    Session.records (report origin o) = [] := by
  cases origin <;> rfl

/-- An apply that meets another one is dropped, and nothing but the answer comes of it. Any other one
takes the inputs of the moment, and its evaluation is in progress. -/
theorem start_enters (h : m.Mirrors sent told l) (origin : Origin) :
    Enters sent told (m.start (builtinEvaluator .gate) origin) (l.ask origin) := by
  have hflies := h.flies
  unfold start Ledger.ask
  cases hflight : l.flight with
  -- The one in progress keeps its inputs, so the ledger only answers.
  | some p =>
    rw [hflight] at hflies
    obtain ⟨f, -, -, -, -, -, hbusy, -⟩ := id hflies
    simp only [hbusy, if_true]
    rw [l.tell_frame, Enters, records_report, List.append_nil, h.answers_eq, answers_report]
    exact { h with answers_eq := rfl }
  -- The evaluation that begins is the only one, and waits for its release.
  | none =>
    rw [hflight] at hflies
    obtain ⟨hflights, hbusy, hloading⟩ := hflies
    simp only [hbusy, Bool.false_eq_true, if_false, builtinEvaluator_apply, Enters]
    have hnothing : Session.records
        [Happening.started origin m.now m.inputs,
          .called (m.inputs.request m.settings.indent) (some m.inputs.loadingText)] = [] := rfl
    refine { h with
      texts_eq := ?_, answers_eq := ?_
      flies := ⟨_, by rw [hflights, List.nil_append], rfl, h.inputs_eq, rfl, ?_, rfl, ?_⟩ }
    · rw [hnothing, List.append_nil]
      exact h.texts_eq
    · simpa [Session.answers] using h.answers_eq
    · simp [Flight.verdict, h.inputs_eq]
    · simp [View.showLoading, h.inputs_eq]

/-- The end of an apply shows what came of it and hands over the query that was applied. -/
theorem conclude_enters (h : m.Mirrors sent told l) {origin : Origin} {i : Inputs}
    (hflight : l.flight = some (origin, i)) :
    Enters sent told
      ({ m with flights := [] }.conclude origin i (i.request m.settings.indent).answer) l.land := by
  -- The ledger asks for the document with the same indent.
  have houtcome : l.outcome i = .ofAnswer (i.request m.settings.indent).answer := by
    rw [Ledger.outcome, h.settings_eq]
  simp only [Ledger.land, hflight, houtcome]
  rw [Ledger.tell_frame, answers_report, Enters]
  cases (i.request m.settings.indent).answer with
  | error e =>
    -- Nothing is handed over, and the output stays.
    simp only [conclude, records_report, Outcome.ofAnswer, List.append_nil, ← h.answers_eq]
    refine ⟨h.records_eq, h.settings_eq, h.inputs_eq, h.requests_eq, h.waits_eq, ?_, ?_, ?_, rfl,
      rfl, rfl, rfl⟩
    · simpa [Ledger.output, Settled.document?, free, View.showError, View.showLoading]
        using h.output_eq
    · simp [Ledger.error, Settled.message?, free, View.showError, View.showLoading]
    · simpa [Ledger.texts, List.filterMap_cons, Settled.record?] using h.texts_eq
  | ok d =>
    simp only [conclude, h.records_eq, if_true, Session.records_append, records_report,
      Session.answers_append, Outcome.ofAnswer, List.append_nil, ← h.answers_eq]
    refine ⟨rfl, h.settings_eq, h.inputs_eq, h.requests_eq, h.waits_eq, ?_, ?_, ?_, rfl,
      rfl, rfl, rfl⟩
    · simp [Ledger.output, Settled.document?, free, View.showOutput, View.showLoading]
    · simp [Ledger.error, Settled.message?, free, View.showOutput, View.showLoading]
    · simpa [Ledger.texts, List.filterMap_cons, Settled.record?, Session.records,
        DocumentKind.historyKind_eq] using h.texts_eq

/-- The worker answers the only call there is, if there is one. -/
theorem release_enters (h : m.Mirrors sent told l) : Enters sent told m.release l.land := by
  have hflies := h.flies
  cases hflight : l.flight with
  | none =>
    rw [hflight] at hflies
    have hnone : m.release = (m, []) := by simp [release, hflies.1]
    rw [hnone, Ledger.land, hflight]
    exact enters_nil h
  | some p =>
    rw [hflight] at hflies
    obtain ⟨origin, i⟩ := p
    -- What the evaluation ends with was fixed when it began.
    obtain ⟨f, hflights, rfl, rfl, hending, hverdict, -⟩ := hflies
    have hland : m.release =
        { m with flights := [] }.conclude f.origin f.inputs f.verdict := by
      simp [release, land, hflights, hending]
    rw [hland, hverdict]
    exact conclude_enters h hflight

/-- Giving up an apply frees the coordinator, if it is the one in progress. -/
theorem abort_mirrors (h : m.Mirrors sent told l) (number : Nat) :
    (m.abort number).Mirrors sent told (l.abort number) := by
  have hflies := h.flies
  cases hflight : l.flight with
  | none =>
    rw [hflight] at hflies
    simpa [abort, Ledger.abort, hflies.1, hflight] using h
  | some p =>
    rw [hflight] at hflies
    obtain ⟨origin, i⟩ := p
    obtain ⟨f, hflights, rfl, -⟩ := hflies
    -- Only the apply of that number is given up.
    by_cases ho : f.origin = .request number
    · simp only [abort, Ledger.abort, hflights, hflight, ho, List.findIdx?_singleton, decide_true,
        if_true]
      exact { h with flies := ⟨rfl, rfl, rfl⟩ }
    · simpa [abort, Ledger.abort, hflights, hflight, ho] using h

/-- The coordinator keeps to the ledger in every step, before anything happens by itself. -/
theorem perform_enters (h : m.Mirrors sent told l) (what : Step) :
    Enters sent told (m.perform (builtinEvaluator .gate) what) (l.step what) := by
  cases what with
  | setInput d => exact enters_nil (edit_mirrors h fun i => { i with input := d })
  | setQuery d => exact enters_nil (edit_mirrors h fun i => { i with query := d })
  | setOutput kind => exact enters_nil (edit_mirrors h fun i => { i with outputType := kind })
  | apply =>
    -- The number of the request is the count of those before it, in the ledger as in the machine.
    have hnext : Mirrors { m with requests := m.requests + 1 } sent told
        { l with requests := m.requests + 1 } :=
      { h with requests_eq := rfl }
    rw [Ledger.step, ← h.requests_eq]
    exact start_enters hnext _
  | release => exact release_enters h
  | cancelPending => exact enters_nil { h with waits_eq := rfl }
  | abort number => exact enters_nil (abort_mirrors h number)
  | advance time => exact enters_nil h
  | look => exact enters_nil h

/-- Once a quiet time is over, the inputs are applied by themselves. -/
theorem quiet_enters (h : m.Mirrors sent told l) (hwaits : l.waits = true) :
    Enters sent told (m.happen (builtinEvaluator .gate) .quiet) l.quiet := by
  rw [Ledger.quiet, if_pos hwaits]
  have hover : Mirrors { m with debouncer := m.debouncer.cancel } sent told
      { l with waits := false } := { h with waits_eq := rfl }
  exact start_enters hover .auto

end Coordinator.Machine

end QueryPlayground
