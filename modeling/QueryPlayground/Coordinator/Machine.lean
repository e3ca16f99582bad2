import QueryPlayground.Coordinator.View
import QueryPlayground.Debounce

/-!
# The coordinator

The coordinator turns edits and requests to apply into evaluations, of which at most one is in
progress: an apply that meets another one is dropped. With auto-apply on, an edit applies the inputs
once no other edit has followed for the quiet time.

An evaluator is described by its behaviour on a request: when it comes to an end, whether it heeds a
cancellation, and with what. An evaluation that is still in progress at its deadline is cancelled; the
coordinator waits until the evaluator lets go, and the apply fails whatever the evaluator then says.
At one time an evaluation ends before its deadline is noticed, and that before a quiet time is over.

After each step everything happens that is due, so with a quiet time of zero an edit is applied before the
next step. Edits in one go, of which only the last would then be applied, are not covered.
-/

namespace QueryPlayground.Coordinator

/-! ## §1 Evaluators -/

/-- When an evaluation comes to an end by itself. -/
inductive Wait where
  /-- At once. -/
  | none
  /-- When it is released. -/
  | gate
  /-- After a time in milliseconds. -/
  | time (duration : Nat)
  deriving DecidableEq, Repr

/-- What an evaluator does with a request. -/
structure Behaviour where
  /-- When it comes to an end. -/
  wait : Wait
  /-- Whether it goes on when it is cancelled. -/
  stubborn : Bool
  /-- What it says in the end. -/
  result : Except Error Document

/-- An evaluator, by its behaviour on each request. -/
abbrev Evaluator := EvalRequest → Behaviour

/-! ## §2 The machine -/

/-- Who asked for an apply. -/
inductive Origin where
  /-- A user, with the number of the request. -/
  | request (number : Nat)
  /-- A quiet time that is over. -/
  | auto
  deriving DecidableEq, Repr

/-- When an evaluation in progress ends by itself. -/
inductive Ending where
  | release
  | at_ (time : Nat)
  deriving DecidableEq, Repr

/-- An evaluation in progress. -/
structure Flight where
  /-- Who asked for it. -/
  origin : Origin
  /-- The inputs when it started. -/
  inputs : Inputs
  /-- When it ends by itself. -/
  ending : Ending
  /-- When it takes too long, unless it was cancelled for that. -/
  deadline : Option Nat
  /-- The time that it was allowed, once it was cancelled for taking longer. -/
  timedOut : Option Nat
  stubborn : Bool
  /-- What the evaluator says in the end. -/
  result : Except Error Document

/-- The error of an evaluation that took longer than a time in milliseconds. -/
def timeoutError (time : Nat) : Error :=
  .evaluationTimeout (time * 1000)

namespace Flight

/-- What comes out of an evaluation at its end. -/
def verdict (f : Flight) : Except Error Document :=
  match f.timedOut with
  | none => f.result
  | some time => .error (timeoutError time)

/-- When an evaluation ends by itself, if it does. -/
def landing? (f : Flight) : Option Nat :=
  match f.ending with
  | .at_ t => some t
  | .release => none

/-- How much can happen to an evaluation without a step in between: it takes too long, and it ends. -/
def backlog (f : Flight) : Nat :=
  if f.deadline.isSome then 2 else 1

/-- How much can happen to evaluations without a step in between. -/
def backlogs (fs : List Flight) : Nat :=
  fs.foldr (fun f n => f.backlog + n) 0

end Flight

/-- Something that happens on the way. -/
inductive Happening where
  /-- An apply starts at a time, on the inputs of that time. -/
  | started (origin : Origin) (time : Nat) (inputs : Inputs)
  /-- The evaluator gets a request, while the view shows a line. -/
  | called (request : EvalRequest) (loading : Option String)
  /-- A requested apply has ended. -/
  | finished (number : Nat) (outcome : Outcome)
  /-- An apply after a quiet time has ended. -/
  | autoFinished (outcome : Outcome)
  /-- A query is handed to the history. -/
  | recorded (kind : HistoryKind) (content : String)
  deriving DecidableEq, Repr

structure Machine where
  settings : Settings
  /-- Whether queries that were applied are handed to a history. -/
  records : Bool
  /-- The clock, in milliseconds. -/
  now : Nat
  inputs : Inputs
  view : View
  /-- Whether an apply keeps others out. -/
  busy : Bool
  /-- The evaluations in progress. -/
  flights : List Flight
  /-- The applies that wait for the quiet time. -/
  debouncer : Debouncer Unit
  /-- The number of requests to apply. -/
  requests : Nat

inductive Phase where
  | idle
  | applying
  deriving DecidableEq, Repr

namespace Machine

/-- A coordinator before anything was entered. -/
def new (settings : Settings) (records : Bool) : Machine :=
  ⟨settings, records, 0, .default, .empty, false, [], .new settings.debounceMs, 0⟩

def phase (m : Machine) : Phase :=
  if m.busy then .applying else .idle

/-- The number of evaluations in progress. -/
def running (m : Machine) : Nat :=
  m.flights.length

/-! ## §3 The end of an apply -/

/-- Tells who asked for an apply how it ended. -/
def report (origin : Origin) (outcome : Outcome) : List Happening :=
  match origin with
  | .request number => [.finished number outcome]
  | .auto => [.autoFinished outcome]

/-- Lets the next apply in. -/
def free (m : Machine) : Machine :=
  { m with busy := false, view := m.view.showLoading none }

/-- Ends an apply with what came out of it. -/
def conclude (m : Machine) (origin : Origin) (inputs : Inputs) (result : Except Error Document) :
    Machine × List Happening :=
  match result with
  | .ok d =>
    -- The query may have been edited meanwhile; the one that was applied is handed over.
    let recorded :=
      if m.records then
        [Happening.recorded inputs.query.kind.historyKind inputs.query.content]
      else []
    ({ m with view := m.view.showOutput d }.free, recorded ++ report origin (.applied d))
  | .error e =>
    ({ m with view := m.view.showError e.message }.free, report origin (.failed e.message))

/-- Ends the apply of the evaluation at a position, which has come to its end. -/
def land (m : Machine) (i : Nat) : Machine × List Happening :=
  match m.flights[i]? with
  | some f => { m with flights := m.flights.eraseIdx i }.conclude f.origin f.inputs f.verdict
  | none => (m, [])

/-- Notices that the evaluation at a position has taken too long. -/
def expire (m : Machine) (i : Nat) (time : Nat) : Machine × List Happening :=
  match m.flights[i]? with
  | some f =>
    -- The deadline is used up; what is left is to wait until the evaluator lets go.
    let m :=
      { m with
        flights := m.flights.set i { f with deadline := none, timedOut := some time }
        view := m.view.showLoading (some cancellingText) }
    if f.stubborn then (m, []) else m.land i
  | none => (m, [])

/-! ## §4 The start of an apply -/

/-- Starts an apply, unless another one is in progress. -/
def start (m : Machine) (evaluator : Evaluator) (origin : Origin) : Machine × List Happening :=
  if m.busy then (m, report origin .dropped)
  else
    let request := m.inputs.request m.settings.indent
    let loading := some m.inputs.loadingText
    let b := evaluator request
    let m := { m with busy := true, view := m.view.showLoading loading }
    let begun := [Happening.started origin m.now m.inputs, .called request loading]
    let fly (ending : Ending) : Machine :=
      { m with
        flights := m.flights ++
          [{ origin := origin, inputs := m.inputs, ending := ending
             deadline := m.settings.timeout.map (m.now + ·), timedOut := none
             stubborn := b.stubborn, result := b.result }] }
    -- Who answers at once leaves no time in which a deadline could pass.
    match b.wait with
    | .none | .time 0 =>
      let (m, hs) := m.conclude origin m.inputs b.result
      (m, begun ++ hs)
    | .gate => (fly .release, begun)
    | .time d => (fly (.at_ (m.now + d)), begun)

/-! ## §5 The clock -/

/-- What happens next by itself. -/
inductive Due where
  /-- The evaluation at a position ends. -/
  | landing (i : Nat)
  /-- The evaluation at a position has taken too long. -/
  | expiry (i : Nat)
  | quiet
  deriving DecidableEq, Repr

/-- The earlier one of two things to happen, the first one at the same time. -/
def sooner (a b : Option (Nat × Due)) : Option (Nat × Due) :=
  match a, b with
  | none, b => b
  | a, none => a
  | some a, some b => if a.1 ≤ b.1 then some a else some b

/-- What happens next to evaluations, the first of which is at a position. -/
def nextOf? : List Flight → Nat → Option (Nat × Due)
  | [], _ => none
  | f :: fs, i =>
    sooner
      (sooner (f.landing?.map fun t => (t, .landing i)) (f.deadline.map fun t => (t, .expiry i)))
      (nextOf? fs (i + 1))

/-- When the quiet time is over. -/
def quiet? (m : Machine) : Option (Nat × Due) :=
  m.debouncer.armed.map fun a => (a.due, .quiet)

/-- What happens next by itself, and when. -/
def next? (m : Machine) : Option (Nat × Due) :=
  sooner (nextOf? m.flights 0) m.quiet?

/-- Makes something happen. -/
def happen (m : Machine) (evaluator : Evaluator) : Due → Machine × List Happening
  | .landing i => m.land i
  | .expiry i => m.expire i (m.settings.timeout.getD 0)
  | .quiet => { m with debouncer := m.debouncer.cancel }.start evaluator .auto

/-- Makes everything happen that is due by a time, as far as the fuel goes. -/
def runUntil (evaluator : Evaluator) (time : Nat) : Nat → Machine → Machine × List Happening
  | 0, m => (m, [])
  | fuel + 1, m =>
    match m.next? with
    | none => (m, [])
    | some (t, due) =>
      if time < t then (m, [])
      else
        -- What was due earlier happens now, as the clock never goes back.
        let (m, hs) := { m with now := max m.now t }.happen evaluator due
        let (m, more) := runUntil evaluator time fuel m
        (m, hs ++ more)

/-- The most that can happen without a step in between. When a quiet time is over, an evaluation may
start that takes too long and ends. -/
def backlog (m : Machine) : Nat :=
  Flight.backlogs m.flights + if m.debouncer.isPending then 3 else 0

/-- Moves the clock to a time and makes everything happen that is due by then. -/
def moveTo (m : Machine) (evaluator : Evaluator) (time : Nat) : Machine × List Happening :=
  let (m, hs) := m.runUntil evaluator time m.backlog
  ({ m with now := time }, hs)

/-! ## §6 Steps -/

/-- What can be done with a coordinator. -/
inductive Step where
  | setInput (d : Document)
  | setQuery (d : Document)
  | setOutput (kind : DocumentKind)
  | apply
  /-- Let time pass. -/
  | advance (time : Nat)
  /-- Let the evaluation go that waits for it. -/
  | release
  /-- Give up the apply that waits for the quiet time. -/
  | cancelPending
  /-- Give up the requested apply of a number where it stands. -/
  | abort (number : Nat)
  /-- Do nothing. -/
  | look
  deriving DecidableEq, Repr

/-- Changes the inputs, which makes the quiet time start anew. -/
def edit (m : Machine) (f : Inputs → Inputs) : Machine :=
  let m := { m with inputs := f m.inputs }
  if m.settings.autoApply then { m with debouncer := m.debouncer.schedule m.now () } else m

/-- Lets the evaluation go that waits for it. -/
def release (m : Machine) : Machine × List Happening :=
  match m.flights.findIdx? (·.ending = .release) with
  | some i => m.land i
  | none => (m, [])

/-- Gives up the requested apply of a number. -/
def abort (m : Machine) (number : Nat) : Machine :=
  match m.flights.findIdx? (·.origin = .request number) with
  | some i => { m with flights := m.flights.eraseIdx i }.free
  | none => m

/-- Does what a step says, before anything happens by itself. -/
def perform (m : Machine) (evaluator : Evaluator) : Step → Machine × List Happening
  | .setInput d => (m.edit fun i => { i with input := d }, [])
  | .setQuery d => (m.edit fun i => { i with query := d }, [])
  | .setOutput kind => (m.edit fun i => { i with outputType := kind }, [])
  | .apply => { m with requests := m.requests + 1 }.start evaluator (.request m.requests)
  | .advance _ => (m, [])
  | .release => m.release
  | .cancelPending => ({ m with debouncer := m.debouncer.cancel }, [])
  | .abort number => (m.abort number, [])
  | .look => (m, [])

/-- The time after a step. -/
def timeAfter (m : Machine) : Step → Nat
  | .advance time => m.now + time
  | _ => m.now

/-- Does a step and makes everything happen that is due then. -/
def step (m : Machine) (evaluator : Evaluator) (s : Step) : Machine × List Happening :=
  let time := m.timeAfter s
  let (m, hs) := m.perform evaluator s
  let (m, more) := m.moveTo evaluator time
  (m, hs ++ more)

end Machine

end QueryPlayground.Coordinator
