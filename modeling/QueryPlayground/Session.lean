import QueryPlayground.Command
import QueryPlayground.Configuration
import QueryPlayground.History.Recorder
import QueryPlayground.Worker

/-!
# Sessions

A session is a coordinator with the evaluator and the history of a configuration. Every query that
was applied is sent to the recorder of the history, which takes what was sent one after the other, at
times of its own; a history that cannot be used keeps nothing from being applied. A session is closed
once the recorder has taken everything, and closing it closes its handle on the history.

The worker of the evaluator answers in its own time as well. `send` and `request` are for a worker that
answers before anything else happens, and they leave the recorder alone; `step` and `apply` are the same
for a recorder that keeps up. A session whose worker and recorder take as long as they like goes on by
events, in any order.
-/

namespace QueryPlayground

open QueryPlayground.Program (Launcher)

/-! ## §1 What a configuration says -/

def Configuration.Apply.settings (a : Configuration.Apply) : Coordinator.Settings :=
  ⟨a.autoApply, a.debounceMs, a.indent, a.timeout?⟩

def Configuration.Store.limits (s : Configuration.Store) : History.Limits :=
  ⟨s.maxEntries, s.maxEntrySize⟩

/-- What a worker does with a request whose caller waits: it answers after the time that it takes, or
never. A caller that cancels waits for the answer all the same. -/
def Worker.evaluator (w : Worker) (engine : Engine) (wait : Coordinator.Wait) :
    Coordinator.Evaluator := fun r =>
  match (w.serve engine ⟨r, .waits⟩).1 with
  | .answered result => ⟨wait, true, result⟩
  | .abandoned | .unanswered => ⟨.gate, true, .error .evaluatorUnavailable⟩

/-- The built-in evaluator, behind a worker. -/
def builtinEvaluator : Coordinator.Wait → Coordinator.Evaluator :=
  Worker.new.evaluator .builtin

/-- The evaluator. A command takes the time that its program says. -/
def Configuration.Evaluator.start (launch : Launcher) (e : Configuration.Evaluator) :
    Coordinator.Wait → Coordinator.Evaluator :=
  match e.engine with
  | .builtin => builtinEvaluator
  | .command => fun _ => (Command.mk e.program e.args).evaluator launch

/-! ## §2 Sessions -/

structure Session where
  /-- The evaluator, for a worker that takes some time. -/
  evaluator : Coordinator.Wait → Coordinator.Evaluator
  coordinator : Coordinator.Machine
  /-- The texts that were sent to the recorder, first one first. -/
  sent : List History.Record
  /-- How many of them the recorder has taken. -/
  taken : Nat
  recorder : History.Recorder

namespace Session

open QueryPlayground.Coordinator

/-- A session of its parts; `records` says whether what was applied is recorded. -/
def assemble (evaluator : Wait → Evaluator) (settings : Settings) (records : Bool)
    (handle : History.Handle) (disk : History.Disk) : Session :=
  ⟨evaluator, .new settings records, [], 0, .new handle disk⟩

/-- Opens a session, where the history has its place on a disk. -/
def start (launch : Launcher) (c : Configuration) (disk : History.Disk) : Except Error Session :=
  match c.validate with
  | .error e => .error e
  | .ok () =>
    .ok (assemble (c.evaluator.start launch) c.apply.settings true (.new c.store.limits) disk)

/-! ## §3 Applying -/

/-- The texts among what happened that are to be recorded. -/
def records (hs : List Happening) : List History.Record :=
  hs.filterMap fun
    | .recorded kind content => some ⟨kind, content⟩
    | _ => none

/-- How the requested apply of a number ended, if it did among what happened. -/
def outcome? (number : Nat) (hs : List Happening) : Option Outcome :=
  hs.findSome? fun
    | .finished n outcome => if n = number then some outcome else none
    | _ => none

/-- The session once its coordinator has gone on, which sends what is to be recorded. -/
def follow (s : Session) (after : Machine × List Happening) : Session × List Happening :=
  ({ s with coordinator := after.1, sent := s.sent ++ records after.2 }, after.2)

/-- Does a step of the coordinator, whose worker answers before anything else happens. -/
def send (s : Session) (what : Machine.Step) : Session × List Happening :=
  s.follow (s.coordinator.step (s.evaluator .none) what)

/-- Lets time pass until no evaluation is in progress, with at most as many steps as the fuel. -/
def awaitIdle : Nat → Session → Session × List Happening
  | 0, s => (s, [])
  | fuel + 1, s =>
    if s.coordinator.phase = .idle then (s, [])
    else
      match s.coordinator.next? with
      | none => (s, [])
      | some (time, _) =>
        let (s, hs) := s.send (.advance (time - s.coordinator.now))
        let (s, more) := awaitIdle fuel s
        (s, hs ++ more)

/-- How often time has to pass until an evaluation that can end has ended. -/
def patience : Nat := 8

/-- Applies the inputs and waits for the end; there is none if the evaluation never ends. -/
def request (s : Session) : Session × List Happening × Option Outcome :=
  let number := s.coordinator.requests
  let (s, hs) := s.send .apply
  match outcome? number hs with
  | some o => (s, hs, some o)
  | none =>
    -- The apply has started, or it would have been dropped, and its evaluation is in progress.
    let (s, more) := awaitIdle patience s
    (s, hs ++ more, outcome? number more)

/-! ## §4 Recording -/

/-- The recorder takes the next text that was sent, if there is one. What is taken is recorded at the
reading of the clock on the wall that belongs to its position among all texts. -/
def write (clock : Nat → Int) (s : Session) : Session :=
  match s.sent[s.taken]? with
  | none => s
  | some x => { s with taken := s.taken + 1, recorder := s.recorder.record (clock s.taken) x }

/-- The recorder takes texts as often as the number says. -/
def writeMany (clock : Nat → Int) : Nat → Session → Session
  | 0, s => s
  | n + 1, s => writeMany clock n (s.write clock)

/-- Waits until the recorder has taken everything that was sent. -/
def join (clock : Nat → Int) (s : Session) : Session :=
  s.writeMany clock (s.sent.length - s.taken)

/-- Does a step at a time of the clock on the wall, and waits for the recorder. -/
def step (s : Session) (now : Int) (what : Machine.Step) : Session × List Happening :=
  let (s, hs) := s.send what
  (s.join fun _ => now, hs)

/-- Applies the inputs at a time of the clock on the wall, and waits for the recorder. -/
def apply (s : Session) (now : Int) : Session × Option Outcome :=
  let (s, _, outcome) := s.request
  (s.join fun _ => now, outcome)

/-! ## §5 Events

Nothing is said of the order of events or of the time between them, except that no evaluation takes too
long. -/

/-- What happens to a session. The worker answers at a release. -/
inductive Event where
  /-- A step of the coordinator, before anything happens by itself. -/
  | step (what : Machine.Step)
  | quiet
  /-- The recorder takes the next text. -/
  | write
  deriving DecidableEq, Repr

/-- Makes an event happen. Where no quiet time has begun, none is over. -/
def act (clock : Nat → Int) (s : Session) : Event → Session × List Happening
  | .step what =>
    let (m, hs) := s.coordinator.perform (s.evaluator .gate) what
    s.follow ({ m with now := s.coordinator.timeAfter what }, hs)
  | .quiet =>
    match s.coordinator.debouncer.armed with
    | some armed =>
      let m := { s.coordinator with now := max s.coordinator.now armed.due }
      s.follow (m.happen (s.evaluator .gate) .quiet)
    | none => (s, [])
  | .write => (s.write clock, [])

/-- Makes events happen in order. -/
def actAll (clock : Nat → Int) (s : Session) : List Event → Session × List Happening
  | [] => (s, [])
  | e :: rest =>
    let (s, hs) := s.act clock e
    let (s, more) := actAll clock s rest
    (s, hs ++ more)

/-- How the requested applies among what happened ended, each with its number. -/
def answers (hs : List Happening) : List (Nat × Outcome) :=
  hs.filterMap fun
    | .finished number outcome => some (number, outcome)
    | _ => none

/-! ## §6 The end -/

/-- Comes to an end: an apply that waits for the quiet time is given up, one in progress goes on to its
end, and the recorder takes everything that was sent. -/
def finish (clock : Nat → Int) (s : Session) : Session :=
  (s.actAll clock [.step .cancelPending, .step .release]).1.join clock

def history (s : Session) : History.Handle × History.Disk :=
  (s.recorder.handle, s.recorder.disk)

/-- Closes the session, whose recorder has taken everything; what is left are the closed handle and
its place. -/
def close (s : Session) : History.Handle × History.Disk :=
  (s.recorder.handle.close, s.recorder.disk)

end Session

end QueryPlayground
