import QueryPlayground.Evaluation

/-!
# The evaluation worker

One worker serves the calls of all clients, one at a time and in the order in which they were queued.
A call that is cancelled before the worker comes to it is skipped. A call that is cancelled or given
up while the engine runs lets the engine know, and the worker goes on to the next call once the engine
has returned. An engine that crashes takes the worker with it: that call and all later ones find no
evaluator.
-/

namespace QueryPlayground

/-! ## §1 Engines and calls -/

/-- What an engine does with a request. -/
inductive Reaction where
  /-- It comes to a result by itself. -/
  | returns (result : Except Error Document)
  /-- It goes on until it sees a cancellation, and then gives up. -/
  | stalls
  | crashes

/-- An engine, by its reaction to each request. -/
abbrev Engine := EvalRequest → Reaction

/-- The built-in evaluator, which never looks at cancellations. -/
def Engine.builtin : Engine :=
  fun r => .returns r.answer

/-- What a caller does after queueing a call. -/
inductive Patience where
  | waits
  /-- It has cancelled the call beforehand. -/
  | cancelledBefore
  /-- It cancels the call once the engine runs, and waits for the answer. -/
  | cancels
  /-- It gives up the call once the engine runs. -/
  | leaves
  deriving DecidableEq, Repr

structure Call where
  request : EvalRequest
  /-- What the caller does. -/
  patience : Patience
  deriving DecidableEq, Repr

/-- What a caller gets. -/
inductive Reply where
  | answered (result : Except Error Document)
  /-- Nothing, as it has given up. -/
  | abandoned
  /-- Nothing, as the engine never returns. -/
  | unanswered

/-! ## §2 The worker -/

/-- Whether a worker still serves calls. -/
inductive WorkerState where
  /-- It waits for a call. -/
  | ready
  /-- Its engine never returns. -/
  | stuck
  /-- Its engine has crashed. -/
  | dead
  deriving DecidableEq, Repr

structure Worker where
  /-- Whether it still serves calls. -/
  state : WorkerState
  /-- The requests on which the engine was entered, last one first. -/
  entered : List EvalRequest
  /-- Whether an engine has seen a cancellation. -/
  gaveUp : Bool
  deriving DecidableEq, Repr

namespace Worker

/-- A worker that has served no call. -/
def new : Worker :=
  ⟨.ready, [], false⟩

/-- How often the engine was entered. -/
def entries (w : Worker) : Nat :=
  w.entered.length

/-- The reply to a caller whose call has a result. -/
def replyTo (patience : Patience) (result : Except Error Document) : Reply :=
  match patience with
  | .leaves => .abandoned
  | _ => .answered result

def enter (w : Worker) (engine : Engine) (c : Call) : Reply × Worker :=
  let w := { w with entered := c.request :: w.entered }
  match engine c.request with
  | .returns result => (replyTo c.patience result, w)
  | .crashes => (replyTo c.patience (.error .evaluatorUnavailable), { w with state := .dead })
  | .stalls =>
    match c.patience with
    | .cancels | .leaves =>
      (replyTo c.patience (.error .evaluationCancelled), { w with gaveUp := true })
    | _ => (.unanswered, { w with state := .stuck })

def serve (w : Worker) (engine : Engine) (c : Call) : Reply × Worker :=
  match w.state with
  | .dead => (.answered (.error .evaluatorUnavailable), w)
  | .stuck => (.unanswered, w)
  | .ready =>
    if c.patience = .cancelledBefore then (.answered (.error .evaluationCancelled), w)
    else w.enter engine c

/-- Serves calls in the order in which they were queued. -/
def serveAll (w : Worker) (engine : Engine) : List Call → List Reply × Worker
  | [] => ([], w)
  | c :: cs =>
    let (reply, w) := w.serve engine c
    let (replies, w) := serveAll w engine cs
    (reply :: replies, w)

end Worker

end QueryPlayground
