import QueryPlayground.History.Broadcast

/-!
# A recorder at work

Texts are handed to a recorder through any number of sinks, which do not wait for the store. They
stand in a queue from which the recorder's task takes one after the other; it puts each into the store
and publishes what came of it. The task stops when nothing is left in the queue and every sink is
gone, and whoever joins the recorder waits for that.
-/

namespace QueryPlayground.History

/-- The event of a text that was put in with an answer. -/
def Event.of? (x : Record) : Except Error Answer → Option Event
  | .ok (.insertion (some i)) => some ⟨x.kind, i⟩
  | _ => none

/-- What the task of a recorder is at. -/
inductive Stage where
  | idle
  -- The text is out of the queue, and the store may take its time.
  | writing (x : Record)
  | stopped

def Stage.text? : Stage → Option Record
  | .writing x => some x
  | .idle | .stopped => none

/-- A recorder at work. -/
structure Relay where
  sinks : Nat
  waiting : List Record
  stage : Stage
  handle : Handle
  disk : Disk
  channel : Broadcast
  -- The rest is what has happened so far, and decides nothing.
  /-- The texts that were handed over, with the answers to that. -/
  calls : List (Record × Except Error Unit)
  /-- The texts that were put into the store, with the times of that. -/
  written : List (Int × Record)
  published : List Event

namespace Relay

/-- What can happen next. -/
inductive Act where
  -- What is done with one of the sinks.
  | record (x : Record)
  | clone
  | drop
  -- The task has its turn, at a time of the clock.
  | work (now : Int)

def Act.isWork : Act → Bool
  | .work _ => true
  | .record _ | .clone | .drop => false

/-- A recorder that has just started, with its first sink. -/
def new (handle : Handle) (disk : Disk) : Relay :=
  ⟨1, [], .idle, handle, disk, .new, [], [], []⟩

/-- Hands a text over. -/
def record (s : Relay) (x : Record) : Relay :=
  match s.stage with
  -- The queue has gone with the task.
  | .stopped => { s with calls := s.calls ++ [(x, .error Recorder.stoppedError)] }
  | .idle | .writing _ =>
    { s with waiting := s.waiting ++ [x], calls := s.calls ++ [(x, .ok ())] }

def publish (s : Relay) (e : Event) : Relay :=
  { s with channel := s.channel.publish e, published := s.published ++ [e] }

/-- Puts a text into the store, and publishes the event if there is one. -/
def write (s : Relay) (now : Int) (x : Record) : Relay :=
  let (answer, handle, disk) := s.handle.run s.disk (.insert x.kind x.content now)
  let s := { s with
    stage := .idle, handle := handle, disk := disk, written := s.written ++ [(now, x)] }
  (Event.of? x answer).elim s s.publish

/-- What the task does with its turn. -/
def work (s : Relay) (now : Int) : Relay :=
  match s.stage with
  | .stopped => s
  | .writing x => s.write now x
  | .idle =>
    match s.waiting with
    | x :: rest => { s with stage := .writing x, waiting := rest }
    | [] => if s.sinks = 0 then { s with stage := .stopped } else s

/-- Lets something happen. Without a sink nothing can be handed over, and no sink be copied. -/
def act (s : Relay) : Act → Relay
  | .record x => if s.sinks = 0 then s else s.record x
  | .clone => if s.sinks = 0 then s else { s with sinks := s.sinks + 1 }
  | .drop => { s with sinks := s.sinks - 1 }
  | .work now => s.work now

def actAll (s : Relay) (acts : List Act) : Relay :=
  acts.foldl act s

end Relay

end QueryPlayground.History
