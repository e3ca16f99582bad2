import QueryPlayground.History.Handle

/-!
# Recording what was applied

A recorder takes texts one after the other, records each through a handle, and publishes an event for
each one that was recorded. A failure to record is passed over. A subscriber that reads only at the
end sees the last `capacity` events and how many it missed.
-/

namespace QueryPlayground.History

/-! ## §1 Events -/

structure Record where
  /-- The history it belongs to. -/
  kind : HistoryKind
  content : String
  deriving DecidableEq, Repr

/-- What is published about a recorded text. -/
structure Event where
  kind : HistoryKind
  /-- The new entry, and the one that made room for it. -/
  insertion : Insertion
  deriving DecidableEq, Repr

/-- What a subscriber sees. -/
inductive Notice where
  /-- It missed some events. -/
  | lagged (count : Nat)
  | recorded (e : Event)
  deriving DecidableEq, Repr

namespace Event

/-- The most events that wait for a subscriber. -/
def capacity : Nat := 64

/-- What a subscriber sees that reads only after all events. -/
def notices (events : List Event) : List Notice :=
  let missed := events.length - capacity
  let kept := (events.drop missed).map Notice.recorded
  if missed = 0 then kept else .lagged missed :: kept

end Event

/-! ## §2 Recorders -/

/-- A recorder's handle with its place, and the events so far. -/
structure Recorder where
  handle : Handle
  disk : Disk
  /-- The events, in reverse. -/
  published : List Event
  deriving Repr

namespace Recorder

/-- A recorder that has recorded nothing. -/
def new (handle : Handle) (disk : Disk) : Recorder :=
  ⟨handle, disk, []⟩

/-- Records a text at a time of the clock. -/
def record (r : Recorder) (now : Int) (x : Record) : Recorder :=
  match r.handle.run r.disk (.insert x.kind x.content now) with
  | (.ok (.insertion (some i)), handle, disk) => ⟨handle, disk, ⟨x.kind, i⟩ :: r.published⟩
  | (_, handle, disk) => ⟨handle, disk, r.published⟩

/-- Records texts in order. -/
def recordAll (r : Recorder) (now : Int) (xs : List Record) : Recorder :=
  xs.foldl (fun r x => r.record now x) r

/-- The events in the order in which they were published. -/
def events (r : Recorder) : List Event :=
  r.published.reverse

/-- The error of a text that is sent to a recorder which has stopped. -/
def stoppedError : Error :=
  .custom "history recorder stopped"

end Recorder

end QueryPlayground.History
