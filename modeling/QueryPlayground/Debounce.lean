/-!
# Debouncing

A debouncer holds at most one callback back until a quiet time has passed: scheduling another one
replaces it. `Timeline` runs a debouncer on a clock that moves only when told. A callback that has
started is out of the debouncer's reach: it ends when its work is done.

Between two operations everything happens that is due, so a callback without a quiet time starts before
the next operation. Operations in one go, in which such a callback could still be replaced, are not
covered.
-/

namespace QueryPlayground

/-! ## §1 The debouncer -/

/-- A callback and the time at which it starts. -/
structure Armed (α : Type) where
  /-- When it starts. -/
  due : Nat
  callback : α
  deriving Repr

/-- A debouncer of callbacks. -/
structure Debouncer (α : Type) where
  /-- The quiet time by default, in milliseconds. -/
  delay : Nat
  /-- The callback that waits. -/
  armed : Option (Armed α)
  deriving Repr

namespace Debouncer

variable {α : Type}

/-- A debouncer without a callback. -/
def new (delay : Nat) : Debouncer α :=
  ⟨delay, none⟩

/-- Holds a callback back for a time, in place of any other one. -/
def scheduleAfter (d : Debouncer α) (now delay : Nat) (callback : α) : Debouncer α :=
  { d with armed := some ⟨now + delay, callback⟩ }

/-- Holds a callback back for the quiet time, in place of any other one. -/
def schedule (d : Debouncer α) (now : Nat) (callback : α) : Debouncer α :=
  d.scheduleAfter now d.delay callback

/-- Gives up the callback that waits. -/
def cancel (d : Debouncer α) : Debouncer α :=
  { d with armed := none }

/-- Whether a callback waits. -/
def isPending (d : Debouncer α) : Bool :=
  d.armed.isSome

end Debouncer

/-! ## §2 Debounced work -/

/-- A piece of work that a callback does. -/
structure Work where
  label : Int
  /-- How long it takes, in milliseconds. -/
  duration : Nat
  deriving DecidableEq, Repr

/-- What happens to work. -/
inductive WorkEvent where
  | started (label : Int)
  | done (label : Int)
  deriving DecidableEq, Repr

/-- A time at which something happens; of one time the lower ticket comes first. -/
structure Timer where
  /-- When it happens. -/
  due : Nat
  /-- When it was set up, among all timers. -/
  ticket : Nat
  deriving DecidableEq, Repr

def Timer.isBefore (a b : Timer) : Bool :=
  a.due < b.due || (a.due == b.due && a.ticket < b.ticket)

/-- Something that is to happen. -/
inductive Pending where
  /-- The waiting work starts. -/
  | start (w : Work)
  /-- Running work is done. -/
  | done (label : Int)
  deriving DecidableEq, Repr

/-- A debouncer of work on a clock. -/
structure Timeline where
  /-- The clock, in milliseconds. -/
  now : Nat
  /-- The number of timers that were set up. -/
  tickets : Nat
  /-- The debouncer, until it is dropped; its work carries a ticket. -/
  debouncer : Option (Debouncer (Nat × Work))
  /-- The labels of running work, with the time when each is done. -/
  running : List (Timer × Int)
  deriving Repr

namespace Timeline

/-- A new debouncer at the beginning of time. -/
def new (delay : Nat) : Timeline :=
  ⟨0, 0, some (.new delay), []⟩

/-- Whether work waits, unless the debouncer was dropped. -/
def isPending? (t : Timeline) : Option Bool :=
  t.debouncer.map (·.isPending)

/-- The quiet time, unless the debouncer was dropped. -/
def delay? (t : Timeline) : Option Nat :=
  t.debouncer.map (·.delay)

/-- Everything that is to happen. -/
def agenda (t : Timeline) : List (Timer × Pending) :=
  ((t.debouncer.bind (·.armed)).map fun a => (⟨a.due, a.callback.1⟩, .start a.callback.2)).toList ++
    t.running.map fun r => (r.1, .done r.2)

/-- The first thing to happen. -/
def next? (t : Timeline) : Option (Timer × Pending) :=
  t.agenda.foldl
    (fun best p =>
      match best with
      | none => some p
      | some b => if p.1.isBefore b.1 then some p else some b)
    none

/-- Makes something happen at its time. -/
def happen (t : Timeline) (timer : Timer) (p : Pending) : Timeline × WorkEvent :=
  match p with
  | .done label => ({ t with running := t.running.filter (·.1 ≠ timer) }, .done label)
  | .start w =>
    let t := { t with debouncer := t.debouncer.map (·.cancel) }
    if w.duration = 0 then (t, .started w.label)
    else
      ({ t with
          tickets := t.tickets + 1
          running := t.running ++ [(⟨timer.due + w.duration, t.tickets⟩, w.label)] },
        .started w.label)

/-- Makes everything happen that is due by a time. -/
def runUntil (time : Nat) : Nat → Timeline → Timeline × List WorkEvent
  | 0, t => (t, [])
  | fuel + 1, t =>
    match t.next? with
    | none => (t, [])
    | some (timer, p) =>
      if time < timer.due then (t, [])
      else
        let (t, e) := t.happen timer p
        let (t, more) := runUntil time fuel t
        (t, e :: more)

/-- Moves the clock to a time and makes everything happen that is due by then. -/
def moveTo (t : Timeline) (time : Nat) : Timeline × List WorkEvent :=
  let (t, events) := runUntil time (t.agenda.length + 2) t
  ({ t with now := time }, events)

/-! ## §3 Steps -/

/-- What can be done with a debouncer. -/
inductive Step where
  /-- Schedule work after the quiet time. -/
  | schedule (w : Work)
  | scheduleAfter (delay : Nat) (w : Work)
  /-- Give up the waiting work. -/
  | cancel
  | drop
  /-- Let time pass. -/
  | advance (time : Nat)
  deriving Repr

/-- Schedules work after a time, by default the quiet time. -/
def schedule (t : Timeline) (delay : Option Nat) (w : Work) : Timeline :=
  match t.debouncer with
  | none => t
  | some d =>
    { t with
      tickets := t.tickets + 1
      debouncer := some (d.scheduleAfter t.now (delay.getD d.delay) (t.tickets, w)) }

/-- Does a step, without letting anything happen. -/
def apply (t : Timeline) : Step → Timeline
  | .schedule w => t.schedule none w
  | .scheduleAfter delay w => t.schedule (some delay) w
  | .cancel => { t with debouncer := t.debouncer.map (·.cancel) }
  | .drop => { t with debouncer := none }
  | .advance _ => t

/-- Does a step and makes everything happen that is due then. -/
def step (t : Timeline) (s : Step) : Timeline × List WorkEvent :=
  match s with
  | .advance time => t.moveTo (t.now + time)
  | s => (t.apply s).moveTo t.now

end Timeline

end QueryPlayground
