import QueryPlayground.History.Recorder

/-!
# The channel of the events

Events are published into a ring of slots, which has room for the last `Event.capacity` of them. A
subscriber keeps the number of the event to read next. Where the ring has gone past that number, the
subscriber is told how many events it has missed and goes on with the oldest one that is left.
-/

namespace QueryPlayground.History

/-- A channel of events. -/
structure Broadcast where
  slots : Vector (Option Event) Event.capacity
  /-- How many events have been published. -/
  sent : Nat

namespace Broadcast

def new : Broadcast :=
  ⟨Vector.replicate Event.capacity none, 0⟩

/-- The slot of the event of a number. -/
def slot (n : Nat) : Fin Event.capacity :=
  ⟨n % Event.capacity, Nat.mod_lt n (by decide)⟩

/-- Publishes an event, in the place of the one that went round the ring before it. -/
def publish (b : Broadcast) (e : Event) : Broadcast :=
  ⟨b.slots.set (slot b.sent) (some e), b.sent + 1⟩

/-- What a subscriber gets that has come to the event of a number, and the number after that. -/
def receive (b : Broadcast) (next : Nat) : Option (Notice × Nat) :=
  if b.sent ≤ next then none
  else if next + Event.capacity < b.sent then
    some (.lagged (b.sent - Event.capacity - next), b.sent - Event.capacity)
  else b.slots[slot next].map fun e => (.recorded e, next + 1)

theorem receive_advances {b : Broadcast} {next : Nat} {notice : Notice} {next' : Nat}
    (h : b.receive next = some (notice, next')) : next < next' ∧ next' ≤ b.sent := by
  unfold receive at h
  split at h
  next => cases h
  next hnew =>
    split at h
    next hlag =>
      obtain ⟨-, rfl⟩ := Prod.mk.inj (Option.some.inj h)
      omega
    next =>
      obtain ⟨e, -, he⟩ := Option.map_eq_some_iff.mp h
      obtain ⟨-, rfl⟩ := Prod.mk.inj he
      omega

/-- What a subscriber gets that reads until nothing is left. -/
def drain (b : Broadcast) (next : Nat) : List Notice :=
  match _h : b.receive next with
  | none => []
  | some (notice, next') => notice :: b.drain next'
termination_by b.sent - next
decreasing_by
  have := receive_advances _h
  omega

end Broadcast

end QueryPlayground.History
