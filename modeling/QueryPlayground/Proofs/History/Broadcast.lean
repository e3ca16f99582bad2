import QueryPlayground.History.Broadcast

/-!
# What subscribers to the channel get

Main statement: `Broadcast.drain_of_holds`.
-/

namespace QueryPlayground.History

namespace Broadcast

variable {b : Broadcast} {es : List Event} {next : Nat}

theorem drain_of_none (h : b.receive next = none) : b.drain next = [] := by
  unfold drain
  split
  next => rfl
  next h' => rw [h] at h'; cases h'

theorem drain_of_some {notice : Notice} {next' : Nat}
    (h : b.receive next = some (notice, next')) :
    b.drain next = notice :: b.drain next' := by
  rw [drain]
  split
  next h' => rw [h] at h'; cases h'
  next h' =>
    rw [h] at h'
    obtain ⟨rfl, rfl⟩ := Prod.mk.inj (Option.some.inj h')
    rfl

/-- The last of the events are in the slots of their numbers. -/
structure Holds (b : Broadcast) (es : List Event) : Prop where
  sent_eq : b.sent = es.length
  slot_eq : ∀ n < es.length, es.length ≤ n + Event.capacity → b.slots[slot n] = es[n]?

theorem holds_new : new.Holds [] where
  sent_eq := rfl
  slot_eq _ h := absurd h (Nat.not_lt_zero _)

theorem Holds.publish (h : b.Holds es) (e : Event) : (b.publish e).Holds (es ++ [e]) where
  sent_eq := by simp [Broadcast.publish, h.sent_eq]
  slot_eq n hn hroom := by
    rw [List.length_append, List.length_singleton] at hn hroom
    simp only [Broadcast.publish, h.sent_eq, Fin.getElem_fin, Vector.getElem_set]
    by_cases hlast : n = es.length
    · simp [hlast]
    · -- Two numbers share a slot only when they are at least a whole round apart.
      have hslot : (slot es.length : Nat) ≠ slot n := by
        simp only [slot, Event.capacity] at hroom ⊢
        omega
      rw [if_neg hslot, List.getElem?_append_left (by omega)]
      exact h.slot_eq n (by omega) (by omega)

/-- A subscriber that has not fallen behind by more than a round gets every event. -/
theorem drain_of_room (h : b.Holds es) (hroom : es.length ≤ next + Event.capacity) :
    b.drain next = (es.drop next).map Notice.recorded := by
  induction hleft : es.length - next generalizing next with
  | zero =>
    have hnone : b.receive next = none := if_pos (by rw [h.sent_eq]; omega)
    rw [drain_of_none hnone, List.drop_eq_nil_of_le (by omega), List.map_nil]
  | succ left ih =>
    have hlt : next < es.length := by omega
    have hsome : b.receive next = some (.recorded es[next], next + 1) := by
      have hnew : ¬ b.sent ≤ next := by rw [h.sent_eq]; omega
      have hlag : ¬ next + Event.capacity < b.sent := by rw [h.sent_eq]; omega
      rw [receive, if_neg hnew, if_neg hlag, h.slot_eq next hlt hroom, List.getElem?_eq_getElem hlt,
        Option.map_some]
    rw [drain_of_some hsome, ih (by omega) (by omega), List.drop_eq_getElem_cons hlt, List.map_cons]

/-- A subscriber that reads at the end what was published since it came is told first how many events
it has missed, where there were too many, and then gets the last ones. -/
theorem drain_of_holds (h : b.Holds es) (hnext : next ≤ es.length) :
    b.drain next = Event.notices (es.drop next) := by
  simp only [Event.notices, List.length_drop]
  split
  next hfits =>
    rw [drain_of_room h (by omega), hfits, List.drop_zero]
  next hmissed =>
    have hlag : b.receive next =
        some (.lagged (es.length - next - Event.capacity), es.length - Event.capacity) := by
      have hnew : ¬ b.sent ≤ next := by rw [h.sent_eq]; omega
      rw [receive, if_neg hnew, if_pos (by rw [h.sent_eq]; omega), h.sent_eq, Nat.sub_right_comm]
    -- Past the report the subscriber is exactly one round behind.
    rw [drain_of_some hlag, drain_of_room h (by omega), List.drop_drop]
    congr 4
    omega

end Broadcast

end QueryPlayground.History
