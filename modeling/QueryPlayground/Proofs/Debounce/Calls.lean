import QueryPlayground.Debounce

/-!
# The calls that a debouncer lets start

What is done with a debouncer over time are moves: callbacks are scheduled, the one that waits is
given up, and time passes. A call stands if nothing replaces it or gives it up before it is due,
and it starts when it stands and its time has come. This says nothing of how a debouncer works;
`Debouncer.play` is a debouncer on a clock, which lets the waiting callback go when it is due.

Main statement: `Debouncer.play_of_idle`, a debouncer lets go the calls that start, each of them
once and when it is due, and what waits in it is the call that stands and is not due yet.
-/

namespace QueryPlayground.Debouncer

variable {α : Type}

/-! ## §1 Moves -/

/-- What is done with a debouncer. -/
inductive Move (α : Type) where
  /-- Schedule a callback after a time. -/
  | schedule (delay : Nat) (callback : α)
  /-- Give up the waiting callback. -/
  | cancel
  /-- Let time pass. -/
  | advance (time : Nat)

/-- Whether a move takes the place of a waiting callback, or gives it up. -/
def Move.Replaces : Move α → Prop
  | .advance _ => False
  | _ => True

/-- The time after moves. -/
def clockAfter (now : Nat) : List (Move α) → Nat
  | [] => now
  | .advance time :: rest => clockAfter (now + time) rest
  | _ :: rest => clockAfter now rest

theorem le_clockAfter (now : Nat) (ms : List (Move α)) : now ≤ clockAfter now ms := by
  induction ms generalizing now with
  | nil => exact Nat.le_refl now
  | cons m rest ih =>
    cases m with
    | advance time => exact Nat.le_trans (Nat.le_add_right now time) (ih (now + time))
    | schedule delay callback => exact ih now
    | cancel => exact ih now

/-! ## §2 Calls -/

/-- A callback that was scheduled. -/
structure Call (α : Type) where
  /-- When it was scheduled. -/
  time : Nat
  /-- How long it is held back. -/
  delay : Nat
  /-- The callback. -/
  callback : α
  /-- What is done with the debouncer afterwards. -/
  later : List (Move α)

namespace Call

/-- When the callback is to start. -/
def due (c : Call α) : Nat :=
  c.time + c.delay

/-- The time after everything that is done. -/
def finish (c : Call α) : Nat :=
  clockAfter c.time c.later

/-- Nothing takes the place of a call, or gives it up, before it is due. -/
def Stands (c : Call α) : Prop :=
  ∀ between m after, c.later = between ++ m :: after → m.Replaces →
    c.due ≤ clockAfter c.time between

/-- A call stands, and its time has come. -/
def Starts (c : Call α) : Prop :=
  c.Stands ∧ c.due ≤ c.finish

/-- A call stands, and its time has not come yet. -/
def Waits (c : Call α) : Prop :=
  c.Stands ∧ c.finish < c.due

end Call

/-- The calls that moves make, first one first. -/
def calls (now : Nat) : List (Move α) → List (Call α)
  | [] => []
  | .schedule delay callback :: rest => ⟨now, delay, callback, rest⟩ :: calls now rest
  | .cancel :: rest => calls now rest
  | .advance time :: rest => calls (now + time) rest

/-! ## §3 Deciding what stands -/

/-- Whether nothing takes the place of a waiting callback, or gives it up, before a time. Only the
first move that could do so matters, as the clock does not go back. -/
def isUndisturbed (due now : Nat) : List (Move α) → Bool
  | [] => true
  | .advance time :: rest => isUndisturbed due (now + time) rest
  | .schedule .. :: _ | .cancel :: _ => due ≤ now

/-- A move that replaces decides for those after it, since none of them comes before it. -/
private theorem le_iff_of_replaces {due now : Nat} {m : Move α} {rest : List (Move α)}
    (hm : m.Replaces) (hskip : ∀ ms, clockAfter now (m :: ms) = clockAfter now ms) :
    due ≤ now ↔ ∀ between m' after, m :: rest = between ++ m' :: after → m'.Replaces →
      due ≤ clockAfter now between := by
  constructor
  · rintro hle (_ | ⟨b, between⟩) m' after heq -
    · exact hle
    · obtain ⟨rfl, -⟩ := List.cons.inj heq
      rw [hskip]
      exact Nat.le_trans hle (le_clockAfter now between)
  · intro h
    exact h [] m rest rfl hm

theorem isUndisturbed_iff {due now : Nat} {ms : List (Move α)} :
    isUndisturbed due now ms = true ↔
      ∀ between m after, ms = between ++ m :: after → m.Replaces →
        due ≤ clockAfter now between := by
  -- By induction on the moves: the first one that replaces decides, whatever comes after it.
  induction ms generalizing now with
  | nil => simp [isUndisturbed]
  | cons m rest ih =>
    cases m with
    | schedule delay callback =>
      rw [isUndisturbed, decide_eq_true_iff]
      exact le_iff_of_replaces trivial fun _ => rfl
    | cancel =>
      rw [isUndisturbed, decide_eq_true_iff]
      exact le_iff_of_replaces trivial fun _ => rfl
    | advance time =>
      rw [isUndisturbed, ih]
      constructor
      · rintro h (_ | ⟨b, between⟩) m' after heq hm
        · -- Time that passes replaces nothing.
          obtain ⟨rfl, -⟩ := List.cons.inj heq
          exact hm.elim
        · obtain ⟨rfl, rfl⟩ := List.cons.inj heq
          exact h between m' after rfl hm
      · rintro h between m' after rfl hm
        exact h (.advance time :: between) m' after rfl hm

namespace Call

instance (c : Call α) : Decidable c.Stands :=
  decidable_of_iff (isUndisturbed c.due c.time c.later = true) isUndisturbed_iff

instance (c : Call α) : Decidable c.Starts :=
  inferInstanceAs (Decidable (_ ∧ _))

instance (c : Call α) : Decidable c.Waits :=
  inferInstanceAs (Decidable (_ ∧ _))

end Call

/-- A call is one of the moves, made when its turn has come. -/
theorem exists_of_mem_calls {now : Nat} {ms : List (Move α)} {c : Call α} (h : c ∈ calls now ms) :
    ∃ before, ms = before ++ .schedule c.delay c.callback :: c.later ∧
      c.time = clockAfter now before := by
  -- By induction on the moves: the clock that a call is made at has gone on by those before it.
  induction ms generalizing now with
  | nil => cases h
  | cons m rest ih =>
    cases m with
    | schedule delay callback =>
      rcases List.mem_cons.mp h with rfl | h
      · exact ⟨[], rfl, rfl⟩
      · obtain ⟨before, rfl, htime⟩ := ih h
        exact ⟨.schedule delay callback :: before, rfl, htime⟩
    | cancel =>
      obtain ⟨before, rfl, htime⟩ := ih h
      exact ⟨.cancel :: before, rfl, htime⟩
    | advance time =>
      obtain ⟨before, rfl, htime⟩ := ih h
      exact ⟨.advance time :: before, rfl, htime⟩

/-- A call that stands is due before a later one is made. -/
theorem pairwise_calls (now : Nat) (ms : List (Move α)) :
    (calls now ms).Pairwise fun c c' => c.Stands → c.due ≤ c'.time := by
  induction ms generalizing now with
  | nil => exact .nil
  | cons m rest ih =>
    cases m with
    | schedule delay callback =>
      refine List.pairwise_cons.mpr ⟨fun c' hc' hstands => ?_, ih now⟩
      -- A later call is a move that takes the place of this one.
      obtain ⟨between, heq, htime⟩ := exists_of_mem_calls hc'
      rw [htime]
      exact hstands between _ _ heq trivial
    | cancel => exact ih now
    | advance time => exact ih (now + time)

/-! ## §4 Debouncers on a clock -/

/-- Does a move at a time. The result is the time after it and the debouncer. -/
def act (now : Nat) (d : Debouncer α) : Move α → Nat × Debouncer α
  | .schedule delay callback => (now, d.scheduleAfter now delay callback)
  | .cancel => (now, d.cancel)
  | .advance time => (now + time, d)

/-- Lets the waiting callback go if it is due. -/
def lapse (now : Nat) (d : Debouncer α) : List (Armed α) × Debouncer α :=
  match d.armed with
  | some a => if a.due ≤ now then ([a], d.cancel) else ([], d)
  | none => ([], d)

/-- Does moves in order, and after each one lets the waiting callback go if it is due. -/
def play (now : Nat) (d : Debouncer α) : List (Move α) → List (Armed α) × Debouncer α
  | [] => ([], d)
  | m :: rest =>
    let (now, d) := d.act now m
    let (gone, d) := d.lapse now
    let (more, d) := play now d rest
    (gone ++ more, d)

theorem play_cons (now : Nat) (d : Debouncer α) (m : Move α) (rest : List (Move α)) :
    d.play now (m :: rest) =
      let (now', d') := d.act now m
      ((d'.lapse now').1 ++ ((d'.lapse now').2.play now' rest).1,
        ((d'.lapse now').2.play now' rest).2) :=
  rfl

theorem clockAfter_append (now : Nat) (ms ms' : List (Move α)) :
    clockAfter now (ms ++ ms') = clockAfter (clockAfter now ms) ms' := by
  induction ms generalizing now with
  | nil => rfl
  | cons m rest ih => cases m <;> exact ih _

theorem play_append (now : Nat) (d : Debouncer α) (ms ms' : List (Move α)) :
    d.play now (ms ++ ms') =
      ((d.play now ms).1 ++ ((d.play now ms).2.play (clockAfter now ms) ms').1,
        ((d.play now ms).2.play (clockAfter now ms) ms').2) := by
  induction ms generalizing now d with
  | nil => rfl
  | cons m rest ih =>
    have hclock : clockAfter (d.act now m).1 rest = clockAfter now (m :: rest) := by
      cases m <;> rfl
    simp only [List.cons_append, play_cons, ih, hclock, List.append_assoc]

theorem lapse_of_lt {now : Nat} {d : Debouncer α} (h : ∀ a, d.armed = some a → now < a.due) :
    d.lapse now = ([], d) := by
  unfold lapse
  split
  next a ha => rw [if_neg (Nat.not_le.mpr (h a ha))]
  next => rfl

theorem lt_due_of_lapse {now : Nat} {d : Debouncer α} {a : Armed α}
    (h : (d.lapse now).2.armed = some a) : now < a.due := by
  unfold lapse at h
  split at h
  next b hb =>
    split at h
    next => cases h
    next hlt =>
      rw [hb] at h
      obtain rfl := Option.some.inj h
      exact Nat.lt_of_not_le hlt
  next hnone =>
    rw [hnone] at h
    cases h

/-! ## §5 What becomes of a waiting callback -/

/-- A waiting callback starts before moves are over. -/
def Goes (now : Nat) (ms : List (Move α)) (a : Armed α) : Prop :=
  isUndisturbed a.due now ms = true ∧ a.due ≤ clockAfter now ms

/-- A waiting callback still waits after moves. -/
def Stays (now : Nat) (ms : List (Move α)) (a : Armed α) : Prop :=
  isUndisturbed a.due now ms = true ∧ clockAfter now ms < a.due

instance (now : Nat) (ms : List (Move α)) : DecidablePred (Goes now ms) :=
  fun _ => inferInstanceAs (Decidable (_ ∧ _))

instance (now : Nat) (ms : List (Move α)) : DecidablePred (Stays now ms) :=
  fun _ => inferInstanceAs (Decidable (_ ∧ _))

/-- What is due goes, whatever is done then. -/
theorem goes_of_le {now : Nat} {a : Armed α} (h : a.due ≤ now) (ms : List (Move α)) :
    Goes now ms a := by
  refine ⟨isUndisturbed_iff.mpr fun between _ _ _ _ => ?_, Nat.le_trans h (le_clockAfter now ms)⟩
  exact Nat.le_trans h (le_clockAfter now between)

theorem not_stays_of_le {now : Nat} {a : Armed α} (h : a.due ≤ now) (ms : List (Move α)) :
    ¬ Stays now ms a :=
  fun hs => Nat.not_le.mpr hs.2 (Nat.le_trans h (le_clockAfter now ms))

/-- A lapse lets go what would go anyway. -/
theorem lapse_goes (now : Nat) (d : Debouncer α) (ms : List (Move α)) :
    (d.lapse now).1 ++ (d.lapse now).2.armed.toList.filter (Goes now ms ·) =
      d.armed.toList.filter (Goes now ms ·) := by
  unfold lapse
  cases ha : d.armed with
  | none => simp [ha]
  | some a =>
    by_cases hle : a.due ≤ now
    · simp [hle, cancel, goes_of_le hle ms]
    · simp [hle, ha]

/-- A lapse keeps what would stay anyway. -/
theorem lapse_stays (now : Nat) (d : Debouncer α) (ms : List (Move α)) :
    (d.lapse now).2.armed.toList.filter (Stays now ms ·) =
      d.armed.toList.filter (Stays now ms ·) := by
  unfold lapse
  cases ha : d.armed with
  | none => simp [ha]
  | some a =>
    by_cases hle : a.due ≤ now
    · simp [hle, cancel, not_stays_of_le hle ms]
    · simp [hle, ha]

namespace Call

/-- The waiting callback of a call. -/
def armed (c : Call α) : Armed α :=
  ⟨c.due, c.callback⟩

theorem goes_armed_iff (c : Call α) : Goes c.time c.later c.armed ↔ c.Starts :=
  and_congr_left' isUndisturbed_iff

theorem stays_armed_iff (c : Call α) : Stays c.time c.later c.armed ↔ c.Waits :=
  and_congr_left' isUndisturbed_iff

end Call

/-! ## §6 What starts and what waits -/

/-- What is done with a waiting callback that is not due yet is done to nothing else. -/
theorem filter_armed_eq_nil {now : Nat} {d : Debouncer α} {p : Armed α → Prop} [DecidablePred p]
    (hp : ∀ a, p a → a.due ≤ now) (hd : ∀ a, d.armed = some a → now < a.due) :
    d.armed.toList.filter (p ·) = [] := by
  refine List.filter_eq_nil_iff.mpr fun a ha => ?_
  have hlt := hd a (Option.mem_toList.mp ha)
  rw [decide_eq_true_iff]
  exact fun h => Nat.not_le.mpr hlt (hp a h)

/-- The callback of a new call is the first one of the calls. -/
theorem filter_armed_append {p : Armed α → Prop} {q : Call α → Prop} [DecidablePred p]
    [DecidablePred q] {c : Call α} (h : p c.armed ↔ q c) (cs : List (Call α)) :
    [c.armed].filter (p ·) ++ (cs.filter (q ·)).map (·.armed) =
      ((c :: cs).filter (q ·)).map (·.armed) := by
  by_cases hq : q c <;> simp [h, hq]

/-- What a debouncer lets go: the callback that waits in it, if that is undisturbed, and then the
calls that start. -/
theorem play_fst {now : Nat} {d : Debouncer α} (ms : List (Move α))
    (hd : ∀ a, d.armed = some a → now < a.due) :
    (d.play now ms).1 =
      d.armed.toList.filter (Goes now ms ·) ++
        ((calls now ms).filter (·.Starts)).map (·.armed) := by
  -- By induction on the moves, for any debouncer whose waiting callback is not due yet. That a
  -- lapse leaves none that is due makes the induction go through.
  induction ms generalizing now d with
  | nil =>
    rw [filter_armed_eq_nil (fun a h => h.2) hd]
    rfl
  | cons m rest ih =>
    rw [play_cons]
    dsimp only
    rw [ih fun a => lt_due_of_lapse, ← List.append_assoc, lapse_goes]
    cases m with
    | schedule delay callback =>
      -- What waited is replaced before it is due, and the new callback waits in its place.
      rw [filter_armed_eq_nil (fun a h => of_decide_eq_true h.1) hd]
      exact filter_armed_append (c := ⟨now, delay, callback, rest⟩) (Call.goes_armed_iff _) _
    | cancel =>
      rw [filter_armed_eq_nil (fun a h => of_decide_eq_true h.1) hd]
      rfl
    | advance time => rfl

/-- What waits in a debouncer in the end: the callback that waits in it, if that stays, or the call
that waits. -/
theorem play_snd {now : Nat} {d : Debouncer α} (ms : List (Move α))
    (hd : ∀ a, d.armed = some a → now < a.due) :
    (d.play now ms).2.armed.toList =
      d.armed.toList.filter (Stays now ms ·) ++
        ((calls now ms).filter (·.Waits)).map (·.armed) := by
  -- By induction on the moves. A schedule or a cancel does away with what was armed, which by then
  -- has not fired, and time that passes does so with what is due.
  induction ms generalizing now d with
  | nil =>
    have hall : d.armed.toList.filter (Stays now [] ·) = d.armed.toList := by
      refine List.filter_eq_self.mpr fun a ha => ?_
      rw [decide_eq_true_iff]
      exact ⟨rfl, hd a (Option.mem_toList.mp ha)⟩
    rw [hall]
    exact (List.append_nil _).symm
  | cons m rest ih =>
    rw [play_cons]
    dsimp only
    rw [ih fun a => lt_due_of_lapse, lapse_stays]
    cases m with
    | schedule delay callback =>
      rw [filter_armed_eq_nil (fun a h => of_decide_eq_true h.1) hd]
      exact filter_armed_append (c := ⟨now, delay, callback, rest⟩) (Call.stays_armed_iff _) _
    | cancel =>
      rw [filter_armed_eq_nil (fun a h => of_decide_eq_true h.1) hd]
      rfl
    | advance time => rfl

/-- A debouncer in which nothing waits lets go the calls that start, each of them once and as of the
time when it is due, and in the end the call that waits is in it. -/
theorem play_of_idle (now : Nat) {d : Debouncer α} (hd : d.armed = none) (ms : List (Move α)) :
    (d.play now ms).1 = ((calls now ms).filter (·.Starts)).map (·.armed) ∧
      (d.play now ms).2.armed.toList = ((calls now ms).filter (·.Waits)).map (·.armed) := by
  have hnone : ∀ a, d.armed = some a → now < a.due := by simp [hd]
  rw [play_fst ms hnone, play_snd ms hnone, hd]
  exact ⟨rfl, rfl⟩

/-- Something waits in the debouncer in the end just if a call waits. -/
theorem isPending_play (now : Nat) {d : Debouncer α} (hd : d.armed = none) (ms : List (Move α)) :
    (d.play now ms).2.isPending = true ↔ ∃ c ∈ calls now ms, c.Waits := by
  have hwaits := (play_of_idle now hd ms).2
  cases harmed : (d.play now ms).2.armed with
  | none =>
    rw [harmed, Option.toList_none, eq_comm, List.map_eq_nil_iff, List.filter_eq_nil_iff] at hwaits
    simpa [isPending, harmed] using hwaits
  | some a =>
    have ha : a ∈ ((calls now ms).filter (·.Waits)).map (·.armed) := by simp [← hwaits, harmed]
    obtain ⟨c, hc, -⟩ := List.mem_map.mp ha
    simpa [isPending, harmed] using ⟨c, by simpa using hc⟩

end QueryPlayground.Debouncer
