import QueryPlayground.Proofs.Coordinator.Clock

/-!
# One evaluation at a time

What keeps other applies out, the evaluations in progress and the line that the view shows about them
are changed at different times, and agree whenever nothing is left that is due. An apply that is asked
for then either meets an evaluation in progress and is dropped without a trace, or calls the evaluator
once, whatever the inputs are.

Main statement: `Machine.single_flight`.
-/

namespace QueryPlayground.Coordinator

namespace Machine

/-! ## §1 Calls of the evaluator -/

/-- The calls of the evaluator, with the line that the view shows at each of them. -/
def calls (hs : List Happening) : List (EvalRequest × Option String) :=
  hs.filterMap fun
    | .called request loading => some (request, loading)
    | _ => none

theorem calls_append (hs more : List Happening) : calls (hs ++ more) = calls hs ++ calls more :=
  List.filterMap_append

/-- The end of an apply calls nobody. -/
theorem conclude_calls (m : Machine) (origin : Origin) (inputs : Inputs)
    (result : Except Error Document) : calls (m.conclude origin inputs result).2 = [] := by
  cases result with
  | error e => cases origin <;> rfl
  | ok d =>
    cases hrec : m.records <;> cases origin <;> simp [conclude, report, calls, hrec]

theorem land_calls (m : Machine) (i : Nat) : calls (m.land i).2 = [] := by
  unfold land
  split
  next => exact conclude_calls _ _ _ _
  next => rfl

theorem expire_calls (m : Machine) (i time : Nat) : calls (m.expire i time).2 = [] := by
  unfold expire
  split
  next =>
    dsimp only
    split
    next => rfl
    next => exact land_calls _ _
  next => rfl

/-- An apply that is not kept out calls the evaluator once, on the inputs of its time. -/
theorem start_calls {m : Machine} (hbusy : m.busy = false) (evaluator : Evaluator)
    (origin : Origin) :
    calls (m.start evaluator origin).2 =
      [(m.inputs.request m.settings.indent, some m.inputs.loadingText)] := by
  unfold start
  simp only [hbusy, Bool.false_eq_true, if_false]
  split
  · rw [calls_append, conclude_calls]
    rfl
  · rw [calls_append, conclude_calls]
    rfl
  · rfl
  · rfl

/-- Until a quiet time is over the evaluator is not called by itself. -/
theorem runUntil_calls (evaluator : Evaluator) (time fuel : Nat) {m : Machine}
    (hquiet : ∀ a, m.debouncer.armed = some a → time < a.due) :
    calls (m.runUntil evaluator time fuel).2 = [] := by
  induction fuel generalizing m with
  | zero => rfl
  | succ fuel ih =>
    unfold runUntil
    split
    next => rfl
    next t due hnext =>
      split
      next => rfl
      next hle =>
        rw [calls_append]
        -- Evaluations that end or take too long call nobody and leave the quiet time alone.
        rcases next?_cases hnext with ⟨i, f, -, -, rfl⟩ | ⟨i, f, -, -, rfl⟩ | ⟨a, ha, rfl, -⟩
        · rw [happen, land_calls, ih]
          · rfl
          · rw [land_debouncer]
            exact hquiet
        · rw [happen, expire_calls, ih]
          · rfl
          · rw [expire_debouncer]
            exact hquiet
        · exact absurd (hquiet a ha) hle

/-! ## §2 Between steps -/

theorem stepAll_quiescent {m : Machine} {r : Reading} (h : m.Tracks r) (hq : m.Quiescent m.now)
    (run : List (Evaluator × Step)) :
    (m.stepAll run).1.Quiescent (m.stepAll run).1.now := by
  induction run generalizing m r with
  | nil => exact hq
  | cons x rest ih =>
    obtain ⟨r', -, htracks⟩ := step_tracks h x.1 x.2
    exact ih htracks (step_quiescent x.1 x.2 h)

theorem new_quiescent (settings : Settings) (records : Bool) (time : Nat) :
    (new settings records).Quiescent time := by
  intro t due h
  cases h

/-- What keeps others out, the evaluations in progress and the line in the view agree. -/
theorem Tracks.phase_iff {m : Machine} {r : Reading} (h : m.Tracks r) :
    m.running ≤ 1 ∧ (m.phase = .applying ↔ m.running = 1) ∧
      (m.running = 1 ↔ m.view.loading.isSome = true) ∧
      (m.phase = .applying ↔ ∃ origin inputs, r.progress = .called origin inputs) := by
  have hshows := h.shows
  cases hp : r.progress with
  | idle =>
    rw [hp] at hshows
    obtain ⟨hflights, hbusy, hloading⟩ := hshows
    simp [phase, running, hflights, hbusy, hloading]
  | started o i =>
    rw [hp] at hshows
    exact hshows.elim
  | called o i =>
    rw [hp] at hshows
    obtain ⟨f, hflights, -, -, hbusy, hloading⟩ := hshows
    simp [phase, running, hflights, hbusy, hloading]

/-- An apply that is asked for while another one is in progress is dropped and leaves no trace. -/
theorem step_apply_of_applying {m : Machine} (hq : m.Quiescent m.now)
    (hphase : m.phase = .applying) (evaluator : Evaluator) :
    m.step evaluator .apply =
      ({ m with requests := m.requests + 1 }, [.finished m.requests .dropped]) := by
  have hbusy : m.busy = true := by
    unfold phase at hphase
    split at hphase
    next h => exact h
    next => cases hphase
  have hperform : m.perform evaluator .apply =
      ({ m with requests := m.requests + 1 }, [.finished m.requests .dropped]) := by
    simp only [perform, start, hbusy, if_true, report]
  -- Nothing was due before the request, and the request makes nothing due.
  have hmove := moveTo_of_quiescent evaluator (m := { m with requests := m.requests + 1 }) hq
  simp only [step, timeAfter, hperform, hmove, List.append_nil]

/-- An apply that is asked for while none is in progress calls the evaluator once. -/
theorem step_apply_calls_of_idle {m : Machine} (hq : m.Quiescent m.now)
    (hphase : m.phase = .idle) (evaluator : Evaluator) :
    calls (m.step evaluator .apply).2 =
      [(m.inputs.request m.settings.indent, some m.inputs.loadingText)] := by
  have hbusy : m.busy = false := by
    unfold phase at hphase
    split at hphase
    next => cases hphase
    next h => exact Bool.eq_false_iff.mpr h
  -- One call comes of the start, and none of what happens by itself after it.
  have hstart := start_calls (m := { m with requests := m.requests + 1 }) hbusy evaluator
    (.request m.requests)
  simp only [step, perform, moveTo, timeAfter]
  rw [calls_append, hstart, runUntil_calls]
  · rfl
  · -- The quiet time that may be running is not over yet.
    intro a ha
    rw [start_debouncer] at ha
    exact hq.lt_due ha

/-! ## §3 Runs -/

/-- After every run, with whatever settings and evaluators: nothing that is due is left; at most one
evaluation is in progress, and one is exactly if others are kept out and exactly if the view has a
line about it; another apply is then dropped with no call and no change of what is shown or recorded,
and otherwise calls the evaluator once. The journal of the run can be read, so the same holds of every
apply in it, asked for by the user or by a quiet time. -/
theorem single_flight (settings : Settings) (records : Bool) (run : List (Evaluator × Step)) :
    let m := ((new settings records).stepAll run).1
    let journal := ((new settings records).stepAll run).2
    m.Quiescent m.now ∧ m.running ≤ 1 ∧ (m.phase = .applying ↔ m.running = 1) ∧
      (m.running = 1 ↔ m.view.loading.isSome = true) ∧
      (m.phase = .applying → ∀ evaluator, m.step evaluator .apply =
        ({ m with requests := m.requests + 1 }, [.finished m.requests .dropped])) ∧
      (m.phase = .idle → ∀ evaluator, calls (m.step evaluator .apply).2 =
        [(m.inputs.request m.settings.indent, some m.inputs.loadingText)]) ∧
      ∃ r, journal.foldlM Reading.read? (.start settings.indent) = some r ∧
        (m.phase = .applying ↔ ∃ origin inputs, r.progress = .called origin inputs) := by
  intro m journal
  have hnew := tracks_new settings records
  obtain ⟨r, hread, htracks⟩ := stepAll_tracks hnew run
  -- Each part is read off the machine at the end of the run, which agrees with its journal.
  have hq : m.Quiescent m.now := stepAll_quiescent hnew (new_quiescent settings records _) run
  obtain ⟨hone, hphase, hloading, hprogress⟩ := htracks.phase_iff
  exact ⟨hq, hone, hphase, hloading, step_apply_of_applying hq, step_apply_calls_of_idle hq,
    r, hread, hprogress⟩

end Machine

end QueryPlayground.Coordinator
