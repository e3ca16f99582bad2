import QueryPlayground.Proofs.Coordinator.Journal

/-!
# The clock of a coordinator

Between steps things happen by themselves: evaluations end or take too long, and quiet times are
over. Each of them takes something away from the backlog of the machine, so the clock never runs out
of fuel: after a step nothing is left that is due.

Main statements: `Machine.next?_cases` on what can happen next, and `Machine.step_quiescent`.
-/

namespace QueryPlayground.Coordinator

namespace Machine

/-! ## §1 What happens next -/

/-- The sooner one of two things is one of them, and not later than either. -/
theorem sooner_spec {a b : Option (Nat × Due)} {p : Nat × Due} (h : sooner a b = some p) :
    (a = some p ∨ b = some p) ∧ (∀ q, a = some q → p.1 ≤ q.1) ∧ ∀ q, b = some q → p.1 ≤ q.1 := by
  -- Where one of the two is missing it is the other one, and of two it is the one with the lesser
  -- time.
  cases a with
  | none =>
    rw [sooner] at h
    subst h
    simp
  | some x =>
    cases b with
    | none =>
      simp only [sooner] at h
      simp [h]
    | some y =>
      simp only [sooner] at h
      split at h
      next hle =>
        obtain rfl := Option.some.inj h
        simp [hle]
      next hlt =>
        obtain rfl := Option.some.inj h
        simp only [or_true, Option.some.injEq, forall_eq', Nat.le_refl, and_true, true_and]
        omega

theorem sooner_eq_none {a b : Option (Nat × Due)} (h : sooner a b = none) :
    a = none ∧ b = none := by
  cases a with
  | none => exact ⟨rfl, h⟩
  | some x =>
    cases b with
    | none => cases h
    | some y =>
      simp only [sooner] at h
      split at h <;> cases h

/-- What happens next to evaluations is the end or the lateness of one of them. -/
theorem nextOf?_cases {fs : List Flight} {i t : Nat} {due : Due}
    (h : nextOf? fs i = some (t, due)) :
    ∃ j f, fs[j]? = some f ∧
      (f.landing? = some t ∧ due = .landing (i + j) ∨
        f.deadline = some t ∧ due = .expiry (i + j)) := by
  -- The position in the rest is one less, and the number that it starts with one more.
  induction fs generalizing i with
  | nil => cases h
  | cons f fs ih =>
    rcases (sooner_spec h).1 with h | h
    · refine ⟨0, f, rfl, ?_⟩
      rcases (sooner_spec h).1 with h | h
      · obtain ⟨t', ht', heq⟩ := Option.map_eq_some_iff.mp h
        obtain ⟨rfl, rfl⟩ := Prod.mk.inj heq
        exact .inl ⟨ht', rfl⟩
      · obtain ⟨t', ht', heq⟩ := Option.map_eq_some_iff.mp h
        obtain ⟨rfl, rfl⟩ := Prod.mk.inj heq
        exact .inr ⟨ht', rfl⟩
    · obtain ⟨j, g, hg, hcases⟩ := ih h
      refine ⟨j + 1, g, hg, ?_⟩
      rwa [Nat.add_right_comm, Nat.add_assoc] at hcases

/-- What happens next is the end of an evaluation, its lateness, or the end of a quiet time. -/
theorem next?_cases {m : Machine} {t : Nat} {due : Due} (h : m.next? = some (t, due)) :
    (∃ i f, m.flights[i]? = some f ∧ f.landing? = some t ∧ due = .landing i) ∨
      (∃ i f, m.flights[i]? = some f ∧ f.deadline = some t ∧ due = .expiry i) ∨
      ∃ a, m.debouncer.armed = some a ∧ a.due = t ∧ due = .quiet := by
  rcases (sooner_spec h).1 with h | h
  · obtain ⟨j, f, hf, ⟨ht, hdue⟩ | ⟨ht, hdue⟩⟩ := nextOf?_cases h
    · exact .inl ⟨j, f, hf, ht, by rw [hdue, Nat.zero_add]⟩
    · exact .inr (.inl ⟨j, f, hf, ht, by rw [hdue, Nat.zero_add]⟩)
  · obtain ⟨a, ha, heq⟩ := Option.map_eq_some_iff.mp h
    obtain ⟨rfl, rfl⟩ := Prod.mk.inj heq
    exact .inr (.inr ⟨a, ha, rfl, rfl⟩)

/-- Nothing that is due by a time is left. -/
def Quiescent (m : Machine) (time : Nat) : Prop :=
  ∀ t due, m.next? = some (t, due) → time < t

/-- Where nothing is due, no quiet time is over. -/
theorem Quiescent.lt_due {m : Machine} {time : Nat} (h : m.Quiescent time) {a : Armed Unit}
    (ha : m.debouncer.armed = some a) : time < a.due := by
  have hquiet : m.quiet? = some (a.due, .quiet) := by rw [quiet?, ha, Option.map_some]
  cases hnext : m.next? with
  | none =>
    rw [next?] at hnext
    have := (sooner_eq_none hnext).2
    rw [hquiet] at this
    cases this
  | some p =>
    have hle := (sooner_spec hnext).2.2 _ hquiet
    have hlt := h p.1 p.2 hnext
    exact Nat.lt_of_lt_of_le hlt hle

/-! ## §2 The backlog -/

theorem Flight.backlogs_concat (fs : List Flight) (f : Flight) :
    Flight.backlogs (fs ++ [f]) = Flight.backlogs fs + f.backlog := by
  induction fs with
  | nil => simp [Flight.backlogs]
  | cons g fs ih =>
    simp only [Flight.backlogs, List.cons_append, List.foldr_cons] at ih ⊢
    omega

@[simp]
theorem conclude_flights (m : Machine) (origin : Origin) (inputs : Inputs)
    (result : Except Error Document) : (m.conclude origin inputs result).1.flights = m.flights := by
  cases result <;> rfl

@[simp]
theorem conclude_debouncer (m : Machine) (origin : Origin) (inputs : Inputs)
    (result : Except Error Document) :
    (m.conclude origin inputs result).1.debouncer = m.debouncer := by
  cases result <;> rfl

@[simp]
theorem land_debouncer (m : Machine) (i : Nat) : (m.land i).1.debouncer = m.debouncer := by
  unfold land
  split <;> simp

@[simp]
theorem expire_debouncer (m : Machine) (i time : Nat) :
    (m.expire i time).1.debouncer = m.debouncer := by
  unfold expire
  split
  next =>
    dsimp only
    split <;> simp
  next => rfl

/-- An evaluation takes its own backlog with it when it ends. -/
theorem land_flights {m : Machine} {f : Flight} (hf : m.flights = [f]) :
    (m.land 0).1.flights = [] := by
  simp [land, hf]

/-- An evaluation that takes too long can only end afterwards. -/
theorem expire_flights {m : Machine} {f : Flight} (hf : m.flights = [f]) (time : Nat) :
    Flight.backlogs (m.expire 0 time).1.flights ≤ 1 := by
  simp only [expire, hf, List.getElem?_cons_zero]
  split
  · simp [Flight.backlogs, Flight.backlog]
  · rw [land_flights (f := { f with deadline := none, timedOut := some time }) (by rfl)]
    simp [Flight.backlogs]

/-- An apply that starts brings one evaluation into progress at most. -/
theorem start_flights (m : Machine) (evaluator : Evaluator) (origin : Origin) :
    Flight.backlogs (m.start evaluator origin).1.flights ≤ Flight.backlogs m.flights + 2 := by
  have hone (f : Flight) : Flight.backlogs (m.flights ++ [f]) ≤ Flight.backlogs m.flights + 2 := by
    have hle : f.backlog ≤ 2 := by
      unfold Flight.backlog
      split <;> omega
    rw [Flight.backlogs_concat]
    omega
  unfold start
  split
  · simp
  · dsimp only
    split
    · simp
    · simp
    · exact hone _
    · exact hone _

theorem start_debouncer (m : Machine) (evaluator : Evaluator) (origin : Origin) :
    (m.start evaluator origin).1.debouncer = m.debouncer := by
  unfold start
  split
  · rfl
  · dsimp only
    split <;> simp

/-- Whatever happens takes something away from the backlog. -/
theorem happen_backlog_lt {m : Machine} {r : Reading} (h : m.Tracks r) (evaluator : Evaluator)
    {t : Nat} {due : Due} (hnext : m.next? = some (t, due)) :
    (m.happen evaluator due).1.backlog < m.backlog := by
  rcases next?_cases hnext with ⟨i, f, hf, -, rfl⟩ | ⟨i, f, hf, hdeadline, rfl⟩ | ⟨a, ha, -, rfl⟩
  · -- An evaluation ends, and nothing more can happen to it.
    obtain ⟨rfl, hflights, -, -⟩ := h.eq_of_getElem? hf
    have hone : 1 ≤ f.backlog := by
      unfold Flight.backlog
      split <;> omega
    simp only [happen, backlog, land_flights hflights, land_debouncer, hflights, Flight.backlogs,
      List.foldr_cons, List.foldr_nil]
    omega
  · -- It takes too long, which can happen to it once, and can only end after that.
    obtain ⟨rfl, hflights, -, -⟩ := h.eq_of_getElem? hf
    have htwo : f.backlog = 2 := by simp [Flight.backlog, hdeadline]
    have hle := expire_flights hflights (m.settings.timeout.getD 0)
    have hall : Flight.backlogs m.flights = 2 := by simp [Flight.backlogs, hflights, htwo]
    simp only [happen, backlog, expire_debouncer, hall]
    omega
  · -- The quiet time is over; of its three, at most two go to the evaluation that starts.
    have hle := start_flights { m with debouncer := m.debouncer.cancel } evaluator .auto
    simp only [happen, backlog, start_debouncer, Debouncer.isPending, Debouncer.cancel, ha,
      Option.isSome_none, Option.isSome_some, Bool.false_eq_true, if_false, if_true] at hle ⊢
    omega

/-! ## §3 Nothing that is due is left -/

theorem runUntil_quiescent (evaluator : Evaluator) (time fuel : Nat) {m : Machine} {r : Reading}
    (h : m.Tracks r) (hfuel : m.backlog ≤ fuel) :
    (m.runUntil evaluator time fuel).1.Quiescent time := by
  induction fuel generalizing m r with
  | zero =>
    -- No fuel is left, hence no backlog, and whatever happens takes something from the backlog.
    intro t due hnext
    have := happen_backlog_lt h evaluator hnext
    omega
  | succ fuel ih =>
    unfold runUntil
    split
    next hnext =>
      intro t due hsome
      rw [hnext] at hsome
      cases hsome
    next t due hnext =>
      split
      next hlt =>
        intro t' due' hsome
        rw [hnext] at hsome
        obtain ⟨rfl, rfl⟩ := Prod.mk.inj (Option.some.inj hsome)
        exact hlt
      next =>
        have hclock : Tracks { m with now := max m.now t } r := h.withClock _ m.debouncer
        have hnext' : next? { m with now := max m.now t } = some (t, due) := hnext
        have hless := happen_backlog_lt hclock evaluator hnext'
        obtain ⟨r', -, htracks⟩ := happen_reads hclock evaluator due
        refine ih htracks ?_
        have hsame : backlog { m with now := max m.now t } = m.backlog := rfl
        omega

theorem moveTo_quiescent (evaluator : Evaluator) (time : Nat) {m : Machine} {r : Reading}
    (h : m.Tracks r) : (m.moveTo evaluator time).1.Quiescent time :=
  runUntil_quiescent evaluator time m.backlog h (Nat.le_refl _)

/-- After a step nothing is due. -/
theorem step_quiescent (evaluator : Evaluator) (s : Step) {m : Machine} {r : Reading}
    (h : m.Tracks r) : (m.step evaluator s).1.Quiescent (m.step evaluator s).1.now := by
  obtain ⟨r', -, htracks⟩ := perform_reads h evaluator s
  exact moveTo_quiescent evaluator (m.timeAfter s) htracks

theorem runUntil_of_quiescent (evaluator : Evaluator) {time : Nat} (fuel : Nat) {m : Machine}
    (h : m.Quiescent time) : m.runUntil evaluator time fuel = (m, []) := by
  cases fuel with
  | zero => rfl
  | succ fuel =>
    unfold runUntil
    split
    next => rfl
    next t due hnext => rw [if_pos (h t due hnext)]

/-- Where nothing is due the clock just moves. -/
theorem moveTo_of_quiescent (evaluator : Evaluator) {time : Nat} {m : Machine}
    (h : m.Quiescent time) : m.moveTo evaluator time = ({ m with now := time }, []) := by
  simp only [moveTo, runUntil_of_quiescent evaluator m.backlog h]

end Machine

end QueryPlayground.Coordinator
