import QueryPlayground.Proofs.Coordinator.Clock

/-!
# The moments of a run

A journal tells what happened in each step. In a step the clock may go a long way, and one thing
happens after another, each at its own time. `Machine.moments` takes a run apart into the moments
at which something is done or happens by itself, with the machine as it stands then and its clock
at that time.

Main statements: `Machine.moments_happenings`, the moments make up the journal, and
`Machine.moments_chain`, each moment follows on the one before.
-/

namespace QueryPlayground.Coordinator

/-! ## §1 Moments -/

/-- Why something happens. -/
inductive Cause where
  /-- A step is done. -/
  | step (s : Machine.Step)
  /-- Something is due. -/
  | due (d : Machine.Due)
  deriving DecidableEq

/-- A moment of a run. -/
structure Moment where
  /-- The coordinator before it. -/
  machine : Machine
  /-- The evaluator at that time. -/
  evaluator : Evaluator
  /-- What makes something happen. -/
  cause : Cause

/-- The machine after a moment, and what happens at it. -/
def Moment.after (p : Moment) : Machine × List Happening :=
  match p.cause with
  | .step s => p.machine.perform p.evaluator s
  | .due d => p.machine.happen p.evaluator d

@[simp]
theorem Moment.after_step (m : Machine) (evaluator : Evaluator) (s : Machine.Step) :
    Moment.after ⟨m, evaluator, .step s⟩ = m.perform evaluator s :=
  rfl

@[simp]
theorem Moment.after_due (m : Machine) (evaluator : Evaluator) (d : Machine.Due) :
    Moment.after ⟨m, evaluator, .due d⟩ = m.happen evaluator d :=
  rfl

/-- Who asks for an apply at a moment. -/
def Moment.asks? (p : Moment) : Option Origin :=
  match p.cause with
  | .step .apply => some (.request p.machine.requests)
  | .due .quiet => some .auto
  | _ => none

/-- The machine once an apply was asked for: the request is counted, or what waited is let go. -/
def Moment.asked (p : Moment) : Machine :=
  match p.cause with
  | .step .apply => { p.machine with requests := p.machine.requests + 1 }
  | .due .quiet => { p.machine with debouncer := p.machine.debouncer.cancel }
  | _ => p.machine

/-- To ask changes nothing else about the machine. -/
theorem Moment.asked_frame (p : Moment) :
    p.asked.settings = p.machine.settings ∧ p.asked.records = p.machine.records ∧
      p.asked.now = p.machine.now ∧ p.asked.inputs = p.machine.inputs ∧
      p.asked.view = p.machine.view ∧ p.asked.busy = p.machine.busy ∧
      p.asked.flights = p.machine.flights := by
  unfold asked
  split <;> exact ⟨rfl, rfl, rfl, rfl, rfl, rfl, rfl⟩

/-- An apply that is asked for starts, or is dropped. -/
theorem Moment.after_of_asks {p : Moment} {origin : Origin} (h : p.asks? = some origin) :
    p.after = p.asked.start p.evaluator origin := by
  obtain ⟨m, evaluator, cause⟩ := p
  -- Only a request and the end of a quiet time ask for an apply.
  unfold asks? at h
  split at h
  next hcause =>
    obtain rfl : cause = .step .apply := hcause
    obtain rfl := Option.some.inj h
    rfl
  next hcause =>
    obtain rfl : cause = .due .quiet := hcause
    obtain rfl := Option.some.inj h
    rfl
  next => cases h

/-- A coordinator that is not busy is idle. -/
theorem Machine.phase_eq_idle {m : Machine} : m.phase = .idle ↔ m.busy = false := by
  unfold phase
  cases m.busy <;> simp

/-- A coordinator that is busy is applying. -/
theorem Machine.phase_eq_applying {m : Machine} : m.phase = .applying ↔ m.busy = true := by
  unfold phase
  cases m.busy <;> simp

/-- Who asks while an apply is in progress is turned away. -/
theorem Moment.after_of_applying {p : Moment} {origin : Origin} (h : p.asks? = some origin)
    (hphase : p.machine.phase = .applying) :
    p.after = (p.asked, Machine.report origin .dropped) := by
  obtain ⟨-, -, -, -, -, hbusy, -⟩ := p.asked_frame
  rw [after_of_asks h, Machine.start, if_pos (hbusy.trans (Machine.phase_eq_applying.mp hphase))]

namespace Machine

/-- The moments at which something happens by itself until a time, as far as the fuel goes. -/
def momentsUntil (evaluator : Evaluator) (time : Nat) : Nat → Machine → List Moment
  | 0, _ => []
  | fuel + 1, m =>
    match m.next? with
    | none => []
    | some (t, d) =>
      if time < t then []
      else
        let p : Moment := ⟨{ m with now := max m.now t }, evaluator, .due d⟩
        p :: momentsUntil evaluator time fuel p.after.1

/-- The moments of a step. -/
def stepMoments (m : Machine) (evaluator : Evaluator) (s : Step) : List Moment :=
  let p : Moment := ⟨m, evaluator, .step s⟩
  p :: p.after.1.momentsUntil evaluator (m.timeAfter s) p.after.1.backlog

/-- The moments of a run. -/
def moments (m : Machine) : List (Evaluator × Step) → List Moment
  | [] => []
  | (evaluator, s) :: rest => m.stepMoments evaluator s ++ (m.step evaluator s).1.moments rest

/-- Something is to happen at a time. -/
def Plans (m : Machine) (t : Nat) : Prop :=
  (∃ f ∈ m.flights, f.landing? = some t ∨ f.deadline = some t) ∨
    ∃ a, m.debouncer.armed = some a ∧ a.due = t

/-- Nothing that is to happen is overdue. -/
def Ahead (m : Machine) : Prop :=
  ∀ t, m.Plans t → m.now ≤ t

/-- What a moment leaves as it is, and what it adds to what is to happen. -/
structure Continues (m m' : Machine) : Prop where
  settings_eq : m'.settings = m.settings
  now_eq : m'.now = m.now
  plans : ∀ t, m'.Plans t → m.Plans t ∨ m.now ≤ t

/-- What is next is to happen. -/
theorem plans_of_next? {m : Machine} {t : Nat} {d : Due} (h : m.next? = some (t, d)) :
    m.Plans t := by
  rcases next?_cases h with ⟨i, f, hf, ht, -⟩ | ⟨i, f, hf, ht, -⟩ | ⟨a, ha, rfl, -⟩
  · exact .inl ⟨f, List.mem_of_getElem? hf, .inl ht⟩
  · exact .inl ⟨f, List.mem_of_getElem? hf, .inr ht⟩
  · exact .inr ⟨a, ha, rfl⟩

/-- The sooner one of two things is there if one of them is, and not later. -/
theorem exists_sooner {a b : Option (Nat × Due)} {q : Nat × Due} (h : a = some q ∨ b = some q) :
    ∃ p, sooner a b = some p ∧ p.1 ≤ q.1 := by
  cases hp : sooner a b with
  | none =>
    obtain ⟨rfl, rfl⟩ := sooner_eq_none hp
    simp at h
  | some p =>
    obtain ⟨-, hleft, hright⟩ := sooner_spec hp
    exact ⟨p, rfl, h.elim (hleft q) (hright q)⟩

/-- Among evaluations of which one is to end or to expire by a time, one is next by then. -/
theorem exists_nextOf? {fs : List Flight} {f : Flight} (hf : f ∈ fs) {t : Nat}
    (ht : f.landing? = some t ∨ f.deadline = some t) (i : Nat) :
    ∃ p, nextOf? fs i = some p ∧ p.1 ≤ t := by
  induction fs generalizing i with
  | nil => cases hf
  -- By induction on the evaluations, of which the first is compared with the soonest of the others.
  | cons g fs ih =>
    rcases List.mem_cons.mp hf with rfl | hf
    · obtain ⟨p, hp, hle⟩ : ∃ p, sooner (f.landing?.map fun t => (t, .landing i))
          (f.deadline.map fun t => (t, .expiry i)) = some p ∧ p.1 ≤ t := by
        rcases ht with ht | ht
        · exact exists_sooner (q := (t, .landing i)) (.inl (by rw [ht]; rfl))
        · exact exists_sooner (q := (t, .expiry i)) (.inr (by rw [ht]; rfl))
      obtain ⟨p', hp', hle'⟩ := exists_sooner (b := nextOf? fs (i + 1)) (.inl hp)
      exact ⟨p', hp', Nat.le_trans hle' hle⟩
    · obtain ⟨p, hp, hle⟩ := ih hf (i + 1)
      obtain ⟨p', hp', hle'⟩ := exists_sooner
        (a := sooner (g.landing?.map fun t => (t, .landing i))
          (g.deadline.map fun t => (t, .expiry i))) (.inr hp)
      exact ⟨p', hp', Nat.le_trans hle' hle⟩

/-- Where something is to happen, something is next, and not later. -/
theorem Plans.exists_next? {m : Machine} {t : Nat} (h : m.Plans t) :
    ∃ p, m.next? = some p ∧ p.1 ≤ t := by
  rcases h with ⟨f, hf, ht⟩ | ⟨a, ha, rfl⟩
  · obtain ⟨p, hp, hle⟩ := exists_nextOf? hf ht 0
    obtain ⟨p', hp', hle'⟩ := exists_sooner (b := m.quiet?) (.inl hp)
    exact ⟨p', hp', Nat.le_trans hle' hle⟩
  · have hquiet : m.quiet? = some (a.due, .quiet) := by rw [quiet?, ha, Option.map_some]
    exact exists_sooner (.inr hquiet)

/-- Where nothing is due by a time, whatever is to happen comes later. -/
theorem Quiescent.lt_of_plans {m : Machine} {time t : Nat} (hq : m.Quiescent time)
    (h : m.Plans t) : time < t := by
  obtain ⟨p, hp, hle⟩ := h.exists_next?
  exact Nat.lt_of_lt_of_le (hq p.1 p.2 hp) hle

/-- What is next comes first. -/
theorem le_of_plans {m : Machine} {t t' : Nat} {d : Due} (hnext : m.next? = some (t, d))
    (h : m.Plans t') : t ≤ t' := by
  obtain ⟨p, hp, hle⟩ := h.exists_next?
  obtain rfl := Option.some.inj (hnext.symm.trans hp)
  exact hle

/-- Where nothing is due nothing is overdue. -/
theorem Quiescent.ahead {m : Machine} (hq : m.Quiescent m.now) : m.Ahead :=
  fun _ h => Nat.le_of_lt (hq.lt_of_plans h)

/-! ## §3 What a moment adds to what is to happen -/

/-- A machine adds nothing to what it is. -/
theorem Continues.refl (m : Machine) : m.Continues m :=
  ⟨rfl, rfl, fun _ => .inl⟩

/-- Moments that follow one another add what each of them adds. -/
theorem Continues.trans {m m' m'' : Machine} (h : m.Continues m') (h' : m'.Continues m'') :
    m.Continues m'' := by
  refine ⟨h'.settings_eq.trans h.settings_eq, h'.now_eq.trans h.now_eq, fun t ht => ?_⟩
  rcases h'.plans t ht with ht | ht
  · exact h.plans t ht
  · exact .inr (h.now_eq ▸ ht)

/-- Where nothing was overdue nothing is after that. -/
theorem Continues.ahead {m m' : Machine} (h : m.Continues m') (hahead : m.Ahead) : m'.Ahead := by
  intro t ht
  rw [h.now_eq]
  exact (h.plans t ht).elim (hahead t) id

/-- With fewer evaluations in progress less is to happen, whatever else is shown. -/
theorem continues_of_subset {m : Machine} {flights : List Flight} {busy : Bool} {view : View}
    {requests : Nat} (h : ∀ f ∈ flights, f ∈ m.flights) :
    m.Continues
      { m with flights := flights, busy := busy, view := view, requests := requests } := by
  refine ⟨rfl, rfl, fun t ht => .inl ?_⟩
  rcases ht with ⟨f, hf, ht⟩ | ht
  · exact .inl ⟨f, h f hf, ht⟩
  · exact .inr ht

/-- The end of an apply adds nothing to what is to happen. -/
theorem conclude_continues (m : Machine) (origin : Origin) (inputs : Inputs)
    (result : Except Error Document) : m.Continues (m.conclude origin inputs result).1 := by
  cases result <;> exact continues_of_subset fun _ hf => hf

/-- An evaluation that lands is no longer to happen. -/
theorem land_continues (m : Machine) (i : Nat) : m.Continues (m.land i).1 := by
  unfold land
  split
  next =>
    have herase : m.Continues { m with flights := m.flights.eraseIdx i } :=
      continues_of_subset fun _ => List.mem_of_mem_eraseIdx
    exact herase.trans (conclude_continues _ _ _ _)
  next => exact .refl m

/-- A deadline that is used up is no longer to happen. -/
theorem expire_continues (m : Machine) (i time : Nat) : m.Continues (m.expire i time).1 := by
  unfold expire
  split
  next f hf =>
    -- Only the evaluation that was cancelled is another one, and its end is what it was.
    have hset : m.Continues
        { m with
          flights := m.flights.set i { f with deadline := none, timedOut := some time }
          view := m.view.showLoading (some cancellingText) } := by
      refine ⟨rfl, rfl, fun t ht => .inl ?_⟩
      rcases ht with ⟨g, hg, ht⟩ | ht
      · -- The evaluation that was cancelled still has its end, but no deadline.
        rcases List.mem_or_eq_of_mem_set hg with hg | rfl
        · exact .inl ⟨g, hg, ht⟩
        · refine .inl ⟨f, List.mem_of_getElem? hf, .inl ?_⟩
          exact ht.resolve_right (by simp)
      · exact .inr ht
    dsimp only
    split
    next => exact hset
    next => exact hset.trans (land_continues _ i)
  next => exact .refl m

/-- A debouncer that lets go no sooner than now. -/
theorem continues_withDebouncer {m : Machine} {d : Debouncer Unit} (inputs : Inputs)
    (h : ∀ a, d.armed = some a → m.debouncer.armed = some a ∨ m.now ≤ a.due) :
    m.Continues { m with inputs := inputs, debouncer := d } := by
  refine ⟨rfl, rfl, fun t ht => ?_⟩
  rcases ht with ht | ⟨a, ha, rfl⟩
  · exact .inl (.inl ht)
  · exact (h a ha).imp_left fun ha => .inr ⟨a, ha, rfl⟩

/-- What waited and is let go is no longer to happen. -/
theorem cancel_continues (m : Machine) :
    m.Continues { m with debouncer := m.debouncer.cancel } :=
  continues_withDebouncer m.inputs fun _ ha => nomatch ha

/-- Whatever is to happen to an evaluation that starts does not come before its start. -/
theorem start_continues (m : Machine) (evaluator : Evaluator) (origin : Origin) :
    m.Continues (m.start evaluator origin).1 := by
  have hbusy (view : View) : m.Continues { m with busy := true, view := view } :=
    continues_of_subset fun _ hf => hf
  -- An evaluation that starts is to end or to expire, but not before now.
  have hfly (f : Flight) (view : View)
      (hf : ∀ t, f.landing? = some t ∨ f.deadline = some t → m.now ≤ t) :
      m.Continues { m with busy := true, view := view, flights := m.flights ++ [f] } := by
    refine ⟨rfl, rfl, fun t ht => ?_⟩
    rcases ht with ⟨g, hg, ht⟩ | ht
    · rcases List.mem_append.mp hg with hg | hg
      · exact .inl (.inl ⟨g, hg, ht⟩)
      · obtain rfl := List.mem_singleton.mp hg
        exact .inr (hf t ht)
    · exact .inl (.inr ht)
  have hdeadline {t : Nat} (ht : m.settings.timeout.map (m.now + ·) = some t) : m.now ≤ t := by
    obtain ⟨allowed, -, rfl⟩ := Option.map_eq_some_iff.mp ht
    exact Nat.le_add_right _ _
  unfold start
  split
  next => exact .refl m
  next =>
    dsimp only
    split
    next => exact (hbusy _).trans (conclude_continues _ _ _ _)
    next => exact (hbusy _).trans (conclude_continues _ _ _ _)
    next => exact hfly _ _ fun t ht => ht.elim (fun h => nomatch h) hdeadline
    next =>
      refine hfly _ _ fun t ht => ht.elim (fun h => ?_) hdeadline
      obtain rfl := Option.some.inj h
      exact Nat.le_add_right _ _

/-- What is due adds nothing that comes before it. -/
theorem happen_continues (m : Machine) (evaluator : Evaluator) (d : Due) :
    m.Continues (m.happen evaluator d).1 := by
  cases d with
  | landing i => exact land_continues m i
  | expiry i => exact expire_continues m i _
  | quiet => exact m.cancel_continues.trans (start_continues _ evaluator .auto)

/-- An edit begins a quiet time, which is not over before now. -/
theorem edit_continues (m : Machine) (f : Inputs → Inputs) : m.Continues (m.edit f) := by
  unfold edit
  dsimp only
  split
  next =>
    refine continues_withDebouncer (f m.inputs) fun a ha => .inr ?_
    obtain rfl := Option.some.inj ha
    exact Nat.le_add_right _ _
  next => exact continues_withDebouncer (f m.inputs) fun a ha => .inl ha

/-- A step adds nothing that comes before it. -/
theorem perform_continues (m : Machine) (evaluator : Evaluator) (s : Step) :
    m.Continues (m.perform evaluator s).1 := by
  -- Only an edit and the start of an apply add something, and that comes later.
  cases s with
  | setInput d => exact edit_continues m fun i => { i with input := d }
  | setQuery d => exact edit_continues m fun i => { i with query := d }
  | setOutput kind => exact edit_continues m fun i => { i with outputType := kind }
  | apply =>
    have hcount : m.Continues { m with requests := m.requests + 1 } :=
      continues_of_subset fun _ hf => hf
    exact hcount.trans (start_continues _ evaluator _)
  | advance time => exact .refl m
  | release =>
    simp only [perform, release]
    split
    next i _ => exact land_continues m i
    next => exact .refl m
  | cancelPending => exact m.cancel_continues
  | abort number =>
    simp only [perform, abort]
    split
    next => exact continues_of_subset fun _ => List.mem_of_mem_eraseIdx
    next => exact .refl m
  | look => exact .refl m

/-! ## §4 Chains -/

/-- From a machine moments lead to another one: steps are done when nothing is due, what is next
happens at its time, and otherwise only the clock goes on. -/
inductive Chain : Machine → List Moment → Machine → Prop where
  | rest (m : Machine) : Chain m [] m
  | clock {m last : Machine} {ps : List Moment} {time : Nat} (hle : m.now ≤ time)
      (hq : m.Quiescent time) (h : Chain { m with now := time } ps last) : Chain m ps last
  | step {m last : Machine} {ps : List Moment} {evaluator : Evaluator} {s : Step}
      (hq : m.Quiescent m.now) (h : Chain (m.perform evaluator s).1 ps last) :
      Chain m (⟨m, evaluator, .step s⟩ :: ps) last
  | due {m last : Machine} {ps : List Moment} {evaluator : Evaluator} {t : Nat} {d : Due}
      (hnext : m.next? = some (t, d)) (hle : m.now ≤ t)
      (h : Chain ({ m with now := t }.happen evaluator d).1 ps last) :
      Chain m (⟨{ m with now := t }, evaluator, .due d⟩ :: ps) last

/-- Chains that follow one another make one. -/
theorem Chain.append {m m' last : Machine} {ps qs : List Moment} (h : m.Chain ps m')
    (h' : m'.Chain qs last) : m.Chain (ps ++ qs) last := by
  induction h with
  | rest => exact h'
  | clock hle hq _ ih => exact .clock hle hq (ih h')
  | step hq _ ih => exact .step hq (ih h')
  | due hnext hle _ ih => exact .due hnext hle (ih h')

/-- The settings stay over a chain. -/
theorem Chain.settings_eq {m last : Machine} {ps : List Moment} (h : m.Chain ps last) :
    last.settings = m.settings := by
  induction h with
  | rest => rfl
  | clock _ _ _ ih => exact ih
  | step _ _ ih => exact ih.trans (perform_continues _ _ _).settings_eq
  | due _ _ _ ih => exact ih.trans (happen_continues _ _ _).settings_eq

theorem momentsUntil_of_quiescent (evaluator : Evaluator) {time : Nat} (fuel : Nat) {m : Machine}
    (hq : m.Quiescent time) : m.momentsUntil evaluator time fuel = [] := by
  cases fuel with
  | zero => rfl
  | succ fuel =>
    unfold momentsUntil
    split
    next => rfl
    next t d hnext => rw [if_pos (hq t d hnext)]

theorem until_of_next {m : Machine} {t time : Nat} {d : Due} (hnext : m.next? = some (t, d))
    (hle : t ≤ time) (hnow : m.now ≤ t) (evaluator : Evaluator) (fuel : Nat) :
    let m' := { m with now := t }
    m.momentsUntil evaluator time (fuel + 1) =
        ⟨m', evaluator, .due d⟩ :: (m'.happen evaluator d).1.momentsUntil evaluator time fuel ∧
      (m.runUntil evaluator time (fuel + 1)).1 =
        ((m'.happen evaluator d).1.runUntil evaluator time fuel).1 := by
  simp [momentsUntil, runUntil, hnext, Nat.not_lt.mpr hle, Nat.max_eq_right hnow]

theorem runUntil_chain (evaluator : Evaluator) (time fuel : Nat) {m : Machine} (h : m.Ahead)
    (hle : m.now ≤ time) :
    m.Chain (m.momentsUntil evaluator time fuel) (m.runUntil evaluator time fuel).1 ∧
      (m.runUntil evaluator time fuel).1.now ≤ time := by
  induction fuel generalizing m with
  | zero => exact ⟨.rest m, hle⟩
  | succ fuel ih =>
    by_cases hq : m.Quiescent time
    · rw [momentsUntil_of_quiescent evaluator _ hq, runUntil_of_quiescent evaluator _ hq]
      exact ⟨.rest m, hle⟩
    · obtain ⟨t, d, hnext, ht⟩ : ∃ t d, m.next? = some (t, d) ∧ t ≤ time := by
        simpa [Quiescent] using hq
      -- The clock goes on to what is next, which is not overdue.
      have hnow : m.now ≤ t := h t (plans_of_next? hnext)
      have hahead : Ahead { m with now := t } := fun _ ht => le_of_plans hnext ht
      have hcontinues := happen_continues { m with now := t } evaluator d
      obtain ⟨hmoments, hrun⟩ := until_of_next hnext ht hnow evaluator fuel
      obtain ⟨hchain, hlast⟩ :=
        ih (hcontinues.ahead hahead) (Nat.le_trans (Nat.le_of_eq hcontinues.now_eq) ht)
      rw [hmoments, hrun]
      exact ⟨.due hnext hnow hchain, hlast⟩

theorem step_chain {m : Machine} {r : Reading} (htracks : m.Tracks r) (hq : m.Quiescent m.now)
    (evaluator : Evaluator) (s : Step) :
    m.Chain (m.stepMoments evaluator s) (m.step evaluator s).1 := by
  have hcontinues := perform_continues m evaluator s
  obtain ⟨r', -, htracks'⟩ := perform_reads htracks evaluator s
  have htime : m.now ≤ m.timeAfter s := by cases s <;> simp [timeAfter]
  have hafter := runUntil_quiescent evaluator (m.timeAfter s) _ htracks' (Nat.le_refl _)
  obtain ⟨hchain, hlast⟩ :=
    runUntil_chain evaluator (m.timeAfter s) (m.perform evaluator s).1.backlog
      (hcontinues.ahead hq.ahead) (Nat.le_trans (Nat.le_of_eq hcontinues.now_eq) htime)
  -- Once nothing is due any more the clock goes on to the end of the step.
  have hclock := hchain.append (.clock hlast hafter (.rest _))
  rw [List.append_nil] at hclock
  exact .step hq hclock

theorem moments_chain {m : Machine} {r : Reading} (htracks : m.Tracks r) (hq : m.Quiescent m.now)
    (run : List (Evaluator × Step)) : m.Chain (m.moments run) (m.stepAll run).1 := by
  induction run generalizing m r with
  | nil => exact .rest m
  | cons x rest ih =>
    obtain ⟨r', -, htracks'⟩ := step_tracks htracks x.1 x.2
    have hrest := ih htracks' (step_quiescent x.1 x.2 htracks)
    exact (step_chain htracks hq x.1 x.2).append hrest

end Machine

/-- How a moment of a run finds the machine. -/
structure Moment.Finds (p : Moment) (settings : Settings) : Prop where
  settings_eq : p.machine.settings = settings
  readable : ∃ r, p.machine.Tracks r
  /-- Nothing is due when a step is done. -/
  quiescent : ∀ s, p.cause = .step s → p.machine.Quiescent p.machine.now
  /-- What happens by itself is what is next, and its time has come. -/
  next?_eq : ∀ d, p.cause = .due d → p.machine.next? = some (p.machine.now, d)

namespace Machine

/-- A moment of a chain finds a machine that can be read, and the chain goes on after it. -/
theorem Chain.split {m last : Machine} {before later : List Moment} {p : Moment} {r : Reading}
    (h : m.Chain (before ++ p :: later) last) (htracks : m.Tracks r) :
    p.Finds m.settings ∧ p.after.1.Chain later last := by
  -- By induction on the chain: the moment is its first one, or one of those after it.
  generalize hps : before ++ p :: later = ps at h
  induction h generalizing before r with
  | rest => simp at hps
  | clock hle hq h ih => exact ih (htracks.withClock _ _) hps
  | @step m last ps evaluator s hq h ih =>
    obtain ⟨r', -, htracks'⟩ := perform_reads htracks evaluator s
    rcases before with _ | ⟨q, before⟩
    · obtain ⟨rfl, rfl⟩ := List.cons.inj hps
      exact ⟨⟨rfl, ⟨r, htracks⟩, fun _ _ => hq, fun _ hd => nomatch hd⟩, h⟩
    · rw [← (perform_continues m evaluator s).settings_eq]
      exact ih htracks' (List.cons.inj hps).2
  | @due m last ps evaluator t d hnext hle h ih =>
    have hclock := htracks.withClock t m.debouncer
    obtain ⟨r', -, htracks'⟩ := happen_reads hclock evaluator d
    rcases before with _ | ⟨q, before⟩
    · obtain ⟨rfl, rfl⟩ := List.cons.inj hps
      refine ⟨⟨rfl, ⟨r, hclock⟩, fun _ hs => (nomatch hs), fun d' hd => ?_⟩, h⟩
      obtain rfl := Cause.due.inj hd
      exact hnext
    · have hsettings := (happen_continues { m with now := t } evaluator d).settings_eq
      rw [← hsettings]
      exact ih htracks' (List.cons.inj hps).2

end Machine

end QueryPlayground.Coordinator
