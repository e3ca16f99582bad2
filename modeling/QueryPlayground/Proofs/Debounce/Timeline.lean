import QueryPlayground.Proofs.Debounce.Calls
import Mathlib.Data.List.Nodup

/-!
# Debounced work over time

A timeline starts the work of the calls that start, each piece once and when it is due, and every
piece of work that has started ends when its duration is over, whatever is done with the debouncer
meanwhile. Whatever is due happens before the next operation, so work without a quiet time starts at
once.

Main statement: `Timeline.debounces`.
-/

namespace QueryPlayground

open Debouncer (Move Call calls clockAfter play lapse)

/-! ## §1 The log of a piece of work -/

/-- What happens to a piece of work that starts at a time, as far as it happens by another time.
Work that takes no time has no end of its own. -/
def Work.log (w : Work) (start finish : Nat) : List (Nat × WorkEvent) :=
  (start, .started w.label) ::
    if 0 < w.duration ∧ start + w.duration ≤ finish then
      [(start + w.duration, .done w.label)]
    else []

namespace Work

/-- What runs once a piece of work has started at a time: nothing if it takes no time. -/
def running (w : Work) (start ticket : Nat) : List (Timer × Int) :=
  if w.duration = 0 then [] else [(⟨start + w.duration, ticket⟩, w.label)]

theorem mem_running (w : Work) {start ticket : Nat} {r : Timer × Int}
    (h : r ∈ w.running start ticket) : r.1.ticket = ticket ∧ start ≤ r.1.due := by
  unfold running at h
  split at h
  next => cases h
  next =>
    obtain rfl := List.mem_singleton.mp h
    exact ⟨rfl, Nat.le_add_right _ _⟩

theorem length_running_le (w : Work) (start ticket : Nat) :
    (w.running start ticket).length ≤ 1 := by
  unfold running
  split <;> simp

theorem nodup_running (w : Work) (start ticket : Nat) :
    ((w.running start ticket).map (·.1.ticket)).Nodup := by
  unfold running
  split <;> simp

/-- The log of a piece of work is its start, and the end of what runs then. -/
theorem log_eq_running (w : Work) (start ticket finish : Nat) :
    w.log start finish = (start, .started w.label) ::
      ((w.running start ticket).filter (·.1.due ≤ finish)).map fun r => (r.1.due, .done r.2) := by
  unfold log running
  by_cases hzero : w.duration = 0
  · simp [hzero]
  · by_cases hle : start + w.duration ≤ finish <;> simp [hzero, hle, Nat.pos_of_ne_zero hzero]

end Work

namespace Timeline

variable {t : Timeline} {timer : Timer} {p : Pending}

/-- The work that waits, without its ticket. -/
def waiting (t : Timeline) : Debouncer Work :=
  ⟨0, (t.debouncer.bind (·.armed)).map fun a => ⟨a.due, a.callback.2⟩⟩

/-- The ends of running work that come by a time. -/
def ends (t : Timeline) (finish : Nat) : List (Nat × WorkEvent) :=
  (t.running.filter (·.1.due ≤ finish)).map fun r => (r.1.due, .done r.2)

/-- Running work can be told apart by its tickets. -/
structure Sound (t : Timeline) : Prop where
  nodup : (t.running.map (·.1.ticket)).Nodup
  ticket_lt : ∀ r ∈ t.running, r.1.ticket < t.tickets

/-! ## §2 The first thing to happen -/

/-- A timer that comes before another one is due no later. -/
theorem due_le_of_isBefore {a b : Timer} (h : a.isBefore b = true) : a.due ≤ b.due := by
  simp only [Timer.isBefore, Bool.or_eq_true, Bool.and_eq_true, decide_eq_true_eq,
    beq_iff_eq] at h
  omega

theorem due_le_of_not_isBefore {a b : Timer} (h : ¬ a.isBefore b = true) : b.due ≤ a.due := by
  simp only [Timer.isBefore, Bool.or_eq_true, Bool.and_eq_true, decide_eq_true_eq,
    beq_iff_eq] at h
  omega

/-- Whatever comes first is not later than anything else. -/
private theorem foldl_first (ps : List (Timer × Pending)) (b : Timer × Pending) :
    ∃ c, ps.foldl
        (fun best p =>
          match best with
          | none => some p
          | some b => if p.1.isBefore b.1 then some p else some b)
        (some b) = some c ∧ c ∈ b :: ps ∧ ∀ q ∈ b :: ps, c.1.due ≤ q.1.due := by
  induction ps generalizing b with
  | nil => exact ⟨b, rfl, List.mem_singleton_self b, by simp⟩
  | cons p ps ih =>
    rw [List.foldl_cons]
    dsimp only
    split
    -- The new candidate is due no later than the one before it.
    next hbefore =>
      obtain ⟨c, hc, hmem, hle⟩ := ih p
      have hpb : p.1.due ≤ b.1.due := due_le_of_isBefore hbefore
      refine ⟨c, hc, List.mem_cons_of_mem b hmem, ?_⟩
      intro q hq
      rcases List.mem_cons.mp hq with rfl | hq
      · exact Nat.le_trans (hle p List.mem_cons_self) hpb
      · exact hle q hq
    next hbefore =>
      -- The candidate stays, and what it is compared with is due no earlier.
      obtain ⟨c, hc, hmem, hle⟩ := ih b
      have hbp : b.1.due ≤ p.1.due := due_le_of_not_isBefore hbefore
      refine ⟨c, hc, ?_, ?_⟩
      · rcases List.mem_cons.mp hmem with rfl | hmem
        · exact List.mem_cons_self
        · exact List.mem_cons_of_mem b (List.mem_cons_of_mem p hmem)
      · intro q hq
        rcases List.mem_cons.mp hq with rfl | hq
        · exact hle q List.mem_cons_self
        rcases List.mem_cons.mp hq with rfl | hq
        · exact Nat.le_trans (hle b List.mem_cons_self) hbp
        · exact hle q (List.mem_cons_of_mem b hq)

/-- What comes next is on the agenda, and nothing there is due before it. -/
theorem next?_eq_some (h : t.next? = some (timer, p)) :
    (timer, p) ∈ t.agenda ∧ ∀ q ∈ t.agenda, timer.due ≤ q.1.due := by
  unfold next? at h
  cases hagenda : t.agenda with
  | nil =>
    rw [hagenda] at h
    cases h
  | cons b ps =>
    rw [hagenda] at h
    obtain ⟨c, hc, hmem, hle⟩ := foldl_first ps b
    obtain rfl := Option.some.inj (hc.symm.trans h)
    exact ⟨hmem, hle⟩

/-- Nothing comes next only where the agenda is empty. -/
theorem next?_eq_none (h : t.next? = none) : t.agenda = [] := by
  unfold next? at h
  cases hagenda : t.agenda with
  | nil => rfl
  | cons b ps =>
    rw [hagenda] at h
    obtain ⟨c, hc, -⟩ := foldl_first ps b
    cases hc.symm.trans h

/-- What is on the agenda is the start of the work that waits, or an end of running work. -/
theorem mem_agenda : (timer, p) ∈ t.agenda ↔
    (∃ d w, t.debouncer = some d ∧ d.armed = some ⟨timer.due, timer.ticket, w⟩ ∧ p = .start w) ∨
      ∃ label, (timer, label) ∈ t.running ∧ p = .done label := by
  rw [agenda, List.mem_append]
  -- On the agenda stand the debouncer, if it waits, and all running work.
  refine or_congr ?_ ?_
  · constructor
    · intro h
      obtain ⟨a, ha, heq⟩ := Option.map_eq_some_iff.mp (Option.mem_toList.mp h)
      obtain ⟨d, hd, harmed⟩ := Option.bind_eq_some_iff.mp ha
      obtain ⟨rfl, rfl⟩ := Prod.mk.inj heq
      exact ⟨d, a.callback.2, hd, harmed, rfl⟩
    · rintro ⟨d, w, hd, harmed, rfl⟩
      simp [hd, harmed]
  · constructor
    · intro h
      obtain ⟨r, hr, heq⟩ := List.mem_map.mp h
      obtain ⟨rfl, rfl⟩ := Prod.mk.inj heq
      exact ⟨r.2, hr, rfl⟩
    · rintro ⟨label, hr, rfl⟩
      exact List.mem_map.mpr ⟨(timer, label), hr, rfl⟩

/-! ## §3 Making something happen -/

/-- Nothing on the agenda comes before a time. -/
def From (t : Timeline) (time : Nat) : Prop :=
  ∀ q ∈ t.agenda, time ≤ q.1.due

/-- The log of the work that waits, if it starts by a time. -/
def starts (t : Timeline) (time finish : Nat) : List (Nat × WorkEvent) :=
  (t.waiting.lapse time).1.flatMap fun a => a.callback.log a.due finish

/-- How much can happen at most. -/
def backlog (t : Timeline) : Nat :=
  t.running.length + if t.waiting.isPending then 2 else 0

/-- The agenda has the running work, and the work that waits. -/
theorem length_agenda (t : Timeline) :
    t.agenda.length = t.running.length + if t.waiting.isPending then 1 else 0 := by
  rw [agenda, List.length_append, List.length_map, Nat.add_comm]
  cases h : t.debouncer.bind (·.armed) <;> simp [waiting, Debouncer.isPending, h]

/-- Running work is taken out alone when it is done. -/
theorem running_perm (h : t.Sound) {label : Int} (hmem : (timer, label) ∈ t.running) :
    t.running.Perm ((timer, label) :: t.running.filter (·.1 ≠ timer)) := by
  have herase : t.running.erase (timer, label) = t.running.filter (·.1 ≠ timer) := by
    rw [(List.Nodup.of_map _ h.nodup).erase_eq_filter]
    refine List.filter_congr fun r hr => ?_
    -- Only the work itself has its timer, as only that has its ticket.
    have hiff : r.1 = timer ↔ r = (timer, label) := by
      constructor
      · intro htimer
        exact List.inj_on_of_nodup_map h.nodup hr hmem (congrArg Timer.ticket htimer)
      · intro heq
        rw [heq]
    simp [bne, hiff, Bool.beq_eq_decide_eq]
  rw [← herase]
  exact List.perm_cons_erase hmem

/-- What one happening leaves of what is to happen by a time. -/
structure Happens (t : Timeline) (time due : Nat) (e : WorkEvent) (t' : Timeline) : Prop where
  sound : t'.Sound
  /-- The happening was on the agenda. -/
  exists_mem : ∃ q ∈ t.agenda, q.1.due = due
  /-- What is left, with the happening, is what was there before. -/
  perm : ∀ finish, time ≤ finish →
    ((due, e) :: (t'.starts time finish ++ t'.ends finish)).Perm
      (t.starts time finish ++ t.ends finish)
  lapse_eq : (t'.waiting.lapse time).2 = (t.waiting.lapse time).2
  /-- Nothing new comes before the happening. -/
  fromDue : t'.From due
  backlog_lt : t'.backlog < t.backlog
  delay_eq : t'.delay? = t.delay?

/-- The end of running work takes this work away and nothing else. -/
theorem happens_done (h : t.Sound) {time : Nat} {label : Int} (hmem : (timer, label) ∈ t.running)
    (hle : timer.due ≤ time) (hfirst : t.From timer.due) :
    t.Happens time timer.due (.done label)
      { t with running := t.running.filter (·.1 ≠ timer) } := by
  have hperm := running_perm h hmem
  have hsub : (t.running.filter (·.1 ≠ timer)).Sublist t.running := List.filter_sublist
  -- Only running work gets less; the work that waits stays.
  refine ⟨⟨?_, ?_⟩, ?_, ?_, rfl, ?_, ?_, rfl⟩
  · exact h.nodup.sublist (hsub.map _)
  · exact fun r hr => h.ticket_lt r (hsub.subset hr)
  · exact ⟨(timer, .done label), mem_agenda.mpr (.inr ⟨label, hmem, rfl⟩), rfl⟩
  · intro finish hfinish
    have hends := (hperm.filter (·.1.due ≤ finish)).map fun r => (r.1.due, WorkEvent.done r.2)
    rw [List.filter_cons_of_pos (by simpa using Nat.le_trans hle hfinish)] at hends
    exact List.perm_middle.symm.trans (hends.symm.append_left _)
  · rintro ⟨timer', p⟩ hq
    refine hfirst (timer', p) (mem_agenda.mpr ?_)
    rcases mem_agenda.mp hq with hwaiting | ⟨label', hr, hp⟩
    · exact .inl hwaiting
    · exact .inr ⟨label', hsub.subset hr, hp⟩
  · have hlength := hperm.length_eq
    rw [List.length_cons] at hlength
    exact Nat.add_lt_add_right (by dsimp only; omega) _

/-- The timeline once the work that waits has started. -/
theorem happen_start (t : Timeline) (timer : Timer) (w : Work) :
    t.happen timer (.start w) =
      ({ t with
          debouncer := t.debouncer.map (·.cancel)
          tickets := t.tickets + (w.running timer.due t.tickets).length
          running := t.running ++ w.running timer.due t.tickets }, .started w.label) := by
  by_cases hzero : w.duration = 0 <;> simp [happen, Work.running, hzero]

/-- The start of the work that waits makes it running work. -/
theorem happens_start (h : t.Sound) {time : Nat} {d : Debouncer (Nat × Work)} {w : Work}
    (hd : t.debouncer = some d) (harmed : d.armed = some ⟨timer.due, timer.ticket, w⟩)
    (hle : timer.due ≤ time) (hfirst : t.From timer.due) :
    t.Happens time timer.due (.started w.label) (t.happen timer (.start w)).1 := by
  -- What waits is this piece of work, and nothing waits afterwards.
  have hwaiting : t.waiting = ⟨0, some ⟨timer.due, w⟩⟩ := by simp [waiting, hd, harmed]
  have hstarts (finish : Nat) : t.starts time finish = w.log timer.due finish := by
    simp [starts, hwaiting, lapse, hle]
  have hwaiting' : (t.happen timer (.start w)).1.waiting = ⟨0, none⟩ := by
    simp [happen_start, waiting, hd, Debouncer.cancel]
  have hstarts' (finish : Nat) : (t.happen timer (.start w)).1.starts time finish = [] := by
    simp [starts, hwaiting', lapse]
  refine ⟨⟨?nodup, ?ticket_lt⟩, ?mem, ?perm, ?lapse, ?fromDue, ?backlog, ?delay⟩
  case nodup =>
    rw [happen_start, List.map_append]
    refine List.nodup_append.mpr ⟨h.nodup, w.nodup_running _ _, ?_⟩
    intro n hn m hm
    obtain ⟨r, hr, rfl⟩ := List.mem_map.mp hn
    obtain ⟨r', hr', rfl⟩ := List.mem_map.mp hm
    -- The new ticket is beyond all that were given out.
    rw [(w.mem_running hr').1]
    exact Nat.ne_of_lt (h.ticket_lt r hr)
  case ticket_lt =>
    rw [happen_start]
    intro r hr
    rcases List.mem_append.mp hr with hr | hr
    · exact Nat.lt_add_right _ (h.ticket_lt r hr)
    · rw [(w.mem_running hr).1]
      exact Nat.lt_add_of_pos_right (List.length_pos_of_mem hr)
  case mem =>
    exact ⟨(timer, .start w), mem_agenda.mpr (.inl ⟨d, w, hd, harmed, rfl⟩), rfl⟩
  case perm =>
    intro finish _
    -- Its start is what happens, and its end is one of those of running work from now on.
    rw [hstarts, hstarts', w.log_eq_running timer.due t.tickets]
    refine .cons _ ?_
    simp only [happen_start, ends, List.nil_append, List.filter_append, List.map_append]
    exact List.perm_append_comm
  case lapse => simp [hwaiting, hwaiting', lapse, hle, Debouncer.cancel]
  case fromDue =>
    rintro ⟨timer', p⟩ hq
    rw [happen_start] at hq
    rcases mem_agenda.mp hq with ⟨d', w', hd', harmed', -⟩ | ⟨label, hr, hp⟩
    · -- Nothing waits any more.
      rw [hd] at hd'
      obtain rfl := Option.some.inj hd'
      cases harmed'
    · rcases List.mem_append.mp hr with hr | hr
      · exact hfirst (timer', p) (mem_agenda.mpr (.inr ⟨label, hr, hp⟩))
      · exact (w.mem_running hr).2
  case backlog =>
    -- The work that has started counts once, where it counted twice when it waited.
    have hlength : (t.happen timer (.start w)).1.running.length ≤ t.running.length + 1 := by
      simpa [happen_start] using w.length_running_le timer.due t.tickets
    simp only [backlog, hwaiting, hwaiting', Debouncer.isPending, Option.isSome_none,
      Option.isSome_some, Bool.false_eq_true, if_false, if_true]
    omega
  case delay => simp [happen_start, delay?, hd, Debouncer.cancel]

/-- Whatever is next leaves of what is to happen by a time all but itself. -/
theorem happens_next (h : t.Sound) (hnext : t.next? = some (timer, p)) {time : Nat}
    (hle : timer.due ≤ time) :
    t.Happens time timer.due (t.happen timer p).2 (t.happen timer p).1 := by
  obtain ⟨hmem, hfirst⟩ := next?_eq_some hnext
  rcases mem_agenda.mp hmem with ⟨d, w, hd, harmed, rfl⟩ | ⟨label, hr, rfl⟩
  · rw [show (t.happen timer (.start w)).2 = .started w.label by rw [happen_start]]
    exact happens_start h hd harmed hle hfirst
  · exact happens_done h hr hle hfirst

/-! ## §4 Letting time pass -/

/-- What happens by a time, with when it happens, and the timeline afterwards. -/
structure Passes (t : Timeline) (time : Nat) (log : List (Nat × WorkEvent)) (t' : Timeline) :
    Prop where
  sound : t'.Sound
  sorted : log.Pairwise (·.1 ≤ ·.1)
  le_time : ∀ e ∈ log, e.1 ≤ time
  le_of_from : ∀ first, t.From first → ∀ e ∈ log, first ≤ e.1
  /-- What happens, and what is left of running work, is what was to happen. -/
  perm : ∀ finish, time ≤ finish →
    (log ++ t'.ends finish).Perm (t.starts time finish ++ t.ends finish)
  waiting_eq : t'.waiting = (t.waiting.lapse time).2
  /-- Nothing that is due is left. -/
  fromLater : t'.From (time + 1)
  delay_eq : t'.delay? = t.delay?

/-- The work that waits is on the agenda. -/
theorem exists_mem_agenda_of_waiting {a : Armed Work} (h : t.waiting.armed = some a) :
    ∃ q ∈ t.agenda, q.1.due = a.due := by
  obtain ⟨b, hb, rfl⟩ := Option.map_eq_some_iff.mp h
  obtain ⟨d, hd, harmed⟩ := Option.bind_eq_some_iff.mp hb
  exact ⟨(⟨b.due, b.callback.1⟩, .start b.callback.2),
    mem_agenda.mpr (.inl ⟨d, b.callback.2, hd, harmed, rfl⟩), rfl⟩

/-- Where nothing is due by a time, nothing happens by then. -/
theorem passes_nil (h : t.Sound) {time : Nat} (hlater : t.From (time + 1)) :
    t.Passes time [] t := by
  have hlapse : t.waiting.lapse time = ([], t.waiting) := by
    refine Debouncer.lapse_of_lt fun a ha => ?_
    obtain ⟨q, hq, hdue⟩ := exists_mem_agenda_of_waiting ha
    exact hdue ▸ hlater q hq
  refine ⟨h, .nil, by simp, by simp, ?_, ?_, hlater, rfl⟩
  · intro finish _
    simp [starts, hlapse]
  · rw [hlapse]

/-- One happening, and then everything else that happens by a time. -/
theorem Happens.passes {t' t'' : Timeline} {time due : Nat} {e : WorkEvent}
    {log : List (Nat × WorkEvent)} (h : t.Happens time due e t') (hle : due ≤ time)
    (hpasses : t'.Passes time log t'') : t.Passes time ((due, e) :: log) t'' := by
  obtain ⟨q, hq, hdue⟩ := h.exists_mem
  have hdue_le : ∀ x ∈ log, due ≤ x.1 := hpasses.le_of_from due h.fromDue
  refine ⟨hpasses.sound, ?_, ?_, ?_, ?_, ?_, hpasses.fromLater, ?_⟩
  · exact List.pairwise_cons.mpr ⟨hdue_le, hpasses.sorted⟩
  · exact List.forall_mem_cons.mpr ⟨hle, hpasses.le_time⟩
  · intro first hfirst
    have hfirst_le : first ≤ due := hdue ▸ hfirst q hq
    exact List.forall_mem_cons.mpr
      ⟨hfirst_le, fun x hx => Nat.le_trans hfirst_le (hdue_le x hx)⟩
  · intro finish hfinish
    exact ((hpasses.perm finish hfinish).cons _).trans (h.perm finish hfinish)
  · rw [hpasses.waiting_eq, h.lapse_eq]
  · rw [hpasses.delay_eq, h.delay_eq]

/-- Everything that is due happens if there is fuel for it. -/
theorem runUntil_passes (h : t.Sound) (time : Nat) {fuel : Nat} (hfuel : t.backlog ≤ fuel) :
    ∃ log, log.map (·.2) = (runUntil time fuel t).2 ∧
      t.Passes time log (runUntil time fuel t).1 := by
  have hempty {t : Timeline} (hnil : t.agenda = []) : t.From (time + 1) := by simp [From, hnil]
  -- By induction on the fuel: each happening makes the backlog smaller.
  induction fuel generalizing t with
  | zero =>
    -- Nothing runs and nothing waits.
    have hnil : t.agenda = [] := by
      rw [← List.length_eq_zero_iff, length_agenda]
      unfold backlog at hfuel
      split at hfuel <;> simp_all
    exact ⟨[], rfl, passes_nil h (hempty hnil)⟩
  | succ fuel ih =>
    unfold runUntil
    split
    next hnext => exact ⟨[], rfl, passes_nil h (hempty (next?_eq_none hnext))⟩
    -- What is next is due later, or it happens and there is less to come.
    next timer p hnext =>
      split
      next hlt =>
        have hlater : t.From (time + 1) := fun q hq =>
          Nat.le_trans hlt ((next?_eq_some hnext).2 q hq)
        exact ⟨[], rfl, passes_nil h hlater⟩
      next hle =>
        have hhappens := happens_next h hnext (Nat.le_of_not_lt hle)
        have hless := hhappens.backlog_lt
        obtain ⟨log, hlog, hpasses⟩ := ih hhappens.sound (by omega)
        refine ⟨(timer.due, (t.happen timer p).2) :: log, ?_, ?_⟩
        · rw [List.map_cons, hlog]
        · exact hhappens.passes (Nat.le_of_not_lt hle) hpasses

/-- The clock moves to a time, and everything that is due by then happens. -/
theorem moveTo_passes (h : t.Sound) (time : Nat) :
    ∃ log, log.map (·.2) = (t.moveTo time).2 ∧ t.Passes time log (t.moveTo time).1 := by
  have hfuel : t.backlog ≤ t.agenda.length + 2 := by
    rw [length_agenda, backlog]
    split <;> omega
  obtain ⟨log, hlog, hpasses⟩ := runUntil_passes h time hfuel
  exact ⟨log, hlog, ⟨hpasses.sound.nodup, hpasses.sound.ticket_lt⟩, hpasses.sorted,
    hpasses.le_time, hpasses.le_of_from, hpasses.perm, hpasses.waiting_eq, hpasses.fromLater,
    hpasses.delay_eq⟩

/-! ## §5 Steps -/

/-- What a step does with a debouncer of a quiet time, if it was not dropped. -/
def Step.moves (delay? : Option Nat) (s : Step) : List (Move Work) :=
  match delay?, s with
  | _, .advance time => [.advance time]
  | some delay, .schedule w => [.schedule delay w]
  | some _, .scheduleAfter delay w => [.schedule delay w]
  | some _, .cancel => [.cancel]
  | some _, .drop => [.cancel]
  | none, _ => []

/-- The quiet time after a step, unless the debouncer was dropped. -/
def Step.delayAfter (delay? : Option Nat) : Step → Option Nat
  | .drop => none
  | _ => delay?

/-- What steps do with a debouncer of a quiet time, if it was not dropped. -/
def moves (delay? : Option Nat) : List Step → List (Move Work)
  | [] => []
  | s :: rest => s.moves delay? ++ moves (s.delayAfter delay?) rest

/-- What moves of a debouncer come to on a timeline: what happens, with when it happens, and the
timeline afterwards. -/
structure Runs (t : Timeline) (ms : List (Move Work)) (log : List (Nat × WorkEvent))
    (t' : Timeline) : Prop where
  sound : t'.Sound
  now_eq : t'.now = clockAfter t.now ms
  fromLater : t'.From (t'.now + 1)
  sorted : log.Pairwise (·.1 ≤ ·.1)
  within : ∀ e ∈ log, t.now ≤ e.1 ∧ e.1 ≤ t'.now
  perm : ∀ finish, t'.now ≤ finish →
    (log ++ t'.ends finish).Perm
      ((t.waiting.play t.now ms).1.flatMap (fun a => a.callback.log a.due finish) ++ t.ends finish)
  waiting_eq : t'.waiting = (t.waiting.play t.now ms).2

theorem runs_nil (h : t.Sound) (hlater : t.From (t.now + 1)) : t.Runs [] [] t := by
  refine ⟨h, rfl, hlater, .nil, by simp, ?_, rfl⟩
  intro finish _
  exact .refl _

/-- Moves one after the other come to what both come to. -/
theorem Runs.append {t' t'' : Timeline} {ms ms' : List (Move Work)}
    {log log' : List (Nat × WorkEvent)} (h : t.Runs ms log t') (h' : t'.Runs ms' log' t'') :
    t.Runs (ms ++ ms') (log ++ log') t'' := by
  have hnow : t.now ≤ t'.now := h.now_eq ▸ Debouncer.le_clockAfter _ _
  have hnow' : t'.now ≤ t''.now := h'.now_eq ▸ Debouncer.le_clockAfter _ _
  -- The calls of the second half are made with what waits after the first half.
  have hplay := Debouncer.play_append t.now t.waiting ms ms'
  rw [← h.waiting_eq, ← h.now_eq] at hplay
  refine ⟨h'.sound, ?_, h'.fromLater, ?_, ?_, ?_, ?_⟩
  · rw [h'.now_eq, h.now_eq, Debouncer.clockAfter_append]
  · refine List.pairwise_append.mpr ⟨h.sorted, h'.sorted, fun e he e' he' => ?_⟩
    exact Nat.le_trans (h.within e he).2 (h'.within e' he').1
  · intro e he
    rcases List.mem_append.mp he with he | he
    · exact ⟨(h.within e he).1, Nat.le_trans (h.within e he).2 hnow'⟩
    · exact ⟨Nat.le_trans hnow (h'.within e he).1, (h'.within e he).2⟩
  · intro finish hfinish
    have hperm := h.perm finish (Nat.le_trans hnow' hfinish)
    have hperm' := h'.perm finish hfinish
    rw [hplay, List.flatMap_append, List.append_assoc, List.append_assoc]
    -- The ends of what still runs in between go to the second half.
    exact ((hperm'.append_left log).trans (List.perm_append_comm_assoc _ _ _)).trans
      ((hperm.append_left _).trans (List.perm_append_comm_assoc _ _ _))
  · rw [hplay, h'.waiting_eq]

/-- Where nothing is due, letting no time pass changes nothing. -/
theorem moveTo_now (hlater : t.From (t.now + 1)) : t.moveTo t.now = (t, []) := by
  have hrun : runUntil t.now (t.agenda.length + 2) t = (t, []) := by
    unfold runUntil
    split
    next => rfl
    next timer p hnext =>
      have hlt : t.now < timer.due := hlater _ (next?_eq_some hnext).1
      rw [if_pos hlt]
  rw [moveTo, hrun]

/-- What is done to the debouncer by a move, and what happens then. -/
theorem moveTo_runs {u : Timeline} {m : Move Work} {time : Nat} (hu : u.Sound)
    (hrunning : u.running = t.running) (hfrom : u.From t.now)
    (hact : t.waiting.act t.now m = (time, u.waiting)) :
    ∃ log, log.map (·.2) = (u.moveTo time).2 ∧ t.Runs [m] log (u.moveTo time).1 ∧
      (u.moveTo time).1.delay? = u.delay? := by
  obtain ⟨log, hlog, hpasses⟩ := moveTo_passes hu time
  -- The move is followed by a lapse up to the time it leads to.
  have hplay : t.waiting.play t.now [m] =
      ((u.waiting.lapse time).1, (u.waiting.lapse time).2) := by
    simp [Debouncer.play, hact]
  have htime : time = clockAfter t.now [m] := by
    have := congrArg Prod.fst hact
    cases m <;> exact this.symm
  refine ⟨log, hlog, ⟨hpasses.sound, htime, hpasses.fromLater, hpasses.sorted, ?_, ?_, ?_⟩,
    hpasses.delay_eq⟩
  · exact fun e he => ⟨hpasses.le_of_from t.now hfrom e he, hpasses.le_time e he⟩
  · intro finish hfinish
    have hends : u.ends finish = t.ends finish := by simp only [ends, hrunning]
    rw [hplay, ← hends]
    exact hpasses.perm finish hfinish
  · rw [hplay, hpasses.waiting_eq]

/-- With another debouncer nothing comes before a time either, if what waits in it does not. -/
theorem From.withDebouncer {time tickets : Nat} {debouncer : Option (Debouncer (Nat × Work))}
    (h : t.From time)
    (hwaiting : ∀ d a, debouncer = some d → d.armed = some a → time ≤ a.due) :
    From { t with tickets := tickets, debouncer := debouncer } time := by
  rintro ⟨timer, p⟩ hq
  rcases mem_agenda.mp hq with ⟨d, w, hd, harmed, -⟩ | hrunning
  · exact hwaiting d _ hd harmed
  · exact h (timer, p) (mem_agenda.mpr (.inr hrunning))

/-- Scheduled work takes the place of what waited. -/
theorem schedule_runs (h : t.Sound) (hfrom : t.From t.now) {d : Debouncer (Nat × Work)}
    (hd : t.debouncer = some d) (delay? : Option Nat) (w : Work) :
    let u := (t.schedule delay? w).moveTo t.now
    ∃ log, log.map (·.2) = u.2 ∧ t.Runs [.schedule (delay?.getD d.delay) w] log u.1 ∧
      u.1.delay? = some d.delay := by
  have hdelay : (t.schedule delay? w).delay? = some d.delay := by
    simp [schedule, hd, Timeline.delay?, Debouncer.scheduleAfter]
  rw [← hdelay]
  refine moveTo_runs ?_ ?_ ?_ ?_
  · rw [schedule, hd]
    exact ⟨h.nodup, fun r hr => Nat.lt_succ_of_lt (h.ticket_lt r hr)⟩
  · rw [schedule, hd]
  · rw [schedule, hd]
    refine hfrom.withDebouncer ?_
    rintro d' a ⟨⟩ ⟨⟩
    exact Nat.le_add_right _ _
  · simp [Debouncer.act, Debouncer.scheduleAfter, schedule, hd, waiting]

/-- Work that waits is given up, with the debouncer or not. -/
theorem cancel_runs (h : t.Sound) (hfrom : t.From t.now)
    (debouncer : Option (Debouncer (Nat × Work)))
    (hnone : ∀ d, debouncer = some d → d.armed = none) :
    let u := { t with debouncer := debouncer }
    ∃ log, log.map (·.2) = (u.moveTo t.now).2 ∧ t.Runs [.cancel] log (u.moveTo t.now).1 ∧
      (u.moveTo t.now).1.delay? = u.delay? := by
  refine moveTo_runs ⟨h.nodup, h.ticket_lt⟩ rfl (hfrom.withDebouncer ?_) ?_
  · intro d a hd ha
    rw [hnone d hd] at ha
    cases ha
  · have hwaiting : debouncer.bind (·.armed) = none := Option.bind_eq_none_iff.mpr hnone
    simp [Debouncer.act, Debouncer.cancel, waiting, hwaiting]

/-- Once the debouncer was dropped only the clock goes on. -/
theorem step_of_dropped (hd : t.debouncer = none) (s : Step) :
    (∃ time, s = .advance time) ∨
      t.step s = t.moveTo t.now ∧ s.moves none = [] ∧ s.delayAfter none = none := by
  have hself : { t with debouncer := none } = t := by rw [← hd]
  cases s with
  | advance time => exact .inl ⟨time, rfl⟩
  | schedule w => exact .inr ⟨by simp only [step, apply, schedule, hd], rfl, rfl⟩
  | scheduleAfter delay w => exact .inr ⟨by simp only [step, apply, schedule, hd], rfl, rfl⟩
  | cancel => exact .inr ⟨by simp only [step, apply, hd, Option.map_none, hself], rfl, rfl⟩
  | drop => exact .inr ⟨by simp only [step, apply, hself], rfl, rfl⟩

/-- Each step is the move it stands for, with whatever is due then. -/
theorem step_runs (h : t.Sound) (hlater : t.From (t.now + 1)) (s : Step) :
    ∃ log, log.map (·.2) = (t.step s).2 ∧ t.Runs (s.moves t.delay?) log (t.step s).1 ∧
      (t.step s).1.delay? = s.delayAfter t.delay? := by
  -- Nothing that is due is left from before.
  have hfrom : t.From t.now := fun q hq => Nat.le_of_succ_le (hlater q hq)
  have hadvance (time : Nat) := moveTo_runs (m := .advance time) h rfl hfrom rfl
  cases hd : t.debouncer with
  | none =>
    have hdelay : t.delay? = none := by rw [delay?, hd, Option.map_none]
    rcases step_of_dropped hd s with ⟨time, rfl⟩ | ⟨hstep, hmoves, hafter⟩
    · exact hadvance time
    · rw [hstep, moveTo_now hlater, hdelay, hmoves, hafter]
      exact ⟨[], rfl, runs_nil h hlater, rfl⟩
  | some d =>
    have hdelay : t.delay? = some d.delay := by rw [delay?, hd, Option.map_some]
    rw [hdelay]
    cases s with
    | advance time =>
      rw [← hdelay]
      exact hadvance time
    | schedule w => exact schedule_runs h hfrom hd none w
    | scheduleAfter delay w => exact schedule_runs h hfrom hd (some delay) w
    | cancel =>
      obtain ⟨log, hlog, hruns, hdelay'⟩ :=
        cancel_runs h hfrom (t.debouncer.map (·.cancel)) (by simp [Debouncer.cancel])
      refine ⟨log, hlog, hruns, hdelay'.trans ?_⟩
      simp [delay?, hd, Debouncer.cancel, Step.delayAfter]
    | drop => exact cancel_runs h hfrom none (by simp)

/-! ## §6 Runs -/

/-- Does steps in order. -/
def stepAll (t : Timeline) : List Step → Timeline × List WorkEvent
  | [] => (t, [])
  | s :: rest =>
    let (t, events) := t.step s
    let (t, more) := t.stepAll rest
    (t, events ++ more)

/-- Steps come to what their moves come to, by induction on the steps. -/
theorem stepAll_runs (h : t.Sound) (hlater : t.From (t.now + 1)) (run : List Step) :
    ∃ log, log.map (·.2) = (t.stepAll run).2 ∧
      t.Runs (moves t.delay? run) log (t.stepAll run).1 := by
  induction run generalizing t with
  | nil => exact ⟨[], rfl, runs_nil h hlater⟩
  | cons s rest ih =>
    obtain ⟨log, hlog, hruns, hdelay⟩ := step_runs h hlater s
    obtain ⟨log', hlog', hruns'⟩ := ih hruns.sound hruns.fromLater
    rw [hdelay] at hruns'
    refine ⟨log ++ log', ?_, hruns.append hruns'⟩
    rw [List.map_append, hlog, hlog']
    rfl

/-- The debouncer of a timeline is there until it is dropped, and its quiet time stays. -/
theorem delay?_stepAll (h : t.Sound) (hlater : t.From (t.now + 1)) (run : List Step) :
    (.drop ∈ run → (t.stepAll run).1.delay? = none) ∧
      (.drop ∉ run → (t.stepAll run).1.delay? = t.delay?) := by
  induction run generalizing t with
  | nil => exact ⟨fun hdrop => (List.not_mem_nil hdrop).elim, fun _ => rfl⟩
  | cons s rest ih =>
    obtain ⟨log, -, hruns, hdelay⟩ := step_runs h hlater s
    obtain ⟨ihdrop, ihstay⟩ := ih hruns.sound hruns.fromLater
    -- Whether the debouncer is dropped is decided by the last step that drops it, if there is one.
    by_cases hrest : .drop ∈ rest
    · exact ⟨fun _ => ihdrop hrest, fun hnot => (hnot (List.mem_cons_of_mem s hrest)).elim⟩
    · have hlast : (t.stepAll (s :: rest)).1.delay? = s.delayAfter t.delay? :=
        (ihstay hrest).trans hdelay
      rw [hlast, List.mem_cons]
      cases s <;> simp [hrest, Step.delayAfter]

theorem isPending?_eq_some_true : t.isPending? = some true ↔ t.waiting.isPending = true := by
  cases hd : t.debouncer with
  | none => simp [isPending?, waiting, hd, Debouncer.isPending]
  | some d => simp [isPending?, waiting, hd, Debouncer.isPending]

/-- Work that is scheduled is held back: nothing starts by the call itself. -/
theorem schedule_holds {delay : Nat} (hd : t.delay? = some delay) (delay? : Option Nat) (w : Work) :
    let u := t.schedule delay? w
    u.waiting.armed = some ⟨t.now + delay?.getD delay, w⟩ ∧ u.isPending? = some true ∧
      u.running = t.running ∧ u.now = t.now := by
  obtain ⟨d, hdebouncer, rfl⟩ := Option.map_eq_some_iff.mp hd
  simp [schedule, hdebouncer, isPending?, Debouncer.isPending, Debouncer.scheduleAfter, waiting]

/-! ## §7 What a debouncer does -/

/-- What a debouncer of a quiet time makes of a run. As this holds of every beginning of a run, each
step tells what happens by its end. -/
structure Debounces (delay : Nat) (run : List Step) : Prop where
  /-- The clock moves only when told. -/
  now_eq : ((new delay).stepAll run).1.now = clockAfter 0 (moves (some delay) run)
  /-- The work of the calls that start starts when they are due, once each, and ends when its
  duration is over, and nothing else happens. All is told in the order of time. -/
  log : ∃ log : List (Nat × WorkEvent), log.map (·.2) = ((new delay).stepAll run).2 ∧
    log.Pairwise (·.1 ≤ ·.1) ∧
    log.Perm (((calls 0 (moves (some delay) run)).filter (·.Starts)).flatMap fun c =>
      c.callback.log c.due ((new delay).stepAll run).1.now)
  /-- A call that starts does so before a later one is made: of the calls between two starts only
  the last one can start. -/
  last : (calls 0 (moves (some delay) run)).Pairwise fun c c' => c.Starts → c.due ≤ c'.time
  /-- Something is pending just while a call waits. -/
  pending : ((new delay).stepAll run).1.isPending? = some true ↔
    ∃ c ∈ calls 0 (moves (some delay) run), c.Waits
  /-- There is no answer once the debouncer was dropped. -/
  dropped : ((new delay).stepAll run).1.isPending? = none ↔ .drop ∈ run
  /-- To schedule work, even without a delay, starts nothing by itself: the work waits. -/
  holds : .drop ∉ run → ∀ delay? w,
    let t := ((new delay).stepAll run).1
    let u := t.schedule delay? w
    u.waiting.armed = some ⟨t.now + delay?.getD delay, w⟩ ∧ u.isPending? = some true ∧
      u.running = t.running ∧ u.now = t.now

/-- A debouncer starts the calls that nothing replaces in time, and what has started runs to its
end. -/
theorem debounces (delay : Nat) (run : List Step) : Debounces delay run := by
  have hsound : (new delay).Sound := ⟨List.nodup_nil, by simp [new]⟩
  have hlater : (new delay).From ((new delay).now + 1) := by
    simp [From, agenda, new, Debouncer.new]
  -- The run is that of its moves, from a timeline on which nothing waits or runs.
  obtain ⟨log, hlog, hruns⟩ := stepAll_runs hsound hlater run
  obtain ⟨hdrop, hstay⟩ := delay?_stepAll hsound hlater run
  have hstart :=
    (Debouncer.play_of_idle 0 (d := (new delay).waiting) rfl (moves (some delay) run)).1
  refine ⟨hruns.now_eq, ⟨log, hlog, hruns.sorted, ?log⟩, ?last, ?pending, ?dropped, ?holds⟩
  case log =>
    -- Nothing runs at first, and what runs in the end ends later.
    have hbefore (finish : Nat) : (new delay).ends finish = [] := by simp [ends, new]
    have hafter : ((new delay).stepAll run).1.ends ((new delay).stepAll run).1.now = [] := by
      rw [ends, List.filter_eq_nil_iff.mpr, List.map_nil]
      intro r hr
      have hdue := hruns.fromLater (r.1, .done r.2) (mem_agenda.mpr (.inr ⟨r.2, hr, rfl⟩))
      simpa using Nat.lt_of_succ_le hdue
    have hperm := hruns.perm _ (Nat.le_refl _)
    rw [hbefore, hafter, List.append_nil, List.append_nil] at hperm
    refine hperm.trans (.of_eq ?_)
    exact (congrArg _ hstart).trans (List.flatMap_map _ _ _)
  case last => exact (Debouncer.pairwise_calls 0 _).imp fun h hstarts => h hstarts.1
  case pending =>
    rw [isPending?_eq_some_true, hruns.waiting_eq]
    exact Debouncer.isPending_play 0 rfl _
  case dropped =>
    rw [isPending?, Option.map_eq_none_iff, ← Option.map_eq_none_iff (f := (·.delay))]
    constructor
    · intro hnone
      by_contra h
      cases (hstay h).symm.trans hnone
    · exact hdrop
  case holds => exact fun h => schedule_holds (hstay h)

end Timeline

end QueryPlayground
