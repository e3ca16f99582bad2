import Mathlib.Algebra.Order.BigOperators.Group.Finset
import QueryPlayground.Proofs.Worker.Service

/-!
# Calls come to an end

Each thing that happens either brings some call or job nearer to its end or changes nothing that
matters. So when every caller and the worker get their turns again and again, the calls wait for
nothing but the engine, and as soon as each of its runs comes to an end, every call gets its answer
unless its future was dropped. A run comes to an end when its token fires.

Main statement: `Service.Fair.settles`.
-/

namespace QueryPlayground

/-! ## §1 What is still to be done -/

/-- How much a call has still to go through. The weights leave room for the job, which counts for
itself while it is in the queue. -/
def Status.weight : Status → Nat
  | .sending => 5
  | .waiting => 2
  | .replied _ => 1
  | .answered _ | .abandoned => 0

namespace Errand

/-- Calls are brought nearer to their end, or left where they are. -/
def Forwards (f : Errand → Errand) : Prop :=
  ∀ c, (f c).status = c.status ∨ (f c).status.weight < c.status.weight

theorem forwards_refuse : Forwards refuse := by
  rintro ⟨request, fired, status⟩
  cases status <;> simp [refuse, Status.weight]

theorem forwards_reply (message : Option (Except Error Document)) : Forwards (reply message) := by
  rintro ⟨request, fired, status⟩
  cases status <;> simp [reply, Status.weight]

theorem forwards_receive : Forwards receive := by
  rintro ⟨request, fired, status⟩
  cases status with
  | replied message => cases message <;> simp [receive, Status.weight]
  | sending | waiting | answered | abandoned => simp [receive]

theorem forwards_cancel : Forwards cancel :=
  fun _ => .inl rfl

theorem forwards_abandon : Forwards abandon := by
  rintro ⟨request, fired, status⟩
  cases status <;> simp [abandon, Status.weight]

theorem Forwards.weight_le {f : Errand → Errand} (hf : Forwards f) (c : Errand) :
    (f c).status.weight ≤ c.status.weight := by
  rcases hf c with heq | hlt
  · rw [heq]
  · exact Nat.le_of_lt hlt

end Errand

namespace Service

variable {σ ρ : Type} {e : LiveEngine σ ρ} {m₀ : σ} {s s' : Service σ ρ} {n : Nat}

def load (s : Service σ ρ) (n : Nat) : Nat :=
  s.errands[n]?.elim 0 fun c => c.status.weight

def loads (s : Service σ ρ) : Nat :=
  ∑ n ∈ Finset.range s.errands.length, s.load n

/-- How much is still to be done for the calls and the jobs. -/
def todo (s : Service σ ρ) : Nat :=
  s.loads + 2 * s.queue.length + s.worker.running?.toList.length

/-- Nothing that matters is different: calls, queue and engine are where they were. The engine may
have gone on, and tokens may have fired. -/
structure Alike (s s' : Service σ ρ) : Prop where
  length_eq : s'.errands.length = s.errands.length
  status_eq : ∀ n : Nat, s'.errands[n]?.map Errand.status = s.errands[n]?.map Errand.status
  queue_eq : s'.queue = s.queue
  running_eq : s'.worker.running? = s.worker.running?
  isDead_eq : s'.worker.isDead = s.worker.isDead

theorem Alike.refl (s : Service σ ρ) : s.Alike s :=
  ⟨rfl, fun _ => rfl, rfl, rfl, rfl⟩

theorem Alike.trans {s'' : Service σ ρ} (h : s.Alike s') (h' : s'.Alike s'') : s.Alike s'' :=
  ⟨h'.length_eq.trans h.length_eq, fun n => (h'.status_eq n).trans (h.status_eq n),
    h'.queue_eq.trans h.queue_eq, h'.running_eq.trans h.running_eq,
    h'.isDead_eq.trans h.isDead_eq⟩

theorem Alike.status (h : s.Alike s') {c : Errand} (hc : s.errands[n]? = some c) :
    ∃ c', s'.errands[n]? = some c' ∧ c'.status = c.status := by
  have hstatus := h.status_eq n
  rw [hc, Option.map_some] at hstatus
  exact Option.map_eq_some_iff.mp hstatus

theorem load_eq_elim_status (s : Service σ ρ) (n : Nat) :
    s.load n = (s.errands[n]?.map Errand.status).elim 0 Status.weight := by
  unfold load
  cases s.errands[n]? <;> rfl

theorem Alike.todo_eq (h : s.Alike s') : s'.todo = s.todo := by
  simp only [todo, loads, load_eq_elim_status, h.length_eq, h.status_eq, h.queue_eq, h.running_eq]

/-! ## §2 What brings the end nearer -/

theorem length_errands_update (s : Service σ ρ) (ns : List Nat) (f : Errand → Errand) :
    (s.update ns f).errands.length = s.errands.length := by
  simp [update]

theorem load_update_le {f : Errand → Errand} (hf : Errand.Forwards f) (ns : List Nat) (n : Nat) :
    (s.update ns f).load n ≤ s.load n := by
  simp only [load, errands_update]
  cases s.errands[n]? with
  | none => exact Nat.le_refl _
  | some c =>
    simp only [Option.map_some, Option.elim_some]
    split
    next => exact hf.weight_le c
    next => exact Nat.le_refl _

theorem loads_update_le {f : Errand → Errand} (hf : Errand.Forwards f) (ns : List Nat) :
    (s.update ns f).loads ≤ s.loads := by
  unfold loads
  rw [length_errands_update]
  exact Finset.sum_le_sum fun n _ => load_update_le hf ns n

/-- Where one call is changed, all together lose what it loses. -/
theorem loads_update_add (f : Errand → Errand) {c : Errand} (hc : s.errands[n]? = some c) :
    (s.update [n] f).loads + c.status.weight = s.loads + (f c).status.weight := by
  have hmem : n ∈ Finset.range s.errands.length :=
    Finset.mem_range.mpr (List.getElem?_eq_some_iff.mp hc).1
  have hbefore : s.load n = c.status.weight := by
    simp [load, hc]
  have hafter : (s.update [n] f).load n = (f c).status.weight := by
    simp [load, errands_update, hc]
  have hother : ∑ i ∈ (Finset.range s.errands.length).erase n, (s.update [n] f).load i =
      ∑ i ∈ (Finset.range s.errands.length).erase n, s.load i := by
    refine Finset.sum_congr rfl fun i hi => ?_
    have hne : i ≠ n := Finset.ne_of_mem_erase hi
    simp [load, errands_update, hne]
  unfold loads
  rw [length_errands_update, ← Finset.add_sum_erase _ _ hmem, ← Finset.add_sum_erase _ _ hmem,
    hbefore, hafter, hother]
  omega

theorem todo_update_lt (f : Errand → Errand) {c : Errand} (hc : s.errands[n]? = some c)
    (hlt : (f c).status.weight < c.status.weight) : (s.update [n] f).todo < s.todo := by
  have hloads := loads_update_add f hc
  have htodo : (s.update [n] f).todo = (s.update [n] f).loads + 2 * s.queue.length +
      s.worker.running?.toList.length := rfl
  rw [htodo, todo]
  omega

theorem todo_update {f : Errand → Errand} (hf : Errand.Forwards f) (n : Nat) :
    (s.update [n] f).todo < s.todo ∨ s.Alike (s.update [n] f) := by
  by_cases hlt : ∃ c, s.errands[n]? = some c ∧ (f c).status.weight < c.status.weight
  · obtain ⟨c, hc, hlt⟩ := hlt
    exact .inl (todo_update_lt f hc hlt)
  · -- The call stays as far as it is, and the others are not touched at all.
    right
    refine ⟨length_errands_update s [n] f, fun i => ?_, rfl, rfl, rfl⟩
    rw [errands_update, Option.map_map]
    refine Option.map_congr fun c hc => ?_
    simp only [Function.comp_apply]
    split
    next hi =>
      obtain rfl := List.mem_singleton.mp hi
      exact (hf c).resolve_right fun hweight => hlt ⟨c, hc, hweight⟩
    next => rfl

/-- A call that sends its job loses more than the job adds. -/
theorem todo_accept_lt {c : Errand} (hc : s.errands[n]? = some c) (hsending : c.status = .sending) :
    (s.accept ⟨n, c.request⟩).todo < s.todo := by
  have hloads := loads_update_add .accept hc
  simp only [Errand.accept, hsending, Status.weight] at hloads
  have htodo : (s.accept ⟨n, c.request⟩).todo = (s.update [n] .accept).loads +
      2 * (s.queue ++ [(⟨n, c.request⟩ : Job)]).length + s.worker.running?.toList.length := rfl
  rw [htodo, List.length_append, List.length_singleton, todo]
  omega

theorem todo_skip_lt {job : Job} {rest : List Job} (hqueue : s.queue = job :: rest) :
    (s.skip job rest).todo < s.todo := by
  have hloads := loads_update_le (s := s)
    (Errand.forwards_reply (some (.error .evaluationCancelled))) [job.call]
  have htodo : (s.skip job rest).todo =
      (s.update [job.call] (.reply (some (.error .evaluationCancelled)))).loads +
        2 * rest.length + s.worker.running?.toList.length := rfl
  rw [htodo, todo, hqueue, List.length_cons]
  omega

theorem todo_begin_lt {job : Job} {rest : List Job} (hqueue : s.queue = job :: rest) (run : ρ) :
    (s.begin job rest run).todo < s.todo := by
  have htodo : (s.begin job rest run).todo = s.loads + 2 * rest.length + 1 := rfl
  rw [htodo, todo, hqueue, List.length_cons]
  omega

theorem todo_finish_lt {job : Job} {run : ρ} {seen : List Bool}
    (hworker : s.worker = .running job run seen) (f : Finished) (memory : σ) :
    (s.finish f memory).todo < s.todo := by
  have hloads := loads_update_le (s := s) (Errand.forwards_reply (some f.result)) [f.job.call]
  have htodo : (s.finish f memory).todo =
      (s.update [f.job.call] (.reply (some f.result))).loads + 2 * s.queue.length := rfl
  have hrunning : s.worker.running?.toList.length = 1 := by rw [hworker]; rfl
  rw [htodo, todo, hrunning]
  omega

theorem todo_crash_lt {job : Job} {run : ρ} {seen : List Bool}
    (hworker : s.worker = .running job run seen) : (s.crash job).todo < s.todo := by
  have hloads := loads_update_le (s := s) (Errand.forwards_reply none)
    (job.call :: s.queue.map Job.call)
  have htodo : (s.crash job).todo =
      (s.update (job.call :: s.queue.map Job.call) (.reply none)).loads := rfl
  have hrunning : s.worker.running?.toList.length = 1 := by rw [hworker]; rfl
  rw [htodo, todo, hrunning]
  omega

/-- Where no call is made, the end comes nearer or nothing that matters is different. -/
theorem Step.todo (hs : Step e s s') (hquiet : s'.errands.length = s.errands.length) :
    s'.todo < s.todo ∨ s.Alike s' := by
  cases hs with
  | rest => exact .inr (.refl s)
  | call => simp at hquiet
  | receive => exact todo_update Errand.forwards_receive _
  | cancel => exact todo_update Errand.forwards_cancel _
  | abandon => exact todo_update Errand.forwards_abandon _
  | refuse => exact todo_update Errand.forwards_refuse _
  | accept hc hsending => exact .inl (todo_accept_lt hc hsending)
  | skip _ hqueue => exact .inl (todo_skip_lt hqueue)
  | begin _ hqueue => exact .inl (todo_begin_lt hqueue _)
  | goOn hworker =>
    refine .inr ⟨rfl, fun _ => rfl, rfl, ?_, ?_⟩ <;>
      simp [hworker, Occupation.running?, Occupation.isDead]
  | finish hworker => exact .inl (todo_finish_lt hworker _ _)
  | crash hworker => exact .inl (todo_crash_lt hworker)

theorem todo_receive_lt {c : Errand} {message : Option (Except Error Document)}
    (hc : s.errands[n]? = some c) (hreplied : c.status = .replied message) :
    (s.update [n] .receive).todo < s.todo := by
  refine todo_update_lt .receive hc ?_
  cases message <;> simp [Errand.receive, hreplied, Status.weight]

/-- A call that waits to send its job sends it where there is room, and gives up where the worker is
gone. -/
theorem todo_send_lt {c : Errand} (hc : s.errands[n]? = some c) (hsending : c.status = .sending)
    (hroom : s.worker.isDead = true ∨ s.queue.length < capacity) : (s.send n).todo < s.todo := by
  obtain ⟨request, fired, status⟩ := c
  obtain rfl : status = .sending := hsending
  unfold send
  simp only [hc]
  split
  next hdead =>
    refine todo_update_lt .refuse hc ?_
    simp [Errand.refuse, Status.weight]
  next halive =>
    rw [if_pos (hroom.resolve_left halive)]
    exact todo_accept_lt hc rfl

/-- A worker that waits takes a job if there is one. -/
theorem todo_work_lt_of_idle (hrunning : s.worker.running? = none) (halive : s.worker.isDead = false)
    (hqueue : s.queue ≠ []) : (s.work e).todo < s.todo := by
  obtain ⟨job, rest, hqueue⟩ := List.exists_cons_of_ne_nil hqueue
  cases hworker : s.worker with
  | dead => simp [hworker, Occupation.isDead] at halive
  | running => simp [hworker, Occupation.running?] at hrunning
  | idle memory =>
    simp only [work, hworker, hqueue]
    split
    next => exact todo_skip_lt hqueue
    next => exact todo_begin_lt hqueue _

/-- An engine that sees its token fired comes to an end. -/
theorem work_of_fired (he : e.Heeds) {job : Job} (hrunning : s.worker.running? = some job)
    (hfired : s.fired job.call = true) :
    (∃ run seen, s.worker = .running job run seen) ∧
      ((∃ f memory, s.work e = s.finish f memory) ∨ s.work e = s.crash job) := by
  cases hworker : s.worker with
  | dead => simp [hworker, Occupation.running?] at hrunning
  | idle => simp [hworker, Occupation.running?] at hrunning
  | running job' run seen =>
    obtain rfl : job' = job := by simpa [hworker, Occupation.running?] using hrunning
    refine ⟨⟨run, seen, rfl⟩, ?_⟩
    simp only [work, hworker, hfired]
    cases hstep : e.step run true with
    | goesOn run' => exact (he run run' hstep).elim
    | returns result memory => exact .inl ⟨_, _, rfl⟩
    | crashes => exact .inr rfl

theorem todo_work_lt_of_fired (he : e.Heeds) {job : Job} (hrunning : s.worker.running? = some job)
    (hfired : s.fired job.call = true) : (s.work e).todo < s.todo := by
  obtain ⟨⟨run, seen, hworker⟩, ⟨f, memory, hwork⟩ | hwork⟩ := work_of_fired he hrunning hfired
  · rw [hwork]
    exact todo_finish_lt hworker f memory
  · rw [hwork]
    exact todo_crash_lt hworker

/-! ## §3 Turns without end -/

/-- Where everything is after some turns. -/
def moment (e : LiveEngine σ ρ) (s : Service σ ρ) (turns : Nat → Act) : Nat → Service σ ρ
  | 0 => s
  | i + 1 => (s.moment e turns i).act e (turns i)

/-- No call is made any more, and everyone gets turns again and again. -/
structure Fair (s : Service σ ρ) (turns : Nat → Act) : Prop where
  quiet : ∀ i request fired, turns i ≠ .call request fired
  works : ∀ i, ∃ j ≥ i, turns j = .work
  sends : ∀ n < s.errands.length, ∀ i, ∃ j ≥ i, turns j = .send n
  receives : ∀ n < s.errands.length, ∀ i, ∃ j ≥ i, turns j = .receive n

/-- Each run of the engine comes to an end, be it by itself or as its token fires. -/
def LetsGo (e : LiveEngine σ ρ) (s : Service σ ρ) (turns : Nat → Act) : Prop :=
  ∀ i job, (s.moment e turns i).worker.running? = some job → ∃ j ≥ i,
    (s.moment e turns j).fired job.call = true ∨ (s.moment e turns j).worker.running? ≠ some job

/-- Every call has its answer, or its future was dropped. -/
def AtRest (s : Service σ ρ) : Prop :=
  ∀ (n : Nat) c, s.errands[n]? = some c → (∃ result, c.status = .answered result) ∨ c.status = .abandoned

variable {turns : Nat → Act}

theorem sound_moment (h : s.Sound e m₀) (turns : Nat → Act) (i : Nat) :
    (s.moment e turns i).Sound e m₀ := by
  induction i with
  | zero => exact h
  | succ i ih => exact ih.step (step_act e _ _)

theorem length_errands_send (s : Service σ ρ) (n : Nat) :
    (s.send n).errands.length = s.errands.length := by
  unfold send
  split
  next =>
    split
    next => exact length_errands_update ..
    next => split <;> [exact length_errands_update ..; rfl]
  next => rfl

theorem length_errands_work (e : LiveEngine σ ρ) (s : Service σ ρ) :
    (s.work e).errands.length = s.errands.length := by
  unfold work
  cases s.worker with
  | dead => rfl
  | idle memory =>
    cases s.queue with
    | nil => rfl
    | cons job rest => dsimp only; split <;> [exact length_errands_update ..; rfl]
  | running job run seen =>
    dsimp only
    split
    next => rfl
    next => exact length_errands_update ..
    next => exact length_errands_update ..

theorem length_errands_act (e : LiveEngine σ ρ) (s : Service σ ρ) {a : Act}
    (ha : ∀ request fired, a ≠ .call request fired) :
    (s.act e a).errands.length = s.errands.length := by
  cases a with
  | call request fired => exact (ha request fired rfl).elim
  | send n => exact length_errands_send s n
  | work => exact length_errands_work e s
  | receive | cancel | abandon => exact length_errands_update ..

theorem fired_moment {i j : Nat} (hij : i ≤ j) (hn : (s.moment e turns i).fired n = true) :
    (s.moment e turns j).fired n = true := by
  induction j, hij using Nat.le_induction with
  | base => exact hn
  | succ j _ ih => exact (step_act e _ _).fired ih

namespace Fair

variable (hfair : s.Fair turns)
include hfair

theorem length_moment (e : LiveEngine σ ρ) (i : Nat) :
    (s.moment e turns i).errands.length = s.errands.length := by
  induction i with
  | zero => rfl
  | succ i ih => exact (length_errands_act e _ (hfair.quiet i)).trans ih

theorem todo_moment (e : LiveEngine σ ρ) (i : Nat) :
    (s.moment e turns (i + 1)).todo < (s.moment e turns i).todo ∨
      (s.moment e turns i).Alike (s.moment e turns (i + 1)) :=
  (step_act e _ (turns i)).todo (length_errands_act e _ (hfair.quiet i))

theorem todo_moment_le (e : LiveEngine σ ρ) {i j : Nat} (hij : i ≤ j) :
    (s.moment e turns j).todo ≤ (s.moment e turns i).todo := by
  induction j, hij using Nat.le_induction with
  | base => exact Nat.le_refl _
  | succ j _ ih =>
    rcases hfair.todo_moment e j with hlt | halike
    · exact Nat.le_trans (Nat.le_of_lt hlt) ih
    · exact halike.todo_eq.le.trans ih

/-- Where the end comes no nearer everything stays as it is. -/
theorem alike_moment {i : Nat}
    (hstill : ∀ j ≥ i, ¬ (s.moment e turns (j + 1)).todo < (s.moment e turns j).todo) {j : Nat}
    (hij : i ≤ j) : (s.moment e turns i).Alike (s.moment e turns j) := by
  induction j, hij using Nat.le_induction with
  | base => exact .refl _
  | succ j hij ih => exact ih.trans ((hfair.todo_moment e j).resolve_left (hstill j hij))

/-- As long as a call has no answer the end comes nearer some time. -/
theorem exists_todo_lt (h : s.Sound e m₀) (he : e.Heeds) (hgo : s.LetsGo e turns) {i : Nat}
    (hrest : ¬ (s.moment e turns i).AtRest) :
    ∃ j ≥ i, (s.moment e turns (j + 1)).todo < (s.moment e turns j).todo := by
  by_contra hno
  have hstill : ∀ j ≥ i, ¬ (s.moment e turns (j + 1)).todo < (s.moment e turns j).todo :=
    fun j hj hlt => hno ⟨j, hj, hlt⟩
  have hturn : ∀ j ≥ i, ∀ a, turns j = a →
      ¬ ((s.moment e turns j).act e a).todo < (s.moment e turns j).todo := by
    rintro j hj a rfl
    exact hstill j hj
  have halike {j : Nat} (hj : j ≥ i) := hfair.alike_moment hstill hj
  have hordered := (sound_moment h turns i).ordered
  cases hrunning : (s.moment e turns i).worker.running? with
  | some job =>
    -- The engine would have to run for this job for ever, even after its token has fired.
    obtain ⟨j, hj, hfired | hended⟩ := hgo i job hrunning
    · obtain ⟨k, hk, hwork⟩ := hfair.works j
      have hik : k ≥ i := Nat.le_trans hj hk
      refine hturn k hik .work hwork (todo_work_lt_of_fired he ?_ (fired_moment hk hfired))
      rw [(halike hik).running_eq, hrunning]
    · exact hended ((halike hj).running_eq.trans hrunning)
  | none =>
    have hwaits (halive : (s.moment e turns i).worker.isDead = false) :
        (s.moment e turns i).queue = [] := by
      by_contra hqueue
      obtain ⟨k, hk, hwork⟩ := hfair.works i
      refine hturn k hk .work hwork (todo_work_lt_of_idle ?_ ?_ ?_)
      · rw [(halike hk).running_eq, hrunning]
      · rw [(halike hk).isDead_eq, halive]
      · rwa [(halike hk).queue_eq]
    have hqueue : (s.moment e turns i).queue = [] := by
      cases hdead : (s.moment e turns i).worker.isDead with
      | false => exact hwaits hdead
      | true => exact hordered.emptied hdead
    refine hrest fun n c hc => ?_
    have hn : n < s.errands.length := by
      rw [← hfair.length_moment e i]
      exact (List.getElem?_eq_some_iff.mp hc).1
    cases hstatus : c.status with
    | sending =>
      obtain ⟨k, hk, hsend⟩ := hfair.sends n hn i
      obtain ⟨c', hc', hsame⟩ := (halike hk).status hc
      refine (hturn k hk (.send n) hsend (todo_send_lt hc' (hsame.trans hstatus) (.inr ?_))).elim
      rw [(halike hk).queue_eq, hqueue]
      exact Nat.zero_lt_succ _
    | waiting =>
      -- The job of the call would have to be in the queue.
      have hpending := (sound_moment h turns i).matched.stands n c hc
      simp [hstatus, Stands, pending, hrunning, hqueue] at hpending
    | replied message =>
      obtain ⟨k, hk, hreceive⟩ := hfair.receives n hn i
      obtain ⟨c', hc', hsame⟩ := (halike hk).status hc
      exact (hturn k hk (.receive n) hreceive (todo_receive_lt hc' (hsame.trans hstatus))).elim
    | answered result => exact .inl ⟨result, rfl⟩
    | abandoned => exact .inr rfl

/-- Every call comes to an end. -/
theorem settles (h : s.Sound e m₀) (he : e.Heeds) (hgo : s.LetsGo e turns) :
    ∃ i, (s.moment e turns i).AtRest := by
  have hfrom : ∀ k i, (s.moment e turns i).todo = k → ∃ j, (s.moment e turns j).AtRest := by
    intro k
    -- Each time that a call is open there is less to do some time later.
    induction k using Nat.strongRecOn with
    | ind k ih =>
      rintro i rfl
      by_cases hrest : (s.moment e turns i).AtRest
      · exact ⟨i, hrest⟩
      · obtain ⟨j, hj, hlt⟩ := hfair.exists_todo_lt h he hgo hrest
        exact ih _ (Nat.lt_of_lt_of_le hlt (hfair.todo_moment_le e hj)) (j + 1) rfl
  exact hfrom _ 0 rfl

end Fair

end Service

end QueryPlayground
