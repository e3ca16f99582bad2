import Mathlib.Data.List.Nodup
import QueryPlayground.Worker.Service

/-!
# What holds of the worker and its callers at every moment

Main statements: `Step` has everything that can happen, and `Sound.step` what it preserves.
-/

namespace QueryPlayground

/-! ## §1 Runs of an engine -/

namespace LiveEngine

variable {σ ρ : Type} {e : LiveEngine σ ρ} {m₀ : σ}

/-- What a run comes to with what it sees of its token. -/
def after (e : LiveEngine σ ρ) (run : ρ) : List Bool → Move σ ρ
  | [] => .goesOn run
  | fired :: seen =>
    match e.step run fired with
    | .goesOn run => e.after run seen
    | .returns result memory => .returns result memory
    | .crashes => .crashes

/-- An engine with some memory has made one run after the other and has some memory then. -/
inductive Runs (e : LiveEngine σ ρ) (m₀ : σ) : List Finished → σ → Prop where
  | nil : Runs e m₀ [] m₀
  | concat {fs : List Finished} {f : Finished} {m m' : σ} : Runs e m₀ fs m →
      e.after (e.enter m f.job.request) f.seen = .returns f.result m' → Runs e m₀ (fs ++ [f]) m'

/-- A run ends once the engine sees that its token has fired. -/
def Heeds (e : LiveEngine σ ρ) : Prop :=
  ∀ run run', e.step run true ≠ .goesOn run'

/-- What an engine returns depends on the request and on the token, and not on what was before. -/
def Forgetful (e : LiveEngine σ ρ) : Prop :=
  ∀ m m' request seen,
    (e.after (e.enter m request) seen).result? = (e.after (e.enter m' request) seen).result?

/-- One more look at the token is one more step of the run. -/
theorem after_concat {run run' : ρ} {seen : List Bool} (h : e.after run seen = .goesOn run')
    (fired : Bool) : e.after run (seen ++ [fired]) = e.step run' fired := by
  induction seen generalizing run with
  | nil =>
    obtain rfl := Move.goesOn.inj h
    cases hstep : e.step run fired <;> simp [after, hstep]
  | cons b seen ih =>
    simp only [after, List.cons_append] at h ⊢
    cases hstep : e.step run b with
    | goesOn next =>
      rw [hstep] at h
      exact ih h
    | returns result memory => rw [hstep] at h; cases h
    | crashes => rw [hstep] at h; cases h

/-- A run that has returned is not changed by what happens to its token later. -/
theorem after_append_of_returns {run : ρ} {seen : List Bool} {result : Except Error Document}
    {memory : σ} (h : e.after run seen = .returns result memory) (more : List Bool) :
    e.after run (seen ++ more) = .returns result memory := by
  induction seen generalizing run with
  | nil => cases h
  | cons b seen ih =>
    simp only [after, List.cons_append] at h ⊢
    cases hstep : e.step run b with
    | goesOn next =>
      rw [hstep] at h
      exact ih h
    | returns result' memory' => rw [hstep] at h; exact h
    | crashes => rw [hstep] at h; cases h

/-- Whatever has returned did so in one run from some memory. -/
theorem Runs.of_mem {fs : List Finished} {m : σ} (h : e.Runs m₀ fs m) {f : Finished}
    (hf : f ∈ fs) : ∃ m m', e.after (e.enter m f.job.request) f.seen = .returns f.result m' := by
  induction h with
  | nil => cases hf
  | concat _ hafter ih =>
    rcases List.mem_append.mp hf with hf | hf
    · exact ih hf
    · obtain rfl := List.mem_singleton.mp hf
      exact ⟨_, _, hafter⟩

/-- An engine that keeps nothing in mind returns the same for the same request whenever it sees no
token fired, however often it has looked. -/
theorem result_eq_of_forgetful (he : e.Forgetful) {request : EvalRequest} {m m' n n' : σ}
    {seen seen' : List Bool} {result result' : Except Error Document}
    (h : e.after (e.enter m request) seen = .returns result n)
    (h' : e.after (e.enter m' request) seen' = .returns result' n')
    (hseen : true ∉ seen) (hseen' : true ∉ seen') : result = result' := by
  have hfalse : ∀ l : List Bool, true ∉ l → l = List.replicate l.length false := by
    intro l hl
    refine List.eq_replicate_iff.mpr ⟨rfl, fun b hb => ?_⟩
    cases b with
    | false => rfl
    | true => exact (hl hb).elim
  -- Both runs are seen to their ends where the longer list of looks ends.
  have hlong := after_append_of_returns h (List.replicate seen'.length false)
  have hlong' := after_append_of_returns h' (List.replicate seen.length false)
  have hsame : seen ++ List.replicate seen'.length false =
      seen' ++ List.replicate seen.length false := by
    rw [hfalse seen hseen, hfalse seen' hseen']
    simp [Nat.add_comm]
  have hresult := he m m' request (seen ++ List.replicate seen'.length false)
  rw [hlong, hsame, hlong'] at hresult
  exact Option.some.inj hresult

end LiveEngine

/-! ## §2 What the worker remembers -/

namespace Occupation

variable {σ ρ : Type}

/-- The engine has made some runs one after the other, and is where they have led. -/
def Remembers (e : LiveEngine σ ρ) (m₀ : σ) (fs : List Finished) : Occupation σ ρ → Prop
  | .idle m => e.Runs m₀ fs m
  | .running job run seen =>
    ∃ m, e.Runs m₀ fs m ∧ e.after (e.enter m job.request) seen = .goesOn run
  | .dead job _ =>
    ∃ m seen, e.Runs m₀ fs m ∧ e.after (e.enter m job.request) seen = .crashes

end Occupation

namespace Service

variable {σ ρ : Type}
variable {e : LiveEngine σ ρ} {m₀ : σ} {s s' : Service σ ρ} {n : Nat}

/-- A change of some calls leaves the others as they are. -/
theorem errands_update (s : Service σ ρ) (ns : List Nat) (f : Errand → Errand) (n : Nat) :
    (s.update ns f).errands[n]? = s.errands[n]?.map fun c => if n ∈ ns then f c else c := by
  simp [update]

/-! ## §3 Everything that can happen -/

/-- What happens, where it makes a difference. -/
inductive Step (e : LiveEngine σ ρ) (s : Service σ ρ) : Service σ ρ → Prop where
  | rest : Step e s s
  | call (request : EvalRequest) (fired : Bool) :
      Step e s { s with errands := s.errands ++ [⟨request, fired, .sending⟩] }
  | receive (n : Nat) : Step e s (s.update [n] .receive)
  | cancel (n : Nat) : Step e s (s.update [n] .cancel)
  | abandon (n : Nat) : Step e s (s.update [n] .abandon)
  | refuse {n : Nat} {c : Errand} : s.errands[n]? = some c → c.status = .sending →
      s.worker.isDead = true → Step e s (s.update [n] .refuse)
  | accept {n : Nat} {c : Errand} : s.errands[n]? = some c → c.status = .sending →
      s.worker.isDead = false → s.queue.length < capacity → Step e s (s.accept ⟨n, c.request⟩)
  | skip {memory : σ} {job : Job} {rest : List Job} : s.worker = .idle memory →
      s.queue = job :: rest → s.fired job.call = true → Step e s (s.skip job rest)
  | begin {memory : σ} {job : Job} {rest : List Job} : s.worker = .idle memory →
      s.queue = job :: rest → s.fired job.call = false →
      Step e s (s.begin job rest (e.enter memory job.request))
  | goOn {job : Job} {run run' : ρ} {seen : List Bool} : s.worker = .running job run seen →
      e.step run (s.fired job.call) = .goesOn run' →
      Step e s { s with worker := .running job run' (seen ++ [s.fired job.call]) }
  | finish {job : Job} {run : ρ} {seen : List Bool} {result : Except Error Document}
      {memory : σ} : s.worker = .running job run seen →
      e.step run (s.fired job.call) = .returns result memory →
      Step e s (s.finish ⟨job, seen ++ [s.fired job.call], result⟩ memory)
  | crash {job : Job} {run : ρ} {seen : List Bool} : s.worker = .running job run seen →
      e.step run (s.fired job.call) = .crashes → Step e s (s.crash job)

/-- Sending is one of three things: the worker is gone, there is room, or the call waits for it. -/
theorem step_send (e : LiveEngine σ ρ) (s : Service σ ρ) (n : Nat) : Step e s (s.send n) := by
  unfold send
  split
  next request fired hc =>
    split
    next hdead => exact .refuse hc rfl hdead
    next halive =>
      split
      next hroom => exact .accept hc rfl (by simpa using halive) hroom
      next => exact .rest
  next => exact .rest

/-- What the worker does next depends on the job in hand and on its token at this moment. -/
theorem step_work (e : LiveEngine σ ρ) (s : Service σ ρ) : Step e s (s.work e) := by
  unfold work
  cases hworker : s.worker with
  | dead => exact .rest
  | idle memory =>
    cases hqueue : s.queue with
    | nil => exact .rest
    | cons job rest =>
      dsimp only
      split
      next hfired => exact .skip hworker hqueue hfired
      next hfired => exact .begin hworker hqueue (by simpa using hfired)
  | running job run seen =>
    dsimp only
    split
    next run' hstep => exact .goOn hworker hstep
    next result memory hstep => exact .finish hworker hstep
    next hstep => exact .crash hworker hstep

/-- Every act is a step, of which some do nothing. -/
theorem step_act (e : LiveEngine σ ρ) (s : Service σ ρ) (a : Act) : Step e s (s.act e a) := by
  cases a with
  | call request fired => exact .call request fired
  | send n => exact step_send e s n
  | receive n => exact .receive n
  | cancel n => exact .cancel n
  | abandon n => exact .abandon n
  | work => exact step_work e s

end Service

/-! ## §4 What becomes of a call -/

namespace Errand

/-- A call keeps its request, its token stays fired, and its end is its end. -/
structure Evolves (c c' : Errand) : Prop where
  request_eq : c'.request = c.request
  fired : c.fired = true → c'.fired = true
  answered : ∀ result, c.status = .answered result → c'.status = .answered result
  abandoned : c.status = .abandoned → c'.status = .abandoned

theorem Evolves.refl (c : Errand) : c.Evolves c :=
  ⟨rfl, id, fun _ => id, id⟩

theorem evolves_accept (c : Errand) : c.Evolves c.accept := by
  obtain ⟨request, fired, status⟩ := c
  cases status <;> constructor <;> simp [accept]

theorem evolves_refuse (c : Errand) : c.Evolves c.refuse := by
  obtain ⟨request, fired, status⟩ := c
  cases status <;> constructor <;> simp [refuse]

/-- Only a call that waits takes a message of the worker. -/
theorem evolves_reply (message : Option (Except Error Document)) (c : Errand) :
    c.Evolves (c.reply message) := by
  obtain ⟨request, fired, status⟩ := c
  cases status <;> constructor <;> simp [reply]

theorem evolves_receive (c : Errand) : c.Evolves c.receive := by
  obtain ⟨request, fired, status⟩ := c
  cases status with
  | replied message => cases message <;> constructor <;> simp [receive]
  | sending | waiting | answered | abandoned => constructor <;> simp [receive]

theorem evolves_cancel (c : Errand) : c.Evolves c.cancel := by
  constructor <;> simp [cancel]

theorem evolves_abandon (c : Errand) : c.Evolves c.abandon := by
  obtain ⟨request, fired, status⟩ := c
  cases status <;> constructor <;> simp [abandon]

end Errand

namespace Service

variable {σ ρ : Type} {e : LiveEngine σ ρ} {m₀ : σ} {s s' : Service σ ρ} {n : Nat}

/-- Calls evolve where the change of each single one is of this kind. -/
theorem evolves_update {ns : List Nat} {f : Errand → Errand} (hf : ∀ c : Errand, c.Evolves (f c))
    {c : Errand} (hc : s.errands[n]? = some c) :
    ∃ c', (s.update ns f).errands[n]? = some c' ∧ c.Evolves c' := by
  rw [errands_update, hc, Option.map_some]
  refine ⟨_, rfl, ?_⟩
  split
  next => exact hf c
  next => exact .refl c

/-- Whatever happens, calls evolve. -/
theorem Step.evolves (h : Step e s s') {c : Errand} (hc : s.errands[n]? = some c) :
    ∃ c', s'.errands[n]? = some c' ∧ c.Evolves c' := by
  cases h with
  | rest | begin | goOn => exact ⟨c, hc, .refl c⟩
  | call =>
    refine ⟨c, ?_, .refl c⟩
    rw [List.getElem?_append_left (List.getElem?_eq_some_iff.mp hc).1]
    exact hc
  | receive => exact evolves_update Errand.evolves_receive hc
  | cancel => exact evolves_update Errand.evolves_cancel hc
  | abandon => exact evolves_update Errand.evolves_abandon hc
  | refuse => exact evolves_update Errand.evolves_refuse hc
  | accept => exact evolves_update Errand.evolves_accept hc
  | skip => exact evolves_update (Errand.evolves_reply _) hc
  | finish => exact evolves_update (Errand.evolves_reply _) hc
  | crash => exact evolves_update (Errand.evolves_reply _) hc

theorem fired_eq_true_iff : s.fired n = true ↔ ∃ c, s.errands[n]? = some c ∧ c.fired = true := by
  unfold Service.fired
  cases s.errands[n]? <;> simp

/-- A token that has fired stays fired. -/
theorem Step.fired (h : Step e s s') (hn : s.fired n = true) : s'.fired n = true := by
  obtain ⟨c, hc, hfired⟩ := fired_eq_true_iff.mp hn
  obtain ⟨c', hc', hevolves⟩ := h.evolves hc
  exact fired_eq_true_iff.mpr ⟨c', hc', hevolves.fired hfired⟩

/-- A call has an answer just where its end is one. -/
theorem answer?_eq_some_iff {result : Except Error Document} :
    s.answer? n = some result ↔
      ∃ c, s.errands[n]? = some c ∧ c.status = .answered result := by
  unfold answer?
  split
  next request fired found hc => simp [hc]
  next hne =>
    refine iff_of_false (by simp) ?_
    rintro ⟨⟨request, fired, status⟩, hc, rfl⟩
    exact hne _ _ _ hc

/-- An answer is never taken back. -/
theorem Step.answer? (h : Step e s s') {result : Except Error Document}
    (hn : s.answer? n = some result) : s'.answer? n = some result := by
  obtain ⟨c, hc, hanswered⟩ := answer?_eq_some_iff.mp hn
  obtain ⟨c', hc', hevolves⟩ := h.evolves hc
  exact answer?_eq_some_iff.mpr ⟨c', hc', hevolves.answered result hanswered⟩

/-! ## §5 The order of the jobs -/

/-- The jobs go through queue, worker and engine in one order and one at a time, and nothing waits for
a worker that is gone. -/
structure Ordered (e : LiveEngine σ ρ) (m₀ : σ) (s : Service σ ρ) : Prop where
  order : s.queued = s.reached.map Prod.fst ++ s.worker.dropped ++ s.queue
  once : (s.queued.map Job.call).Nodup
  entered : s.entered = (s.reached.filter fun p => !p.2).map Prod.fst
  single : s.entered = s.finished.map Finished.job ++ s.worker.job?.toList
  computed : s.worker.Remembers e m₀ s.finished
  emptied : s.worker.isDead = true → s.queue = []

theorem ordered_start (e : LiveEngine σ ρ) (m₀ : σ) : (start m₀ : Service σ ρ).Ordered e m₀ where
  order := rfl
  once := .nil
  entered := rfl
  single := rfl
  computed := .nil
  emptied h := nomatch h

/-- Every step keeps the order of the jobs, where a call that is still sending has no job yet. -/
theorem Ordered.step (h : s.Ordered e m₀) (hs : Step e s s')
    (hsending : ∀ n c, s.errands[n]? = some c → c.status = .sending →
      n ∉ s.queued.map Job.call) : s'.Ordered e m₀ := by
  obtain ⟨horder, honce, hentered, hsingle, hcomputed, hemptied⟩ := h
  cases hs with
  | rest | call | receive | cancel | abandon | refuse =>
    -- Only calls are changed.
    exact ⟨horder, honce, hentered, hsingle, hcomputed, hemptied⟩
  | accept hc hstatus halive =>
    refine ⟨?_, ?_, hentered, hsingle, hcomputed, ?_⟩
    · simp [accept, update, horder]
    -- The call that is accepted had no job before, so its number is a new one.
    · have hnew := hsending _ _ hc hstatus
      simp only [accept, List.map_append, List.map_cons, List.map_nil]
      exact List.nodup_append_comm.mp (List.nodup_cons.mpr ⟨hnew, honce⟩)
    · intro hdead
      rw [show s.worker.isDead = true from hdead] at halive
      cases halive
  | skip hworker hqueue hfired =>
    -- A worker that waits has dropped nothing, so the next job comes right after those reached. Its
    -- token has fired, so it is not among those that the engine is entered for.
    rw [hworker] at horder hsingle hcomputed
    refine ⟨?_, honce, ?_, ?_, ?_, ?_⟩
    · simpa [skip, update, hworker, hqueue, Occupation.dropped] using horder
    · simpa [skip, update, hfired] using hentered
    · simpa [skip, update, hworker] using hsingle
    · simpa [skip, update, hworker] using hcomputed
    · simp [skip, update, hworker, Occupation.isDead]
  -- The engine starts from the memory that the runs before have left.
  | begin hworker hqueue hfired =>
    rw [hworker] at horder hsingle hcomputed
    refine ⟨?_, honce, ?_, ?_, ?_, ?_⟩
    · simpa [begin, hqueue, Occupation.dropped] using horder
    · simpa [begin, hfired] using hentered
    · simpa [begin, Occupation.job?] using hsingle
    · exact ⟨_, hcomputed, rfl⟩
    · simp [begin, Occupation.isDead]
  | goOn hworker hstep =>
    rw [hworker] at horder hsingle hcomputed
    obtain ⟨m, hruns, hafter⟩ := hcomputed
    -- The run has looked at its token once more.
    refine ⟨horder, honce, hentered, hsingle, ⟨m, hruns, ?_⟩, ?_⟩
    · rw [LiveEngine.after_concat hafter, hstep]
    · simp [Occupation.isDead]
  | finish hworker hstep =>
    rw [hworker] at horder hsingle hcomputed
    obtain ⟨m, hruns, hafter⟩ := hcomputed
    -- The job moves from the engine to the finished ones.
    refine ⟨horder, honce, hentered, ?_, ?_, ?_⟩
    · simpa [finish, update, Occupation.job?] using hsingle
    · refine LiveEngine.Runs.concat hruns ?_
      rw [LiveEngine.after_concat hafter, hstep]
    · simp [finish, Occupation.isDead]
  -- The queue is dropped with the job in hand, and nothing is left for a worker that is gone.
  | crash hworker hstep =>
    rw [hworker] at horder hsingle hcomputed
    obtain ⟨m, hruns, hafter⟩ := hcomputed
    have hcrash := (LiveEngine.after_concat hafter _).trans hstep
    refine ⟨?_, honce, hentered, hsingle, ⟨m, _, hruns, hcrash⟩, fun _ => rfl⟩
    simpa [crash, update, Occupation.dropped] using horder

/-! ## §6 What a call is due -/

/-- The call of a number was not skipped, and the engine has not returned for it. -/
def Unserved (s : Service σ ρ) (n : Nat) : Prop :=
  (∀ p ∈ s.reached, p.1.call = n → p.2 = false) ∧ ∀ f ∈ s.finished, f.job.call ≠ n

/-- The answer that a call is to have. -/
def Due (s : Service σ ρ) (n : Nat) (result : Except Error Document) : Prop :=
  -- Its job was skipped, or the engine has returned for it, or the worker has gone before that.
  (∃ p ∈ s.reached, p.1.call = n ∧ p.2 = true ∧ result = .error .evaluationCancelled) ∨
    (∃ f ∈ s.finished, f.job.call = n ∧ result = f.result) ∨
    s.worker.isDead = true ∧ s.Unserved n ∧ result = .error .evaluatorUnavailable

/-- The jobs that are with the worker. -/
def pending (s : Service σ ρ) : List Job :=
  s.worker.running?.toList ++ s.queue

/-- What holds of a call that has come some way. -/
def Stands (s : Service σ ρ) (n : Nat) : Status → Prop
  | .sending => n ∉ s.queued.map Job.call
  | .waiting => n ∈ s.pending.map Job.call
  | .replied message => s.Due n (message.getD (.error .evaluatorUnavailable))
  | .answered result => s.Due n result
  | .abandoned => True

/-- As long as the worker is there, what was due stays due. -/
theorem Due.of_alive {result : Except Error Document} (h : s.Due n result)
    (halive : s.worker.isDead = false) (hreached : s.reached ⊆ s'.reached)
    (hfinished : s.finished ⊆ s'.finished) : s'.Due n result := by
  rcases h with ⟨p, hp, hskipped⟩ | ⟨f, hf, hdone⟩ | ⟨hdead, -⟩
  · exact .inl ⟨p, hreached hp, hskipped⟩
  · exact .inr (.inl ⟨f, hfinished hf, hdone⟩)
  · rw [halive] at hdead
    cases hdead

/-- Jobs are reached from the queue. -/
theorem Ordered.mem_queued_of_reached (h : s.Ordered e m₀) {p : Job × Bool} (hp : p ∈ s.reached) :
    p.1 ∈ s.queued := by
  rw [h.order, List.append_assoc]
  exact List.mem_append_left _ (List.mem_map_of_mem hp)

/-- The engine is entered for jobs that were reached and not skipped. -/
theorem Ordered.mem_reached_of_entered (h : s.Ordered e m₀) {job : Job} (hjob : job ∈ s.entered) :
    (job, false) ∈ s.reached := by
  rw [h.entered] at hjob
  obtain ⟨⟨job, fired⟩, hp, rfl⟩ := List.mem_map.mp hjob
  obtain ⟨hmem, hfired⟩ := List.mem_filter.mp hp
  obtain rfl : fired = false := by simpa using hfired
  exact hmem

theorem Ordered.mem_entered_of_finished (h : s.Ordered e m₀) {f : Finished} (hf : f ∈ s.finished) :
    f.job ∈ s.entered := by
  rw [h.single]
  exact List.mem_append_left _ (List.mem_map_of_mem hf)

/-- The worker reaches every call at most once, and enters the engine for it at most once. -/
theorem Ordered.nodup_reached (h : s.Ordered e m₀) :
    (s.reached.map fun p => p.1.call).Nodup := by
  have honce := h.once
  rw [h.order, List.append_assoc, List.map_append, List.map_map] at honce
  exact (List.nodup_append.mp honce).1

theorem Ordered.nodup_entered (h : s.Ordered e m₀) : (s.entered.map Job.call).Nodup := by
  rw [h.entered, List.map_map]
  exact h.nodup_reached.sublist (List.filter_sublist.map _)

/-- The worker comes to a call at most once. -/
theorem Ordered.eq_of_reached (h : s.Ordered e m₀) {p q : Job × Bool} (hp : p ∈ s.reached)
    (hq : q ∈ s.reached) (hcall : p.1.call = q.1.call) : p = q :=
  List.inj_on_of_nodup_map h.nodup_reached hp hq hcall

/-- Without a job a call can have been neither skipped nor finished. -/
theorem Ordered.unserved_of_not_queued (h : s.Ordered e m₀) (hn : n ∉ s.queued.map Job.call) :
    s.Unserved n := by
  constructor
  · rintro p hp rfl
    exact (hn (List.mem_map_of_mem (h.mem_queued_of_reached hp))).elim
  · rintro f hf rfl
    have hreached := h.mem_reached_of_entered (h.mem_entered_of_finished hf)
    exact hn (List.mem_map_of_mem (h.mem_queued_of_reached hreached))

/-- Jobs that are still in the queue or were dropped from it have not been served. -/
theorem Ordered.unserved_of_left (h : s.Ordered e m₀) {job : Job}
    (hjob : job ∈ s.worker.dropped ++ s.queue) : s.Unserved job.call := by
  have honce := h.once
  rw [h.order, List.append_assoc, List.map_append] at honce
  -- Reached jobs and those that are left are different parts of the queue as it was filled.
  have hnot (p) (hp : p ∈ s.reached) : p.1.call ≠ job.call := by
    intro hcall
    have hreached := List.mem_map_of_mem (f := Job.call) (List.mem_map_of_mem (f := Prod.fst) hp)
    exact (List.nodup_append.mp honce).2.2 _ hreached _ (List.mem_map_of_mem hjob) hcall
  constructor
  · exact fun p hp hcall => (hnot p hp hcall).elim
  · intro f hf hcall
    exact hnot _ (h.mem_reached_of_entered (h.mem_entered_of_finished hf)) hcall

/-- The job for which the engine was entered last and has not returned. -/
theorem Ordered.unserved_of_job (h : s.Ordered e m₀) {job : Job} (hjob : s.worker.job? = some job) :
    s.Unserved job.call := by
  have hmem : job ∈ s.entered := by
    rw [h.single, hjob]
    simp
  have hreached := h.mem_reached_of_entered hmem
  constructor
  · intro p hp hcall
    rw [h.eq_of_reached hp hreached hcall]
  · intro f hf hcall
    -- It would have been entered twice.
    have honce := h.nodup_entered
    rw [h.single, hjob, List.map_append] at honce
    have hdone := List.mem_map_of_mem (f := Job.call) (List.mem_map_of_mem (f := Finished.job) hf)
    exact (List.nodup_append.mp honce).2.2 _ hdone job.call (by simp) hcall

/-- A call is due at most one answer. -/
theorem Due.unique (ho : s.Ordered e m₀) {result result' : Except Error Document}
    (h : s.Due n result) (h' : s.Due n result') : result = result' := by
  -- The engine returns for jobs that it was entered for, and these are not skipped.
  have hexclusive {p : Job × Bool} {f : Finished} (hp : p ∈ s.reached) (hskipped : p.2 = true)
      (hf : f ∈ s.finished) (hcall : p.1.call = f.job.call) : False := by
    have hreached := ho.mem_reached_of_entered (ho.mem_entered_of_finished hf)
    rw [ho.eq_of_reached hp hreached hcall] at hskipped
    cases hskipped
  -- There are three ways to be due an answer, and any two of them exclude each other or agree.
  rcases h with ⟨p, hp, rfl, hskipped, rfl⟩ | ⟨f, hf, rfl, rfl⟩ | ⟨-, hunserved, rfl⟩ <;>
    rcases h' with ⟨p', hp', hcall, hskipped', rfl⟩ | ⟨f', hf', hcall, rfl⟩ | ⟨-, hunserved', rfl⟩
  case inl.inl => rfl
  case inl.inr.inl => exact (hexclusive hp hskipped hf' hcall.symm).elim
  case inl.inr.inr => exact absurd (hunserved'.1 p hp rfl) (by simp [hskipped])
  case inr.inl.inl => exact (hexclusive hp' hskipped' hf hcall).elim
  case inr.inl.inr.inl =>
    have honce := ho.nodup_entered
    rw [ho.single, List.map_append, List.map_map] at honce
    rw [List.inj_on_of_nodup_map (List.nodup_append.mp honce).1 hf hf' hcall.symm]
  case inr.inl.inr.inr => exact (hunserved'.2 f hf rfl).elim
  case inr.inr.inl => exact absurd (hunserved.1 p' hp' hcall) (by simp [hskipped'])
  case inr.inr.inr.inl => exact (hunserved.2 f' hf' hcall).elim
  case inr.inr.inr.inr => rfl

/-! ## §7 Calls and jobs -/

/-- The calls are where their jobs are: a job has the request of its call, the engine has seen the
token of that call, and a call is as far as its job. -/
structure Matched (s : Service σ ρ) : Prop where
  own : ∀ job ∈ s.queued, ∃ c, s.errands[job.call]? = some c ∧ c.request = job.request
  watched : ∀ f ∈ s.finished, true ∈ f.seen → s.fired f.job.call = true
  watching : ∀ job run seen, s.worker = .running job run seen → true ∈ seen →
    s.fired job.call = true
  stands : ∀ n c, s.errands[n]? = some c → s.Stands n c.status

theorem matched_start (m₀ : σ) : (start m₀ : Service σ ρ).Matched where
  own _ h := nomatch h
  watched _ h := nomatch h
  watching _ _ _ h := nomatch h
  stands _ _ h := nomatch h

/-- Jobs come from calls, with the request of the call. -/
theorem own_step (h : s.Matched) (hs : Step e s s') :
    ∀ job ∈ s'.queued, ∃ c, s'.errands[job.call]? = some c ∧ c.request = job.request := by
  intro job hjob
  have hold : job ∈ s.queued ∨ ∃ c, s.errands[job.call]? = some c ∧ c.request = job.request := by
    cases hs with
    | accept hc =>
      rcases List.mem_append.mp hjob with hjob | hjob
      · exact .inl hjob
      · obtain rfl := List.mem_singleton.mp hjob
        exact .inr ⟨_, hc, rfl⟩
    | rest | call | receive | cancel | abandon | refuse | skip | begin | goOn | finish | crash =>
      exact .inl hjob
  obtain ⟨c, hc, hrequest⟩ := hold.elim (h.own job) id
  obtain ⟨c', hc', hevolves⟩ := hs.evolves hc
  exact ⟨c', hc', hevolves.request_eq.trans hrequest⟩

/-- A run has seen its token fired only if it has. -/
theorem watching_step (h : s.Matched) (hs : Step e s s') :
    ∀ job run seen, s'.worker = .running job run seen → true ∈ seen →
      s'.fired job.call = true := by
  intro job run seen hworker hseen
  refine hs.fired ?_
  cases hs with
  | rest | call | receive | cancel | abandon | refuse | accept | skip =>
    exact h.watching job run seen hworker hseen
  | begin =>
    obtain ⟨-, -, rfl⟩ := Occupation.running.inj hworker
    cases hseen
  | goOn hrunning =>
    obtain ⟨rfl, -, rfl⟩ := Occupation.running.inj hworker
    rcases List.mem_append.mp hseen with hseen | hseen
    · exact h.watching _ _ _ hrunning hseen
    · exact (List.mem_singleton.mp hseen).symm
  | finish => cases hworker
  | crash => cases hworker

theorem watched_step (h : s.Matched) (hs : Step e s s') :
    ∀ f ∈ s'.finished, true ∈ f.seen → s'.fired f.job.call = true := by
  intro f hf hseen
  refine hs.fired ?_
  cases hs with
  | finish hrunning =>
    rcases List.mem_append.mp hf with hf | hf
    · exact h.watched f hf hseen
    · obtain rfl := List.mem_singleton.mp hf
      rcases List.mem_append.mp hseen with hseen | hseen
      · exact h.watching _ _ _ hrunning hseen
      · exact (List.mem_singleton.mp hseen).symm
  | rest | call | receive | cancel | abandon | refuse | accept | skip | begin | goOn | crash =>
    exact h.watched f hf hseen

/-- A call of which nothing is new stands as it stood. -/
theorem Stands.frame {status : Status} (h : s.Stands n status)
    (hqueued : n ∈ s'.queued.map Job.call → n ∈ s.queued.map Job.call)
    (hpending : n ∈ s.pending.map Job.call → n ∈ s'.pending.map Job.call)
    (hdue : ∀ result, s.Due n result → s'.Due n result) : s'.Stands n status := by
  cases status with
  | sending => exact fun hn => h (hqueued hn)
  | waiting => exact hpending h
  | replied message => exact hdue _ h
  | answered result => exact hdue _ h
  | abandoned => trivial

/-- A message of the worker makes a call that waits due what the message says. -/
theorem Stands.reply {c : Errand} {message : Option (Except Error Document)}
    (h : s.Stands n c.status) (hqueued : s'.queued = s.queued)
    (hdue : ∀ result, s.Due n result → s'.Due n result)
    (hnew : s'.Due n (message.getD (.error .evaluatorUnavailable))) :
    s'.Stands n (c.reply message).status := by
  obtain ⟨request, fired, status⟩ := c
  cases status with
  | sending => exact fun hn => h (hqueued ▸ hn)
  | waiting => exact hnew
  | replied message' => exact hdue _ h
  | answered result => exact hdue _ h
  | abandoned => trivial

/-- To take the reply, or to give up, changes nothing of what is due. -/
theorem Stands.receive {c : Errand} (h : s.Stands n c.status) : s.Stands n c.receive.status := by
  obtain ⟨request, fired, status⟩ := c
  cases status with
  | replied message => cases message <;> exact h
  | sending | waiting | answered | abandoned => exact h

theorem Stands.abandon {c : Errand} (h : s.Stands n c.status) : s.Stands n c.abandon.status := by
  obtain ⟨request, fired, status⟩ := c
  cases status with
  | answered => exact h
  | sending | waiting | replied | abandoned => trivial

/-- Calls whose numbers are not among those that are changed need a look only at what is around
them. -/
theorem stands_of_update (h : s.Matched) {ns : List Nat} {f : Errand → Errand}
    (herrands : s'.errands = (s.update ns f).errands)
    (hchanged : ∀ n ∈ ns, ∀ c, s.errands[n]? = some c → s'.Stands n (f c).status)
    (hother : ∀ n ∉ ns, ∀ status, s.Stands n status → s'.Stands n status) :
    ∀ n c, s'.errands[n]? = some c → s'.Stands n c.status := by
  intro n c hc
  rw [herrands, errands_update] at hc
  obtain ⟨before, hbefore, rfl⟩ := Option.map_eq_some_iff.mp hc
  split
  next hn => exact hchanged n hn before hbefore
  next hn => exact hother n hn _ (h.stands n before hbefore)

theorem pending_of_running {job : Job} {run : ρ} {seen : List Bool}
    (hworker : s.worker = .running job run seen) : s.pending = job :: s.queue := by
  simp [pending, hworker, Occupation.running?]

theorem pending_of_idle {memory : σ} (hworker : s.worker = .idle memory) : s.pending = s.queue := by
  simp [pending, hworker, Occupation.running?]

/-- Every step leaves each call where its job is. -/
theorem stands_step (ho : s.Ordered e m₀) (h : s.Matched) (hs : Step e s s') :
    ∀ n c, s'.errands[n]? = some c → s'.Stands n c.status := by
  have ho' : s'.Ordered e m₀ := ho.step hs fun n c hc hsending => by
    simpa [hsending, Stands] using h.stands n c hc
  cases hs with
  | rest => exact h.stands
  | call request fired =>
    intro n c hc
    rcases Nat.lt_or_ge n s.errands.length with hn | hn
    · rw [List.getElem?_append_left hn] at hc
      exact (h.stands n c hc).frame id id fun _ => id
    · -- The new call has no job yet, since each job belongs to a call that was there.
      have hstatus : c.status = .sending := by
        rw [List.getElem?_append_right hn] at hc
        obtain ⟨hzero, rfl⟩ := List.getElem?_eq_some_iff.mp hc
        simp
      rw [hstatus]
      intro hqueued
      obtain ⟨job, hjob, rfl⟩ := List.mem_map.mp hqueued
      obtain ⟨c', hc', -⟩ := h.own job hjob
      have hlt := (List.getElem?_eq_some_iff.mp hc').1
      omega
  | receive n =>
    refine stands_of_update h rfl (fun n hn c hc => ?_) fun n hn status hstatus => ?_
    · exact ((h.stands n c hc).receive).frame id id fun _ => id
    · exact hstatus.frame id id fun _ => id
  | cancel n =>
    refine stands_of_update h rfl (fun n hn c hc => ?_) fun n hn status hstatus => ?_
    · exact (h.stands n c hc).frame id id fun _ => id
    · exact hstatus.frame id id fun _ => id
  | abandon n =>
    refine stands_of_update h rfl (fun n hn c hc => ?_) fun n hn status hstatus => ?_
    · exact ((h.stands n c hc).abandon).frame id id fun _ => id
    · exact hstatus.frame id id fun _ => id
  | @refuse n c hc hsending hdead =>
    have hnot := h.stands n c hc
    rw [hsending] at hnot
    refine stands_of_update h rfl (fun n' hn' c' hc' => ?_) fun n hn status hstatus => ?_
    · obtain rfl := List.mem_singleton.mp hn'
      obtain rfl := Option.some.inj (hc.symm.trans hc')
      simp only [Errand.refuse, hsending]
      -- Without a job the call has not been served, and the worker is gone.
      exact .inr (.inr ⟨hdead, ho.unserved_of_not_queued hnot, rfl⟩)
    · exact hstatus.frame id id fun _ => id
  | @accept n c hc hsending halive =>
    -- The call moves into the queue together with its job, and all others keep their places.
    refine stands_of_update h rfl (fun n' hn' c' hc' => ?_) fun n' hn' status hstatus => ?_
    · obtain rfl := List.mem_singleton.mp hn'
      obtain rfl := Option.some.inj (hc.symm.trans hc')
      simp [Errand.accept, hsending, Stands, pending, Service.accept]
    · refine hstatus.frame (fun hqueued => ?_) (fun hpending => ?_) fun _ => id
      · simp only [Service.accept, List.map_append, List.mem_append] at hqueued
        exact hqueued.resolve_right hn'
      · simp only [Service.accept, update, pending, ← List.append_assoc] at hpending ⊢
        rw [List.map_append]
        exact List.mem_append_left _ hpending
  | @skip memory job rest hworker hqueue hfired =>
    -- The worker is there, so what was due stays due; the same holds wherever it goes on.
    have hdue : ∀ n result, s.Due n result → (s.skip job rest).Due n result := fun n result hdue =>
      hdue.of_alive (by simp [hworker, Occupation.isDead]) (List.subset_append_left _ _)
        (List.Subset.refl _)
    refine stands_of_update h rfl (fun n hn c hc => ?_) fun n hn status hstatus => ?_
    · obtain rfl := List.mem_singleton.mp hn
      -- The call of the skipped job is due its cancellation.
      exact (h.stands _ c hc).reply rfl (hdue _) (.inl ⟨(job, true), by simp [skip, hfired], rfl, rfl, rfl⟩)
    · refine hstatus.frame id (fun hpending => ?_) (hdue n)
      -- Of those that were pending only the skipped job is not any more.
      rw [pending_of_idle hworker, hqueue, List.map_cons, List.mem_cons] at hpending
      rw [pending_of_idle (s := s.skip job rest) hworker]
      exact hpending.resolve_left fun heq => hn (List.mem_singleton.mpr heq)
  | @begin memory job rest hworker hqueue hfired =>
    intro n c hc
    refine (h.stands n c hc).frame id (fun hpending => ?_) fun result hdue => ?_
    · rwa [pending_of_idle hworker, hqueue] at hpending
    · exact hdue.of_alive (by simp [hworker, Occupation.isDead]) (List.subset_append_left _ _)
        (List.Subset.refl _)
  | goOn hworker hstep =>
    intro n c hc
    refine (h.stands n c hc).frame id (fun hpending => ?_) fun result hdue => ?_
    · rwa [pending_of_running hworker] at hpending
    · exact hdue.of_alive (by simp [hworker, Occupation.isDead]) (List.Subset.refl _)
        (List.Subset.refl _)
  | @finish job run seen result memory hworker hstep =>
    have hdue : ∀ n r, s.Due n r →
        (s.finish ⟨job, seen ++ [s.fired job.call], result⟩ memory).Due n r := fun n r hdue =>
      hdue.of_alive (by simp [hworker, Occupation.isDead]) (List.Subset.refl _)
        (List.subset_append_left _ _)
    refine stands_of_update h rfl (fun n hn c hc => ?_) fun n hn status hstatus => ?_
    · obtain rfl := List.mem_singleton.mp hn
      -- The call of the finished job is due what the engine has returned.
      exact (h.stands _ c hc).reply rfl (hdue _) (.inr (.inl ⟨_, by simp [finish], rfl, rfl⟩))
    · refine hstatus.frame id (fun hpending => ?_) (hdue n)
      rw [pending_of_running hworker, List.map_cons, List.mem_cons] at hpending
      rw [pending_of_idle (s := s.finish _ memory) rfl]
      exact hpending.resolve_left fun heq => hn (List.mem_singleton.mpr heq)
  | @crash job run seen hworker hstep =>
    have hdue : ∀ n r, s.Due n r → (s.crash job).Due n r := fun n r hdue =>
      hdue.of_alive (by simp [hworker, Occupation.isDead]) (List.Subset.refl _)
        (List.Subset.refl _)
    refine stands_of_update h rfl (fun n hn c hc => ?_) fun n hn status hstatus => ?_
    · -- The crash leaves the job of the engine and those in the queue without a result.
      have hunserved : (s.crash job).Unserved n := by
        rcases List.mem_cons.mp hn with rfl | hn
        · exact ho'.unserved_of_job rfl
        · obtain ⟨job', hjob', rfl⟩ := List.mem_map.mp hn
          exact ho'.unserved_of_left (List.mem_append_left _ hjob')
      exact (h.stands n c hc).reply rfl (hdue n) (.inr (.inr ⟨rfl, hunserved, rfl⟩))
    · refine hstatus.frame id (fun hpending => ?_) (hdue n)
      rw [pending_of_running hworker, List.map_cons] at hpending
      exact (hn hpending).elim

/-- What holds of a worker and its calls at every moment. -/
structure Sound (e : LiveEngine σ ρ) (m₀ : σ) (s : Service σ ρ) : Prop where
  ordered : s.Ordered e m₀
  matched : s.Matched

theorem Sound.not_queued (h : s.Sound e m₀) {c : Errand} (hc : s.errands[n]? = some c)
    (hsending : c.status = .sending) : n ∉ s.queued.map Job.call := by
  simpa [hsending, Stands] using h.matched.stands n c hc

theorem Sound.step (h : s.Sound e m₀) (hs : Step e s s') : s'.Sound e m₀ where
  ordered := h.ordered.step hs fun _ _ => h.not_queued
  matched := ⟨own_step h.matched hs, watched_step h.matched hs, watching_step h.matched hs,
    stands_step h.ordered h.matched hs⟩

/-- From something sound only something sound is reached. -/
theorem Sound.actAll (h : s.Sound e m₀) (acts : List Act) : (s.actAll e acts).Sound e m₀ := by
  induction acts generalizing s with
  | nil => exact h
  | cons a acts ih => exact ih (h.step (step_act e s a))

/-- Whatever callers and worker do, everything is sound. -/
theorem sound_actAll (e : LiveEngine σ ρ) (m₀ : σ) (acts : List Act) :
    ((start m₀).actAll e acts).Sound e m₀ :=
  Sound.actAll ⟨ordered_start e m₀, matched_start m₀⟩ acts

end Service

end QueryPlayground
