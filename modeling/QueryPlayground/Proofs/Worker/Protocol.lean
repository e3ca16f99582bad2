import QueryPlayground.Proofs.Worker.Progress

/-!
# What callers can rely on

Whatever the engine does, and however callers and worker take turns: jobs are handled one at a time
and in order, the engine is entered once for each job whose token has not fired when its turn comes,
and each call gets one answer, its own, unless its future was dropped. Who cancels a call or drops it
does not disturb the others. When the engine crashes everyone is told.

Where one call is made after the other, the answers are those of `Worker.serveAll`.

Main statement: `Service.protocol`.
-/

namespace QueryPlayground

/-! ## §1 Results of runs -/

namespace LiveEngine

variable {σ ρ : Type} {e : LiveEngine σ ρ} {m₀ : σ}

/-- An engine that was entered for nothing keeps in mind what it kept in the beginning. -/
theorem Runs.of_nil {m : σ} (h : e.Runs m₀ [] m) : m = m₀ := by
  generalize hfs : [] = fs at h
  cases h with
  | nil => rfl
  | concat => simp at hfs

/-- Runs that end with one job are the runs before it and a run for that job. -/
theorem Runs.of_concat {fs : List Finished} {f : Finished} {m' : σ}
    (h : e.Runs m₀ (fs ++ [f]) m') :
    ∃ m, e.Runs m₀ fs m ∧ e.after (e.enter m f.job.request) f.seen = .returns f.result m' := by
  generalize hall : fs ++ [f] = all at h
  cases h with
  | nil => simp at hall
  | concat hruns hafter =>
    obtain ⟨rfl, hf⟩ := List.append_inj' hall rfl
    obtain rfl := List.singleton_inj.mp hf
    exact ⟨_, hruns, hafter⟩

/-- What an engine returns is determined by the requests for which it was entered so far and by what
it saw of their tokens. -/
theorem Runs.determined {fs fs' : List Finished} {m m' : σ} (h : e.Runs m₀ fs m)
    (h' : e.Runs m₀ fs' m')
    (hsame : fs.map (fun f => (f.job.request, f.seen)) =
      fs'.map fun f => (f.job.request, f.seen)) :
    fs.map Finished.result = fs'.map Finished.result ∧ m = m' := by
  -- By induction on the runs, taking the last one off both lists.
  induction h generalizing fs' m' with
  | nil =>
    obtain rfl : fs' = [] := List.map_eq_nil_iff.mp hsame.symm
    exact ⟨rfl, h'.of_nil.symm⟩
  | @concat fs f m n _ hafter ih =>
    rw [List.map_append] at hsame
    obtain ⟨gs, last, rfl, hgs, hlast⟩ := List.map_eq_append_iff.mp hsame.symm
    obtain ⟨g, rfl, hg⟩ := List.map_eq_singleton_iff.mp hlast
    obtain ⟨hrequest, hseen⟩ := Prod.mk.inj hg
    obtain ⟨k, hruns', hafter'⟩ := h'.of_concat
    obtain ⟨hresults, rfl⟩ := ih hruns' hgs.symm
    -- The last runs begin alike and see the same, so they come to the same.
    rw [hrequest, hseen, hafter] at hafter'
    obtain ⟨hresult, rfl⟩ := Move.returns.inj hafter'
    exact ⟨by simp [hresults, hresult], rfl⟩

end LiveEngine

/-! ## §2 Engines that are called one after the other -/

namespace Engine

/-- An engine that only reacts to requests runs on just until its token fires. -/
theorem heeds_live (engine : Engine) : engine.live.Heeds := by
  intro run run' hstep
  cases hengine : engine run <;> simp [live, hengine] at hstep

/-- An engine that only reacts to requests has nothing to keep in mind. -/
theorem forgetful_live (engine : Engine) : engine.live.Forgetful :=
  fun _ _ _ _ => rfl

end Engine

/-- What a caller has in the end. -/
def Errand.outcome (c : Errand) : Reply :=
  match c.status with
  | .answered result => .answered result
  | .abandoned => .abandoned
  | .sending | .waiting | .replied _ => .unanswered

namespace Service

/-- A call with everything that its caller does. One who is to cancel or to leave does so once the
engine runs for the call. -/
def play (e : LiveEngine Unit EvalRequest) (s : Service Unit EvalRequest) (c : Call) :
    Service Unit EvalRequest :=
  let n := s.errands.length
  let s := s.actAll e [.call c.request (c.patience = .cancelledBefore), .send n, .work]
  let s := s.actAll e
    (match s.worker.running?, c.patience with
    | some job, .cancels => if job.call = n then [.cancel n] else []
    | some job, .leaves => if job.call = n then [.abandon n] else []
    | _, _ => [])
  s.actAll e [.work, .receive n]

/-- Calls that are made one after the other. -/
def playAll (e : LiveEngine Unit EvalRequest) (s : Service Unit EvalRequest) (cs : List Call) :
    Service Unit EvalRequest :=
  cs.foldl (play e) s

/-- A worker is where a simple worker is that serves one call after the other. -/
structure Shows (engine : Engine) (w : Worker) (s : Service Unit EvalRequest) : Prop where
  entered_eq : w.entered = (s.entered.map Job.request).reverse
  -- Where the simple worker is stuck, the engine runs for a call that nobody cancels any more.
  state_eq : match w.state with
    | .ready => s.worker = .idle () ∧ s.queue = []
    | .stuck => ∃ job run seen, s.worker = .running job run seen ∧ engine run = .stalls ∧
        (s.errands[job.call]?.any fun c => !c.fired) = true
    | .dead => ∃ job dropped, s.worker = .dead job dropped

section Play

variable (engine : Engine) (l : List Errand) (x : Errand) (queue : List Job)
  (worker : Occupation Unit EvalRequest) (queued : List Job) (reached : List (Job × Bool))
  (entered : List Job) (finished : List Finished) (request : EvalRequest)

/-- A change of the call that was made last leaves the others as they are. -/
theorem update_concat (f : Errand → Errand) :
    update ⟨l ++ [x], queue, worker, queued, reached, entered, finished⟩ [l.length] f =
      ⟨l ++ [f x], queue, worker, queued, reached, entered, finished⟩ := by
  simp only [update, List.mapIdx_concat]
  congr 2
  -- An earlier call has another number.
  · refine List.ext_getElem (by simp) fun n hn hn' => ?_
    have hne : n ≠ l.length := Nat.ne_of_lt hn'
    simp [hne]
  · simp

/-- The token of the call that was made last. -/
theorem fired_concat :
    fired ⟨l ++ [x], queue, worker, queued, reached, entered, finished⟩ l.length = x.fired := by
  simp [fired]

/-- A call whose token has not fired gets the engine of a worker that waits. -/
theorem open_concat :
    actAll engine.live ⟨l, [], .idle (), queued, reached, entered, finished⟩
        [.call request false, .send l.length, .work] =
      ⟨l ++ [⟨request, false, .waiting⟩], [], .running ⟨l.length, request⟩ request [],
        queued ++ [⟨l.length, request⟩], reached ++ [(⟨l.length, request⟩, false)],
        entered ++ [⟨l.length, request⟩], finished⟩ := by
  simp [actAll, act, send, capacity, Occupation.isDead, accept, update_concat, Errand.accept, work,
    fired_concat, begin, Engine.live]

/-- What comes of the run, and of the call. -/
theorem close_concat :
    actAll engine.live ⟨l ++ [x], [], .running ⟨l.length, request⟩ request [], queued, reached,
        entered, finished⟩ [.work, .receive l.length] =
      match engine.live.step request x.fired with
      | .goesOn run => ⟨l ++ [x.receive], [], .running ⟨l.length, request⟩ run [x.fired], queued,
          reached, entered, finished⟩
      | .returns result memory => ⟨l ++ [(x.reply (some result)).receive], [], .idle memory, queued,
          reached, entered, finished ++ [⟨⟨l.length, request⟩, [x.fired], result⟩]⟩
      | .crashes => ⟨l ++ [(x.reply none).receive], [], .dead ⟨l.length, request⟩ [], queued,
          reached, entered, finished⟩ := by
  cases hstep : engine.live.step request x.fired <;>
    simp [actAll, act, work, fired_concat, hstep, finish, crash, update_concat]

/-- What the caller does to a call for which the engine runs. -/
def told : Patience → Errand → Errand
  | .cancels => .cancel
  | .leaves => .abandon
  | .waits | .cancelledBefore => id

/-- A worker that waits takes the job up, its caller does what his patience tells him, and then it is
the engine's turn. -/
theorem play_of_ready {patience : Patience} (hpatience : patience ≠ .cancelledBefore) :
    play engine.live ⟨l, [], .idle (), queued, reached, entered, finished⟩ ⟨request, patience⟩ =
      actAll engine.live ⟨l ++ [told patience ⟨request, false, .waiting⟩], [],
        .running ⟨l.length, request⟩ request [], queued ++ [⟨l.length, request⟩],
        reached ++ [(⟨l.length, request⟩, false)], entered ++ [⟨l.length, request⟩], finished⟩
        [.work, .receive l.length] := by
  have hopen := open_concat engine l queued reached entered finished request
  cases patience with
  | cancelledBefore => exact (hpatience rfl).elim
  | waits =>
    simp only [play, reduceCtorEq, decide_false, hopen]
    rfl
  | cancels =>
    simp only [play, reduceCtorEq, decide_false, hopen, Occupation.running?, if_true]
    rw [← update_concat]
    rfl
  | leaves =>
    simp only [play, reduceCtorEq, decide_false, hopen, Occupation.running?, if_true]
    rw [← update_concat]
    rfl

/-- A caller has what its patience leaves it of the message. -/
theorem outcome_told {patience : Patience} (hpatience : patience ≠ .cancelledBefore)
    (message : Option (Except Error Document)) :
    ((told patience ⟨request, false, .waiting⟩).reply message).receive.outcome =
      Worker.replyTo patience (message.getD (.error .evaluatorUnavailable)) := by
  cases patience with
  | cancelledBefore => exact (hpatience rfl).elim
  | waits | cancels | leaves => cases message <;> rfl

/-- With an engine that never returns, calls are made and nothing comes of them. -/
theorem play_of_stuck {job : Job} {run : EvalRequest} (hstalls : engine run = .stalls)
    (hfired : (l[job.call]?.any fun c => !c.fired) = true) (seen : List Bool) (c : Call) :
    ∃ x queue' queued' seen', Errand.outcome x = .unanswered ∧
      play engine.live ⟨l, queue, .running job run seen, queued, reached, entered, finished⟩ c =
        ⟨l ++ [x], queue', .running job run seen', queued', reached, entered, finished⟩ := by
  -- The call for which the engine runs was made before this one, and its token has not fired.
  obtain ⟨d, hd, hnot⟩ : ∃ d, l[job.call]? = some d ∧ d.fired = false := by
    cases hd : l[job.call]? <;> simp_all
  have hlt : job.call < l.length := (List.getElem?_eq_some_iff.mp hd).1
  -- In a turn of the worker the engine looks at the token and goes on.
  have hwork (x : Errand) (queue queued seen) :
      work engine.live ⟨l ++ [x], queue, .running job run seen, queued, reached, entered, finished⟩ =
        ⟨l ++ [x], queue, .running job run (seen ++ [false]), queued, reached, entered, finished⟩ := by
    simp [work, fired, List.getElem?_append_left hlt, hd, hnot, Engine.live, hstalls]
  -- There is room in the queue or there is none, and neither way is anything answered.
  have hsend (fired : Bool) : ∃ x queue' queued', x.outcome = .unanswered ∧ x.receive = x ∧
      send (⟨l ++ [⟨c.request, fired, .sending⟩], queue, .running job run seen, queued, reached,
        entered, finished⟩ : Service Unit EvalRequest) l.length =
      ⟨l ++ [x], queue', .running job run seen, queued', reached, entered, finished⟩ := by
    by_cases hroom : queue.length < capacity
    · refine ⟨⟨c.request, fired, .waiting⟩, queue ++ [⟨l.length, c.request⟩],
        queued ++ [⟨l.length, c.request⟩], rfl, rfl, ?_⟩
      simp [send, hroom, Occupation.isDead, accept, update_concat, Errand.accept]
    · refine ⟨⟨c.request, fired, .sending⟩, queue, queued, rfl, rfl, ?_⟩
      simp [send, hroom, Occupation.isDead]
  -- What the new caller has at the end is what it had after sending.
  obtain ⟨x, queue', queued', houtcome, hreceive, hsend⟩ := hsend (c.patience = .cancelledBefore)
  refine ⟨x, queue', queued', seen ++ [false] ++ [false], houtcome, ?_⟩
  -- The engine runs for another call, so the caller does not change its mind.
  have hne : job.call ≠ l.length := Nat.ne_of_lt hlt
  have hpatience : ∀ p : Patience, (match some job, p with
      | some job, .cancels => if job.call = l.length then [Act.cancel l.length] else []
      | some job, .leaves => if job.call = l.length then [Act.abandon l.length] else []
      | _, _ => []) = [] := by
    intro p
    cases p <;> simp [hne]
  simp only [play, actAll, List.foldl_cons, List.foldl_nil, act, hsend, hwork, Occupation.running?,
    hpatience, update_concat, hreceive]

/-- Without a worker a call is refused. -/
theorem play_of_dead (job : Job) (dropped : List Job) (c : Call) :
    play engine.live ⟨l, queue, .dead job dropped, queued, reached, entered, finished⟩ c =
      ⟨l ++ [⟨c.request, true, .answered (.error .evaluatorUnavailable)⟩], queue,
        .dead job dropped, queued, reached, entered, finished⟩ := by
  simp [play, actAll, act, send, work, update_concat, Occupation.isDead, Occupation.running?,
    Errand.refuse, Errand.receive]

/-- A call that was cancelled before it was sent is queued and skipped. -/
theorem play_of_ready_cancelled :
    play engine.live ⟨l, [], .idle (), queued, reached, entered, finished⟩
        ⟨request, .cancelledBefore⟩ =
      ⟨l ++ [⟨request, true, .answered (.error .evaluationCancelled)⟩], [], .idle (),
        queued ++ [⟨l.length, request⟩], reached ++ [(⟨l.length, request⟩, true)], entered,
        finished⟩ := by
  simp [play, actAll, act, send, accept, skip, fired_concat, work, update_concat,
    Occupation.isDead, Occupation.running?, Errand.accept, Errand.reply, Errand.receive, capacity]

end Play

/-- One call after the other, the worker with its callers does what the simple worker does. -/
theorem play_shows {engine : Engine} {w : Worker} {s : Service Unit EvalRequest}
    (h : s.Shows engine w) (c : Call) :
    (s.play engine.live c).errands.map Errand.outcome =
        s.errands.map Errand.outcome ++ [(w.serve engine c).1] ∧
      (s.play engine.live c).Shows engine (w.serve engine c).2 := by
  -- The case is that of the simple worker, which says how it is with the other one.
  obtain ⟨state, requests, gaveUp⟩ := w
  obtain ⟨l, queue, worker, queued, reached, entered, finished⟩ := s
  obtain ⟨hentered, hstate⟩ := h
  obtain rfl : requests = (entered.map Job.request).reverse := hentered
  cases state with
  | dead =>
    obtain ⟨job, dropped, hworker⟩ := hstate
    obtain rfl : worker = .dead job dropped := hworker
    rw [play_of_dead]
    exact ⟨by simp [Worker.serve, Errand.outcome], rfl, job, dropped, rfl⟩
  | stuck =>
    obtain ⟨job, run, seen, hworker, hstalls, hfired⟩ := hstate
    obtain rfl : worker = .running job run seen := hworker
    obtain ⟨x, queue', queued', seen', houtcome, hplay⟩ :=
      play_of_stuck engine l queue queued reached entered finished hstalls hfired seen c
    -- The call for which the engine runs is one of those that were made, so the new one is another.
    have hlt : job.call < l.length := by
      by_contra hge
      rw [List.getElem?_eq_none (by simpa using hge)] at hfired
      cases hfired
    rw [hplay]
    refine ⟨by simp [Worker.serve, houtcome], rfl, job, run, seen', rfl, hstalls, ?_⟩
    rwa [List.getElem?_append_left hlt]
  | ready =>
    obtain ⟨hworker, hqueue⟩ := hstate
    obtain rfl : worker = .idle () := hworker
    obtain rfl : queue = [] := hqueue
    obtain ⟨request, patience⟩ := c
    by_cases hpatience : patience = .cancelledBefore
    · subst hpatience
      rw [play_of_ready_cancelled]
      exact ⟨by simp [Worker.serve, Errand.outcome], rfl, rfl, rfl⟩
    · rw [play_of_ready engine l queued reached entered finished request hpatience, close_concat]
      -- A token that has not fired lets the simple worker enter its engine.
      have hserve : Worker.serve ⟨.ready, (entered.map Job.request).reverse, gaveUp⟩ engine
          ⟨request, patience⟩ =
          Worker.enter ⟨.ready, (entered.map Job.request).reverse, gaveUp⟩ engine
            ⟨request, patience⟩ := if_neg hpatience
      have houtcome := outcome_told request hpatience
      rw [hserve]
      cases hengine : engine request with
      | returns result =>
        simp only [Engine.live, Worker.enter, hengine]
        exact ⟨by simp [houtcome], by simp, rfl, rfl⟩
      | crashes =>
        simp only [Engine.live, Worker.enter, hengine]
        exact ⟨by simp [houtcome], by simp, _, _, rfl⟩
      | stalls =>
        -- Whether the run ends depends on whether the caller has told the engine.
        cases patience with
        | cancelledBefore => exact (hpatience rfl).elim
        | waits =>
          have hfired : (told .waits ⟨request, false, .waiting⟩).fired = false := rfl
          simp only [Engine.live, Worker.enter, hengine, hfired, Bool.false_eq_true, if_false]
          exact ⟨by simp [told, Errand.receive, Errand.outcome], by simp, _, _, _, rfl, hengine,
            by simp [told, Errand.receive]⟩
        | cancels =>
          have hfired : (told .cancels ⟨request, false, .waiting⟩).fired = true := rfl
          simp only [Engine.live, Worker.enter, hengine, hfired, if_true]
          exact ⟨by simp [houtcome], by simp, rfl, rfl⟩
        | leaves =>
          have hfired : (told .leaves ⟨request, false, .waiting⟩).fired = true := rfl
          simp only [Engine.live, Worker.enter, hengine, hfired, if_true]
          exact ⟨by simp [houtcome], by simp, rfl, rfl⟩

/-- Many calls, one after the other. -/
theorem playAll_shows {engine : Engine} {w : Worker} {s : Service Unit EvalRequest}
    (h : s.Shows engine w) (cs : List Call) :
    (s.playAll engine.live cs).errands.map Errand.outcome =
        s.errands.map Errand.outcome ++ (w.serveAll engine cs).1 ∧
      (s.playAll engine.live cs).Shows engine (w.serveAll engine cs).2 := by
  induction cs generalizing w s with
  | nil => exact ⟨by simp [playAll, Worker.serveAll], h⟩
  | cons c cs ih =>
    obtain ⟨houtcome, hshows⟩ := play_shows h c
    obtain ⟨houtcomes, hshows'⟩ := ih hshows
    refine ⟨houtcomes.trans ?_, hshows'⟩
    rw [houtcome, List.append_assoc]
    rfl

/-! ## §3 Workers that are gone -/

variable {σ ρ : Type} {e : LiveEngine σ ρ} {m₀ : σ} {s s' : Service σ ρ} {n : Nat}

/-- Nothing is done any more without a worker. -/
theorem Step.of_dead (h : Step e s s') (hdead : s.worker.isDead = true) :
    s'.worker = s.worker ∧ s'.reached = s.reached ∧ s'.entered = s.entered ∧
      s'.finished = s.finished := by
  cases h with
  | rest | call | receive | cancel | abandon | refuse => exact ⟨rfl, rfl, rfl, rfl⟩
  | accept _ _ halive =>
    rw [hdead] at halive
    cases halive
  | skip hworker | begin hworker | goOn hworker | finish hworker | crash hworker =>
    rw [hworker] at hdead
    cases hdead

theorem actAll_of_dead (hdead : s.worker.isDead = true) (later : List Act) :
    (s.actAll e later).worker = s.worker ∧ (s.actAll e later).reached = s.reached ∧
      (s.actAll e later).entered = s.entered ∧ (s.actAll e later).finished = s.finished := by
  -- By induction over what is done later: each of the four stays as it is.
  induction later generalizing s with
  | nil => exact ⟨rfl, rfl, rfl, rfl⟩
  | cons a later ih =>
    obtain ⟨hworker, hreached, hentered, hfinished⟩ := (step_act e s a).of_dead hdead
    have hrest := ih (s := s.act e a) (hworker ▸ hdead)
    rwa [hworker, hreached, hentered, hfinished] at hrest

/-- An answer that somebody has is one that is due. -/
theorem Sound.due (h : s.Sound e m₀) {result : Except Error Document}
    (hn : s.answer? n = some result) : s.Due n result := by
  obtain ⟨c, hc, hanswered⟩ := answer?_eq_some_iff.mp hn
  have hstands := h.matched.stands n c hc
  rwa [hanswered] at hstands

/-- After a crash a call that has no result by then is told that there is no worker. -/
theorem Sound.unavailable (h : s.Sound e m₀) (hdead : s.worker.isDead = true)
    (hn : s.Unserved n) (later : List Act) {result : Except Error Document}
    (hanswer : (s.actAll e later).answer? n = some result) :
    result = .error .evaluatorUnavailable := by
  obtain ⟨-, hreached, -, hfinished⟩ := actAll_of_dead (e := e) hdead later
  -- What is due to a call is due to a job that was skipped, to one that was finished, or to one
  -- that is lost. The first two would have to be there already when the engine crashes.
  rcases (h.actAll later).due hanswer with ⟨p, hp, hcall, hskipped, -⟩ | ⟨f, hf, hcall, -⟩ | hlost
  · rw [hreached] at hp
    have hnot := hn.1 p hp hcall
    rw [hskipped] at hnot
    cases hnot
  · rw [hfinished] at hf
    exact (hn.2 f hf hcall).elim
  · exact hlost.2.2

/-- A call that is yet to be made has no job. -/
theorem Sound.unserved_of_new (h : s.Sound e m₀) (hn : s.errands.length ≤ n) : s.Unserved n := by
  -- What is queued belongs to a call that was made.
  refine h.ordered.unserved_of_not_queued fun hqueued => ?_
  obtain ⟨job, hjob, rfl⟩ := List.mem_map.mp hqueued
  obtain ⟨c, hc, -⟩ := h.matched.own job hjob
  have hlt := (List.getElem?_eq_some_iff.mp hc).1
  omega

/-! ## §4 The protocol -/

/-- What callers can rely on at any moment. -/
structure Keeps (e : LiveEngine σ ρ) (m₀ : σ) (s : Service σ ρ) : Prop where
  /-- The worker comes to the jobs in the order in which they were queued. The others are in the queue,
  or were there when the engine crashed. -/
  order : s.queued = s.reached.map Prod.fst ++ s.worker.dropped ++ s.queue
  /-- No call has two jobs. -/
  once : (s.queued.map Job.call).Nodup
  /-- A job has the request of its call. -/
  own : ∀ job ∈ s.queued, ∃ c, s.errands[job.call]? = some c ∧ c.request = job.request
  /-- The engine is entered for the jobs whose token had not fired when the worker came to them, in
  that order, and for no other ones. -/
  entered : s.entered = (s.reached.filter fun p => !p.2).map Prod.fst
  /-- It comes to a job in a turn of its own, to the first one that waits, and looks at the token of
  the job in that moment: if the token has fired the job is skipped, and else the engine is entered. It
  passes a turn only where no job waits or where it is at one. -/
  reaches : ∀ a,
    ((s.act e a).reached = s.reached ∧ (s.act e a).entered = s.entered ∧
        (a = .work → s.queue = [] ∨ s.worker.job?.isSome = true)) ∨
      ∃ job rest, a = .work ∧ s.queue = job :: rest ∧
        (s.act e a).reached = s.reached ++ [(job, s.fired job.call)] ∧
        (s.act e a).entered = s.entered ++ if s.fired job.call then [] else [job]
  /-- It returns for one before it is entered for the next. -/
  single : s.entered = s.finished.map Finished.job ++ s.worker.job?.toList
  /-- What it returns for a job comes of its run on the request of that job. It takes from one run to
  the next what it keeps in mind, and nothing else. -/
  computed : s.worker.Remembers e m₀ s.finished
  /-- In that run it sees the token of that call. -/
  watched : ∀ f ∈ s.finished, true ∈ f.seen → s.fired f.job.call = true
  /-- A caller has the answer that is due: that its job was skipped, what the engine has returned for
  it, or that the worker is gone. -/
  answered : ∀ n result, s.answer? n = some result → s.Due n result
  /-- No other answer is due then. -/
  unique : ∀ n result result', s.Due n result → s.Due n result' → result = result'
  /-- An answer is never taken back. -/
  lasting : ∀ n result, s.answer? n = some result → ∀ later,
    (s.actAll e later).answer? n = some result
  /-- Who has dropped the future gets none. -/
  gone : ∀ n c, s.errands[n]? = some c → c.status = .abandoned → ∀ later,
    (s.actAll e later).answer? n = none
  /-- Results depend on the requests for which the engine was entered and on what it saw of their
  tokens. Jobs that were skipped leave no trace in them, and callers that are gone leave none. -/
  determined : ∀ acts, let s' := (start m₀).actAll e acts
    s.finished.map (fun f => (f.job.request, f.seen)) =
      s'.finished.map (fun f => (f.job.request, f.seen)) →
    s.finished.map Finished.result = s'.finished.map Finished.result
  /-- Where the engine keeps nothing in mind, a call whose token does not fire has the same result
  whatever is done by all the others. -/
  unaffected : e.Forgetful → ∀ m acts, let s' := (start m).actAll e acts
    ∀ f ∈ s.finished, ∀ f' ∈ s'.finished, f.job.request = f'.job.request →
      s.fired f.job.call = false → s'.fired f'.job.call = false → f.result = f'.result
  /-- An engine that heeds its token lets go of a job whose token has fired. -/
  freed : e.Heeds → ∀ job, s.worker.running? = some job → s.fired job.call = true →
    (s.work e).worker.running? = none
  /-- When no call is made any more and each run of the engine comes to an end, by itself or because
  its token fires, every call gets its answer unless its future is dropped. -/
  settles : e.Heeds → ∀ turns, s.Fair turns → s.LetsGo e turns →
    ∃ i, (s.moment e turns i).AtRest
  /-- Once the engine has crashed it is never entered again. The call for which it ran, those whose
  jobs were waiting and those that come later have no other answer than that the worker is gone. -/
  crashed : ∀ job dropped, s.worker = .dead job dropped → ∀ later,
    (s.actAll e later).worker = s.worker ∧ (s.actAll e later).entered = s.entered ∧
      ∀ n, (n = job.call ∨ n ∈ dropped.map Job.call ∨ n ∉ s.queued.map Job.call ∨
          s.errands.length ≤ n) →
        ∀ result, (s.actAll e later).answer? n = some result →
          result = .error .evaluatorUnavailable

/-- An answer stays, whatever is done later. -/
theorem answer?_actAll {result : Except Error Document} (hn : s.answer? n = some result)
    (later : List Act) : (s.actAll e later).answer? n = some result := by
  induction later generalizing s with
  | nil => exact hn
  | cons a later ih => exact ih ((step_act e s a).answer? hn)

/-- A call whose future was dropped is never answered. -/
theorem answer?_actAll_of_abandoned {c : Errand} (hc : s.errands[n]? = some c)
    (habandoned : c.status = .abandoned) (later : List Act) :
    (s.actAll e later).answer? n = none := by
  induction later generalizing s c with
  | nil =>
    obtain ⟨request, fired, status⟩ := c
    obtain rfl : status = .abandoned := habandoned
    simp [actAll, answer?, hc]
  | cons a later ih =>
    obtain ⟨c', hc', hevolves⟩ := (step_act e s a).evolves hc
    exact ih hc' (hevolves.abandoned habandoned)

/-- Who sends does not make the worker come to a job. -/
theorem reached_send (s : Service σ ρ) (n : Nat) :
    (s.send n).reached = s.reached ∧ (s.send n).entered = s.entered := by
  unfold send
  split
  next =>
    split
    next => exact ⟨rfl, rfl⟩
    next => split <;> exact ⟨rfl, rfl⟩
  next => exact ⟨rfl, rfl⟩

/-- What the worker does with a job when it comes to it, and when it comes to one. Nobody else makes
it come to a job. -/
theorem reaches_act (e : LiveEngine σ ρ) (s : Service σ ρ) (a : Act) :
    ((s.act e a).reached = s.reached ∧ (s.act e a).entered = s.entered ∧
        (a = .work → s.queue = [] ∨ s.worker.job?.isSome = true)) ∨
      ∃ job rest, a = .work ∧ s.queue = job :: rest ∧
        (s.act e a).reached = s.reached ++ [(job, s.fired job.call)] ∧
        (s.act e a).entered = s.entered ++ if s.fired job.call then [] else [job] := by
  cases a with
  | call | receive | cancel | abandon => exact .inl ⟨rfl, rfl, by simp⟩
  | send n => exact .inl ⟨(s.reached_send n).1, (s.reached_send n).2, by simp⟩
  | work =>
    simp only [act, work, true_and, true_implies]
    cases hworker : s.worker with
    | dead => exact .inl ⟨rfl, rfl, .inr rfl⟩
    | running job run seen =>
      -- A worker at a job has no eyes for the queue, whatever the engine comes to.
      dsimp only
      cases e.step run (s.fired job.call) <;> exact .inl ⟨rfl, rfl, .inr rfl⟩
    | idle memory =>
      cases hqueue : s.queue with
      | nil => exact .inl ⟨rfl, rfl, .inl rfl⟩
      | cons job rest =>
        refine .inr ⟨job, rest, rfl, ?_⟩
        cases hfired : s.fired job.call <;> simp [skip, begin, update, hfired]

/-- Whatever the worker does, the jobs that are finished are runs of the engine. -/
theorem Ordered.runs (h : s.Ordered e m₀) : ∃ m, e.Runs m₀ s.finished m := by
  have hcomputed := h.computed
  cases hworker : s.worker <;> rw [hworker] at hcomputed
  case idle m => exact ⟨m, hcomputed⟩
  case running =>
    obtain ⟨m, hruns, -⟩ := hcomputed
    exact ⟨m, hruns⟩
  case dead =>
    obtain ⟨m, -, hruns, -⟩ := hcomputed
    exact ⟨m, hruns⟩

/-- A run saw nothing of a token that has not fired. -/
theorem Matched.seen_of_not_fired (h : s.Matched) {f : Finished} (hf : f ∈ s.finished)
    (hfired : s.fired f.job.call = false) : true ∉ f.seen := by
  intro hseen
  rw [h.watched f hf hseen] at hfired
  cases hfired

theorem Sound.keeps (h : s.Sound e m₀) : s.Keeps e m₀ where
  order := h.ordered.order
  once := h.ordered.once
  own := h.matched.own
  entered := h.ordered.entered
  reaches := reaches_act e s
  single := h.ordered.single
  computed := h.ordered.computed
  watched := h.matched.watched
  answered _ _ hanswer := h.due hanswer
  unique _ _ _ hdue hdue' := hdue.unique h.ordered hdue'
  lasting _ _ hanswer later := answer?_actAll hanswer later
  gone _ _ hc habandoned later := answer?_actAll_of_abandoned hc habandoned later
  determined := by
    intro acts s' hsame
    -- Both are runs of one engine from one memory, as far as it was entered.
    obtain ⟨m, hruns⟩ := h.ordered.runs
    obtain ⟨m', hruns'⟩ := (sound_actAll e m₀ acts).ordered.runs
    exact (hruns.determined hruns' hsame).1
  unaffected := by
    intro he m acts s' f hf f' hf' hrequest hfired hfired'
    have hs' : s'.Sound e m := sound_actAll e m acts
    obtain ⟨n, hruns⟩ := h.ordered.runs
    obtain ⟨n', hruns'⟩ := hs'.ordered.runs
    obtain ⟨k, l, hafter⟩ := hruns.of_mem hf
    obtain ⟨k', l', hafter'⟩ := hruns'.of_mem hf'
    rw [← hrequest] at hafter'
    exact LiveEngine.result_eq_of_forgetful he hafter hafter'
      (h.matched.seen_of_not_fired hf hfired) (hs'.matched.seen_of_not_fired hf' hfired')
  freed := by
    intro he job hrunning hfired
    obtain ⟨-, ⟨f, memory, hwork⟩ | hwork⟩ := work_of_fired he hrunning hfired <;> rw [hwork] <;> rfl
  settles he _ hfair hgo := hfair.settles h he hgo
  crashed := by
    intro job dropped hworker later
    have hdead : s.worker.isDead = true := by rw [hworker]; rfl
    obtain ⟨hsame, -, hentered, -⟩ := actAll_of_dead (e := e) hdead later
    refine ⟨hsame, hentered, fun n hn result => h.unavailable hdead ?_ later⟩
    rcases hn with rfl | hn | hn | hn
    · exact h.ordered.unserved_of_job (by rw [hworker]; rfl)
    · obtain ⟨job', hjob', rfl⟩ := List.mem_map.mp hn
      refine h.ordered.unserved_of_left (List.mem_append_left _ ?_)
      rwa [hworker]
    · exact h.ordered.unserved_of_not_queued hn
    · exact h.unserved_of_new hn

/-- Whatever is called and whoever takes turns, callers can rely on the worker. An engine that is only
a reaction to each request heeds its token and keeps nothing in mind, and with calls made one after
the other the worker answers like the simple one, whose engine is entered for the same requests. -/
theorem protocol (e : LiveEngine σ ρ) (m₀ : σ) (acts : List Act) (engine : Engine)
    (calls : List Call) :
    ((start m₀).actAll e acts).Keeps e m₀ ∧ engine.live.Heeds ∧ engine.live.Forgetful ∧
      ((start ()).playAll engine.live calls).errands.map Errand.outcome =
        (Worker.new.serveAll engine calls).1 ∧
      (((start ()).playAll engine.live calls).entered.map Job.request).reverse =
        (Worker.new.serveAll engine calls).2.entered := by
  have hstart : (start ()).Shows engine Worker.new := ⟨rfl, rfl, rfl⟩
  obtain ⟨houtcomes, hshows⟩ := playAll_shows hstart calls
  exact ⟨(sound_actAll e m₀ acts).keeps, engine.heeds_live, engine.forgetful_live, houtcomes,
    hshows.entered_eq.symm⟩

end Service

end QueryPlayground
