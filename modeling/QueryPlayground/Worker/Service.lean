import QueryPlayground.Worker

/-!
# The worker and its callers

Callers and worker act at the same time and know of each other only by messages. A call is a future of
its caller with a token of its own. It waits for room in the queue of the worker, puts its job there,
and waits for the reply that comes with the job. The worker takes the jobs out of the queue one after
the other; it looks at the token of a job, and skips the job or enters the engine for it. The engine
may look at the token as often as it likes. Whoever holds the token can fire it at any time, and a
future that is dropped fires it. An engine that crashes takes the worker with it, and with the worker
all jobs that wait, so that their replies never come.

Calls may come through any copies of a client, which share one queue. That the worker ends once there
is no client left plays no part, as nobody is left then whom it could answer.
-/

namespace QueryPlayground

/-! ## §1 Engines that are watched while they run -/

/-- What an engine comes to when it goes on for a while. -/
inductive Move (σ ρ : Type) where
  | goesOn (run : ρ)
  -- What it keeps in mind is there when it is entered next.
  | returns (result : Except Error Document) (memory : σ)
  | crashes

def Move.result? {σ ρ : Type} : Move σ ρ → Option (Except Error Document)
  | .returns result _ => some result
  | .goesOn _ | .crashes => none

/-- An engine with a memory. It begins a run with a request, and goes on with it after each look at
whether the token of the run has fired. -/
structure LiveEngine (σ ρ : Type) where
  enter : σ → EvalRequest → ρ
  step : ρ → Bool → Move σ ρ

/-- A job of the worker, with the number of its call. -/
structure Job where
  call : Nat
  request : EvalRequest

/-- A job for which the engine has returned, with what it has seen of the token at one look after the
other. -/
structure Finished where
  job : Job
  seen : List Bool
  result : Except Error Document

/-- An engine that keeps nothing in mind, watched while it runs. -/
def Engine.live (engine : Engine) : LiveEngine Unit EvalRequest where
  enter _ request := request
  step request fired :=
    match engine request with
    | .returns result => .returns result ()
    | .crashes => .crashes
    | .stalls =>
      if fired then .returns (.error .evaluationCancelled) () else .goesOn request

/-! ## §2 Calls -/

/-- How far a call has come. -/
inductive Status where
  /-- It waits for room in the queue. -/
  | sending
  /-- Its job is with the worker. -/
  | waiting
  /-- A reply is under way to the caller, or the job has gone without one. -/
  | replied (message : Option (Except Error Document))
  | answered (result : Except Error Document)
  /-- The caller has dropped the future. -/
  | abandoned

/-- A call under way, with whether its token has fired. -/
structure Errand where
  request : EvalRequest
  fired : Bool
  status : Status

namespace Errand

def accept (c : Errand) : Errand :=
  match c.status with
  | .sending => { c with status := .waiting }
  | _ => c

def refuse (c : Errand) : Errand :=
  match c.status with
  -- Whatever ends the call early drops its guard, and that fires the token.
  | .sending => { c with fired := true, status := .answered (.error .evaluatorUnavailable) }
  | _ => c

/-- The job is done, or has gone without a result. -/
def reply (message : Option (Except Error Document)) (c : Errand) : Errand :=
  match c.status with
  | .waiting => { c with status := .replied message }
  | _ => c

def receive (c : Errand) : Errand :=
  match c.status with
  | .replied (some result) => { c with status := .answered result }
  | .replied none => { c with fired := true, status := .answered (.error .evaluatorUnavailable) }
  | _ => c

def cancel (c : Errand) : Errand :=
  { c with fired := true }

/-- The future is dropped, which fires the token as well. -/
def abandon (c : Errand) : Errand :=
  match c.status with
  | .answered _ => c
  | _ => { c with fired := true, status := .abandoned }

end Errand

/-! ## §3 The worker with its calls -/

inductive Occupation (σ ρ : Type) where
  | idle (memory : σ)
  | running (job : Job) (run : ρ) (seen : List Bool)
  -- The engine has crashed at a job, while others were waiting.
  | dead (job : Job) (dropped : List Job)

namespace Occupation

variable {σ ρ : Type}

/-- The job for which the engine was entered, and has not returned. -/
def job? : Occupation σ ρ → Option Job
  | .idle _ => none
  | .running job _ _ | .dead job _ => some job

def running? : Occupation σ ρ → Option Job
  | .running job _ _ => some job
  | .idle _ | .dead _ _ => none

def dropped : Occupation σ ρ → List Job
  | .dead _ dropped => dropped
  | .idle _ | .running _ _ _ => []

def isDead : Occupation σ ρ → Bool
  | .dead _ _ => true
  | .idle _ | .running _ _ _ => false

end Occupation

/-- A worker with its calls, and what has happened so far. -/
structure Service (σ ρ : Type) where
  errands : List Errand
  queue : List Job
  worker : Occupation σ ρ
  -- The rest is what has happened so far, and decides nothing.
  queued : List Job
  /-- The jobs that the worker has come to, with whether the token had fired then. -/
  reached : List (Job × Bool)
  entered : List Job
  finished : List Finished

namespace Service

variable {σ ρ : Type}

/-- How many jobs the queue has room for. -/
def capacity : Nat := 16

/-- A worker that nobody has called yet. -/
def start (memory : σ) : Service σ ρ :=
  ⟨[], [], .idle memory, [], [], [], []⟩

def fired (s : Service σ ρ) (n : Nat) : Bool :=
  s.errands[n]?.any Errand.fired

/-- Changes the calls of some numbers. -/
def update (s : Service σ ρ) (ns : List Nat) (f : Errand → Errand) : Service σ ρ :=
  { s with errands := s.errands.mapIdx fun n c => if n ∈ ns then f c else c }

def accept (s : Service σ ρ) (job : Job) : Service σ ρ :=
  { s.update [job.call] .accept with queue := s.queue ++ [job], queued := s.queued ++ [job] }

def skip (s : Service σ ρ) (job : Job) (rest : List Job) : Service σ ρ :=
  { s.update [job.call] (.reply (some (.error .evaluationCancelled))) with
    queue := rest, reached := s.reached ++ [(job, s.fired job.call)] }

/-- Enters the engine for the next job. -/
def begin (s : Service σ ρ) (job : Job) (rest : List Job) (run : ρ) : Service σ ρ :=
  { s with
    queue := rest, worker := .running job run []
    reached := s.reached ++ [(job, s.fired job.call)], entered := s.entered ++ [job] }

/-- The engine has returned, and the caller is to have the result. -/
def finish (s : Service σ ρ) (f : Finished) (memory : σ) : Service σ ρ :=
  { s.update [f.job.call] (.reply (some f.result)) with
    worker := .idle memory, finished := s.finished ++ [f] }

/-- The engine has crashed, and all jobs are gone. -/
def crash (s : Service σ ρ) (job : Job) : Service σ ρ :=
  { s.update (job.call :: s.queue.map Job.call) (.reply none) with
    queue := [], worker := .dead job s.queue }

/-- A call tries to put its job into the queue. -/
def send (s : Service σ ρ) (n : Nat) : Service σ ρ :=
  match s.errands[n]? with
  | some ⟨request, _, .sending⟩ =>
    if s.worker.isDead then s.update [n] .refuse
    else if s.queue.length < capacity then s.accept ⟨n, request⟩
    else s
  | _ => s

/-- What the worker does with its turn. -/
def work (e : LiveEngine σ ρ) (s : Service σ ρ) : Service σ ρ :=
  match s.worker with
  | .dead _ _ => s
  | .idle memory =>
    match s.queue with
    | [] => s
    | job :: rest =>
      if s.fired job.call then s.skip job rest
      else s.begin job rest (e.enter memory job.request)
  | .running job run seen =>
    let fired := s.fired job.call
    match e.step run fired with
    | .goesOn run => { s with worker := .running job run (seen ++ [fired]) }
    | .returns result memory => s.finish ⟨job, seen ++ [fired], result⟩ memory
    | .crashes => s.crash job

/-- What can happen next. -/
inductive Act where
  -- The token of a new call may have fired already.
  | call (request : EvalRequest) (fired : Bool)
  -- The call of a number has its turn to send its job, or to get its reply.
  | send (n : Nat)
  | receive (n : Nat)
  -- Its token is fired from outside, or its future is dropped.
  | cancel (n : Nat)
  | abandon (n : Nat)
  | work

def act (e : LiveEngine σ ρ) (s : Service σ ρ) : Act → Service σ ρ
  | .call request fired => { s with errands := s.errands ++ [⟨request, fired, .sending⟩] }
  | .send n => s.send n
  | .receive n => s.update [n] .receive
  | .cancel n => s.update [n] .cancel
  | .abandon n => s.update [n] .abandon
  | .work => s.work e

def actAll (e : LiveEngine σ ρ) (s : Service σ ρ) (acts : List Act) : Service σ ρ :=
  acts.foldl (act e) s

def answer? (s : Service σ ρ) (n : Nat) : Option (Except Error Document) :=
  match s.errands[n]? with
  | some ⟨_, _, .answered result⟩ => some result
  | _ => none

end Service

end QueryPlayground
