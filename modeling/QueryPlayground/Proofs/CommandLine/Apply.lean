import QueryPlayground.CommandLine.Run
import QueryPlayground.Proofs.CommandLine.Files
import QueryPlayground.Proofs.Configuration
import QueryPlayground.Proofs.History.Availability
import QueryPlayground.Proofs.History.Recording
import QueryPlayground.Proofs.Session.Account

/-!
# What an apply answers and what it leaves

The built-in evaluator answers the inputs of an apply, and nothing else decides its output, the line
about its failure and its status: neither whether it is recorded nor as what, nor what is found where
the history is kept. The history in turn gets the query of an apply that succeeds and is to be
recorded, and changes in no other way. This is `run_apply_ignores_history`.
-/

namespace QueryPlayground

/-! ## §1 Coordinators at rest -/

namespace Coordinator.Machine

/-- Nothing is in progress, and an edit applies nothing by itself. -/
structure Rests (m : Machine) : Prop where
  flights_eq : m.flights = []
  busy_eq : m.busy = false
  armed_eq : m.debouncer.armed = none
  manual : m.settings.autoApply = false

variable {m : Machine}

theorem rests_new {settings : Settings} (h : settings.autoApply = false) (records : Bool) :
    (new settings records).Rests :=
  ⟨rfl, rfl, rfl, h⟩

/-- At rest nothing happens by itself. -/
theorem Rests.moveTo (h : m.Rests) (evaluator : Evaluator) :
    m.moveTo evaluator m.now = (m, []) := by
  have hnext : m.next? = none := by
    simp [next?, nextOf?, sooner, quiet?, h.flights_eq, h.armed_eq]
  exact moveTo_of_quiescent evaluator fun t due hsome => by simp [hnext] at hsome

/-- An edit of a coordinator at rest changes the inputs, and nothing else. -/
theorem Rests.step_edit (h : m.Rests) (evaluator : Evaluator) {what : Step} {f : Inputs → Inputs}
    (hperform : m.perform evaluator what = (m.edit f, [])) (htime : m.timeAfter what = m.now) :
    m.step evaluator what = ({ m with inputs := f m.inputs }, []) ∧
      Rests { m with inputs := f m.inputs } := by
  have hrests : Rests { m with inputs := f m.inputs } :=
    ⟨h.flights_eq, h.busy_eq, h.armed_eq, h.manual⟩
  have hedit : m.edit f = { m with inputs := f m.inputs } := by
    simp [edit, h.manual]
  refine ⟨?_, hrests⟩
  simp only [step, hperform, htime, hedit]
  rw [hrests.moveTo evaluator]
  rfl

end Coordinator.Machine

open QueryPlayground.Coordinator

namespace Coordinator.Machine

variable {m : Machine}

/-- The end of an apply hands over the query if it succeeds, and reports how it ended. -/
theorem conclude_snd (m : Machine) (origin : Origin) (inputs : Inputs)
    (result : Except Error Document) :
    (m.conclude origin inputs result).2 =
      (if m.records then (inputs.record? result).toList else []).map
          (fun x => .recorded x.kind x.content) ++ report origin (.ofAnswer result) := by
  cases result <;> cases hrecords : m.records <;>
    simp [conclude, hrecords, Inputs.record?, Outcome.ofAnswer]

/-- The end of an apply leaves a coordinator at rest if nothing else is in progress. -/
theorem conclude_rests (hflights : m.flights = []) (harmed : m.debouncer.armed = none)
    (hmanual : m.settings.autoApply = false) (origin : Origin) (inputs : Inputs)
    (result : Except Error Document) : (m.conclude origin inputs result).1.Rests := by
  cases result <;> exact ⟨hflights, rfl, harmed, hmanual⟩

/-- An apply of a coordinator at rest ends at once. -/
theorem Rests.step_apply (h : m.Rests) :
    Session.outcome? m.requests (m.step (builtinEvaluator .none) .apply).2 =
        some (.ofAnswer (m.inputs.request m.settings.indent).answer) ∧
      Session.records (m.step (builtinEvaluator .none) .apply).2 =
        if m.records then
          (m.inputs.record? (m.inputs.request m.settings.indent).answer).toList
        else [] := by
  generalize hanswer : (m.inputs.request m.settings.indent).answer = answer
  let begun : Machine :=
    { m with
      requests := m.requests + 1, busy := true
      view := m.view.showLoading (some m.inputs.loadingText) }
  -- The apply begins, is answered at once and ends, all in one operation.
  have hperform : m.perform (builtinEvaluator .none) .apply =
      ((begun.conclude (.request m.requests) m.inputs answer).1,
        [.started (.request m.requests) m.now m.inputs,
          .called (m.inputs.request m.settings.indent) (some m.inputs.loadingText)] ++
        (begun.conclude (.request m.requests) m.inputs answer).2) := by
    simp only [perform, start, h.busy_eq, Bool.false_eq_true, if_false, builtinEvaluator_apply,
      hanswer]
    rfl
  have hrests : (begun.conclude (.request m.requests) m.inputs answer).1.Rests :=
    conclude_rests (m := begun) h.flights_eq h.armed_eq h.manual _ _ _
  have hnow : (begun.conclude (.request m.requests) m.inputs answer).1.now = m.now := by
    cases answer <;> rfl
  -- Nothing is due after the end, so the step is over.
  have hstep : m.step (builtinEvaluator .none) .apply = m.perform (builtinEvaluator .none) .apply := by
    simp only [step, timeAfter, hperform]
    rw [← hnow, hrests.moveTo]
    simp
  rw [hstep, hperform, conclude_snd]
  constructor
  · cases m.records <;> cases m.inputs.record? answer <;> simp [Session.outcome?, report]
  · cases m.records <;> cases m.inputs.record? answer <;> simp [Session.records, report]

end Coordinator.Machine

namespace CommandLine

open QueryPlayground.History (Disk Handle Recorder)

/-! ## §2 One apply -/

/-- The recorder once an apply has ended. -/
def recorderAfter (r : Recorder) (now : Int) (x : Option History.Record) : Recorder :=
  match x with
  | some x => r.record now x
  | none => r

/-- A step that sends nothing leaves the recorder as it was. -/
theorem step_of_sent {s : Session} {m : Machine} {hs : List Happening} (now : Int)
    {what : Machine.Step} (hstep : s.coordinator.step (s.evaluator .none) what = (m, hs))
    (hhs : Session.records hs = []) (htaken : s.sent.length ≤ s.taken) :
    s.step now what = ({ s with coordinator := m }, hs) := by
  have hleft : s.sent.length - s.taken = 0 := Nat.sub_eq_zero_of_le htaken
  simp only [Session.step, Session.send, Session.follow, hstep, hhs, List.append_nil, Session.join,
    hleft, Session.writeMany]

/-- A recorder that has taken nothing takes the one text that was sent, if there is one. -/
theorem recorder_join {s : Session} {x : Option History.Record} (hsent : s.sent = x.toList)
    (htaken : s.taken = 0) (now : Int) :
    (s.join fun _ => now).recorder = recorderAfter s.recorder now x := by
  cases x <;> simp [Session.join, Session.writeMany, Session.write, recorderAfter, hsent, htaken]

/-- A new session with auto-apply off applies the inputs it is given, and records the query if it is
to record and the evaluator has an answer. -/
theorem applyOnce_assemble {settings : Settings} (hmanual : settings.autoApply = false)
    (records : Bool) (handle : Handle) (disk : Disk) (now : Int) (i : Inputs) :
    let answer := (i.request settings.indent).answer
    let s := Session.assemble builtinEvaluator settings records handle disk
    (applyOnce s now i).2 = some (.ofAnswer answer) ∧
      (applyOnce s now i).1.recorder =
        recorderAfter (.new handle disk) now (if records then i.record? answer else none) := by
  intro answer s
  let m : Machine := .new settings records
  let m₁ : Machine := { m with inputs := { m.inputs with input := i.input } }
  let m₂ : Machine := { m with inputs := { m₁.inputs with query := i.query } }
  let m₃ : Machine := { m with inputs := i }
  -- Three edits give the inputs, each of a coordinator at rest.
  have hrests : m.Rests := Machine.rests_new hmanual records
  obtain ⟨hinput, hrests₁⟩ : m.step (builtinEvaluator .none) (.setInput i.input) = (m₁, []) ∧ m₁.Rests :=
    hrests.step_edit (f := fun inputs => { inputs with input := i.input }) _ rfl rfl
  obtain ⟨hquery, hrests₂⟩ : m₁.step (builtinEvaluator .none) (.setQuery i.query) = (m₂, []) ∧ m₂.Rests :=
    hrests₁.step_edit (f := fun inputs => { inputs with query := i.query }) _ rfl rfl
  obtain ⟨houtput, hrests₃⟩ :
      m₂.step (builtinEvaluator .none) (.setOutput i.outputType) = (m₃, []) ∧ m₃.Rests :=
    hrests₂.step_edit (f := fun inputs => { inputs with outputType := i.outputType }) _ rfl rfl
  obtain ⟨houtcome, hrecords⟩ := hrests₃.step_apply
  -- Nothing is sent before the apply, so the recorder has nothing to do before it.
  let s₃ : Session := { s with coordinator := m₃ }
  have happly : applyOnce s now i = s₃.apply now := by
    have hstep₁ : s.step now (.setInput i.input) = ({ s with coordinator := m₁ }, []) :=
      step_of_sent now hinput rfl (Nat.le_refl _)
    have hstep₂ : Session.step { s with coordinator := m₁ } now (.setQuery i.query) =
        ({ s with coordinator := m₂ }, []) := step_of_sent now hquery rfl (Nat.le_refl _)
    have hstep₃ : Session.step { s with coordinator := m₂ } now (.setOutput i.outputType) =
        (s₃, []) := step_of_sent now houtput rfl (Nat.le_refl _)
    simp only [applyOnce, hstep₁, hstep₂, hstep₃]
  have hsend : Session.outcome? m₃.requests (s₃.send .apply).2 = some (.ofAnswer answer) := houtcome
  have hrequest : s₃.request =
      ((s₃.send .apply).1, (s₃.send .apply).2, some (.ofAnswer answer)) := by
    simp only [Session.request]
    rw [show s₃.coordinator.requests = m₃.requests from rfl, hsend]
  have hsent : (s₃.send .apply).1.sent =
      (if records then i.record? answer else none).toList := by
    rw [apply_ite Option.toList]
    exact hrecords
  rw [happly]
  simp only [Session.apply, hrequest, true_and]
  exact recorder_join hsent rfl now

/-! ## §3 Jobs -/

/-- A job goes on where the one before it has succeeded. -/
theorem run_bind {α β : Type} (x : Job α) (f : α → Job β) (w : World) :
    (x >>= f).run.run w =
      match x.run.run w with
      | (.ok a, w) => (f a).run.run w
      | (.error e, w) => (.error e, w) := by
  simp only [ExceptT.run_bind, StateT.run_bind]
  rcases x.run.run w with ⟨_ | _, _⟩ <;> rfl

theorem run_bind_of_ok {α β : Type} {x : Job α} {w w' : World} {a : α}
    (h : x.run.run w = (.ok a, w')) (f : α → Job β) :
    (x >>= f).run.run w = (f a).run.run w' := by
  rw [run_bind, h]

theorem run_bind_of_error {α β : Type} {x : Job α} {w w' : World} {e : Error}
    (h : x.run.run w = (.error e, w')) (f : α → Job β) :
    (x >>= f).run.run w = (.error e, w') := by
  rw [run_bind, h]

theorem run_orFail {α : Type} (r : Except Error α) (w : World) :
    (orFail r).run.run w = (r, w) := by
  cases r <;> rfl

theorem run_get_bind {α : Type} (f : World → Job α) (w : World) :
    (get >>= f).run.run w = (f w).run.run w :=
  rfl

theorem run_readFile (path : String) (w : World) :
    (readFile path).run.run w = ((w.files.read path).mapError (·.toError), w) := by
  rw [readFile, run_get_bind, run_orFail]

/-- What is done at last is done whatever has come of the job. -/
theorem run_tryFinally {α : Type} {x : Job α} {w w' : World} {r : Except Error α}
    (h : x.run.run w = (r, w')) (g : World → World) :
    (tryFinally x (modify g : Job Unit)).run.run w = (r, g w') := by
  have hx : x w = (r, w') := h
  simp only [tryFinally, MonadFinally.tryFinally', ExceptT.run, ExceptT.mk, StateT.run, bind,
    StateT.bind, Functor.map, ExceptT.map, pure, hx]
  cases r <;> rfl

/-- Without the flag nothing is explained. -/
theorem run_explain {s : Setup} (h : s.verbose = false) (line : String) (w : World) :
    (s.explain line).run.run w = (.ok (), w) := by
  simp only [Setup.explain, h, Bool.false_and, Bool.false_eq_true, if_false]
  rfl

/-- What is read as a document, where the standard input and the file of the name hold texts, and what
is left of the standard input. -/
def documentOf (file : String) (kind : Option DocumentKind) (input : String)
    (text : Except FileFault String) : Except Error Document × String :=
  let kind := kind.getD (guessKind file)
  if !isData kind then
    (.error (.invalidArguments ("input type must be json or yaml, got " ++ kind.name)), input)
  else if file == standardInput then (.ok ⟨input, kind⟩, "")
  else ((text.mapError (·.toError)).map (⟨·, kind⟩), input)

/-- A document is read from a file or from the standard input, which is used up then. -/
theorem run_readDocument (file : String) (kind : Option DocumentKind) (w : World) :
    let r := documentOf file kind w.input (w.files.read file)
    (readDocument file kind).run.run w = (r.1, { w with input := r.2 }) := by
  unfold readDocument documentOf
  dsimp only
  split
  next => rfl
  next =>
    split
    next => rfl
    next =>
      rw [run_bind, run_readFile]
      cases w.files.read file <;> rfl

/-! ## §4 The command -/

/-- The inputs of an apply to a document. -/
def ApplyOptions.inputs (o : ApplyOptions) (d : Document) : Inputs :=
  ⟨d, queryDocument o.template o.query, o.input.outputType⟩

/-- What the evaluator says. -/
def applyAnswer (c : Configuration) (o : ApplyOptions) (d : Document) : Except Error Document :=
  ((o.inputs d).request (applySettings c o.indent).indent).answer

/-- How an apply ends and what it writes, once the document was read. -/
def applyEnd (c : Configuration) (o : ApplyOptions) (read : Except Error Document) :
    Except Error Unit × String :=
  match read with
  | .error e => (.error e, "")
  | .ok d =>
    match applyAnswer c o d with
    | .ok output => (.ok (), output.content ++ "\n")
    | .error e => (.error (.evaluation e.message), "")

/-- What an apply records, once the document was read. -/
def applyRecord? (c : Configuration) (o : ApplyOptions) (read : Except Error Document) :
    Option History.Record :=
  if o.noHistory then none
  else
    match read with
    | .error _ => none
    | .ok d => (o.inputs d).record? (applyAnswer c o d)

/-- With valid settings a session is opened in the world as it is. -/
theorem run_openSession {s : Setup} (hverbose : s.verbose = false)
    (hvalid : s.config.validate = .ok ()) (settings : Settings) (w : World) :
    (openSession s settings).run.run w = (.ok (sessionIn w s.config settings true), w) := by
  have hfree : (orFail s.config.validate).run.run w = (.ok (), w) := by
    rw [run_orFail, hvalid]
  rw [openSession, run_bind_of_ok hfree, run_bind_of_ok (run_explain hverbose _ w), run_get_bind]
  rfl

theorem run_closeSession (session : Session) (w : World) :
    (closeSession session).run.run w =
      (.ok (), { w with handle := session.recorder.handle.close, disk := session.recorder.disk }) :=
  rfl

/-- What comes of an outcome. -/
theorem run_outcome {c : Configuration} {o : ApplyOptions} {d : Document} (w : World) :
    (match some (Outcome.ofAnswer (applyAnswer c o d)) with
      | some (.applied d) => say d.content
      | some (.failed message) => throw (.evaluation message)
      | some .dropped => throw (.custom "apply dropped: evaluation already running")
      | none => throw .evaluationCancelled : Job Unit).run.run w =
      ((applyEnd c o (.ok d)).1, { w with output := w.output ++ (applyEnd c o (.ok d)).2 }) := by
  cases hanswer : applyAnswer c o d with
  | ok output =>
    simp only [Outcome.ofAnswer, applyEnd, hanswer]
    rfl
  | error e =>
    simp only [Outcome.ofAnswer, applyEnd, hanswer, String.append_empty]
    rfl

/-- Whether it is recorded or not, an apply ends as the evaluator says. -/
theorem run_runApply {s : Setup} (hverbose : s.verbose = false)
    (hvalid : s.config.validate = .ok ()) (hengine : s.config.evaluator.engine = .builtin)
    (o : ApplyOptions) (w : World) :
    let r := documentOf o.input.file o.input.inputType w.input (w.files.read o.input.file)
    ∃ handle : Handle, (runApply s o).run.run w =
      ((applyEnd s.config o r.1).1,
        { w with
          input := r.2, output := w.output ++ (applyEnd s.config o r.1).2, handle := handle
          disk := (recorderAfter (.new w.handle w.disk) w.now (applyRecord? s.config o r.1)).disk }) := by
  intro r
  -- The document is read first, and an apply without one does nothing else.
  have hread := run_readDocument o.input.file o.input.inputType w
  change (readDocument o.input.file o.input.inputType).run.run w =
    (r.1, { w with input := r.2 }) at hread
  obtain ⟨read, rest⟩ := r
  cases read with
  | error e =>
    refine ⟨w.handle, ?_⟩
    rw [runApply, run_bind_of_error hread]
    simp [applyEnd, applyRecord?, recorderAfter, Recorder.new]
  | ok d =>
    let settings := applySettings s.config o.indent
    have hsession (records : Bool) : sessionIn { w with input := rest } s.config settings records =
        .assemble builtinEvaluator settings records w.handle w.disk := by
      rw [sessionIn, Configuration.Evaluator.start, hengine]
    have happly (records : Bool) :=
      applyOnce_assemble (rfl : settings.autoApply = false) records w.handle w.disk w.now
        (o.inputs d)
    rw [runApply, run_bind_of_ok hread, run_get_bind]
    dsimp only
    -- What is recorded depends on the flag, and the outcome in both cases on the answer alone.
    cases hnone : o.noHistory with
    | true =>
      refine ⟨w.handle, ?_⟩
      have houtcome : (applyOnce (.assemble builtinEvaluator settings false w.handle w.disk) w.now
          ⟨d, queryDocument o.template o.query, o.input.outputType⟩).2 =
          some (.ofAnswer (applyAnswer s.config o d)) := (happly false).1
      simp only [if_true]
      rw [run_bind_of_ok (run_explain hverbose _ _), run_get_bind, pure_bind, hsession false,
        houtcome]
      refine (run_outcome _).trans ?_
      simp only [applyRecord?, hnone, if_true]
      rfl
    | false =>
      obtain ⟨houtcome, hrecorder⟩ := happly true
      rcases happlied : applyOnce (.assemble builtinEvaluator settings true w.handle w.disk) w.now
        (o.inputs d) with ⟨session, outcome⟩
      rw [happlied] at houtcome hrecorder
      -- The session of the program is the one that was applied above.
      rw [ApplyOptions.inputs] at happlied
      refine ⟨session.recorder.handle.close, ?_⟩
      simp only [Bool.false_eq_true, if_false]
      rw [run_bind_of_ok (run_openSession hverbose hvalid _ _), hsession true, happlied]
      dsimp only
      dsimp only at houtcome hrecorder
      rw [run_bind_of_ok (run_closeSession session _), pure_bind, houtcome]
      refine (run_outcome _).trans ?_
      simp only [applyRecord?, hnone, Bool.false_eq_true, if_false, hrecorder]
      rfl

/-! ## §5 Invocations -/

/-- The settings in a file that is there or not and holds a text. -/
def settingsFrom (store : String) (there : Bool) (text : Except FileFault String) :
    Except Error Configuration :=
  if there then
    (text.mapError (·.toError)).bind fun text => Configuration.load store (some text)
  else Configuration.load store none

/-- The settings in the file that is named, or in another one if they are good. -/
def settingsOf (store : String) (named there : Bool) (text : Except FileFault String) :
    Except Error Configuration :=
  match named, settingsFrom store there text with
  | false, .error _ => .ok (.default store)
  | _, loaded => loaded

/-- The settings are loaded from what is found at the path. -/
theorem run_loadFrom (path : String) (w : World) :
    (loadFrom path).run.run w =
      (settingsFrom w.directories.store (w.files.has path) (w.files.read path), w) := by
  rw [loadFrom, run_get_bind, settingsFrom]
  split
  next =>
    rw [run_bind, run_readFile]
    cases w.files.read path with
    | error fault => rfl
    | ok text => exact run_orFail _ w
  next => exact run_orFail _ w

/-- The file of the settings. -/
def settingsPath (configFile : Option String) (w : World) : String :=
  configFile.getD w.directories.config

/-- Only where no file is named bad settings are passed over. -/
theorem run_loadConfig (configFile : Option String) (w : World) :
    (loadConfig configFile).run.run w =
      (settingsOf w.directories.store configFile.isSome
        (w.files.has (settingsPath configFile w)) (w.files.read (settingsPath configFile w)), w) := by
  cases configFile with
  | some path => exact run_loadFrom path w
  | none =>
    rw [loadConfig, run_get_bind, run_loadFrom, settingsPath, Option.getD_none, Option.isSome_none]
    unfold settingsOf
    cases settingsFrom w.directories.store (w.files.has w.directories.config)
      (w.files.read w.directories.config) <;> rfl

/-- Settings that are accepted have no flaw. -/
theorem validate_of_settingsOf {store : String} {named there : Bool}
    {text : Except FileFault String} {c : Configuration}
    (h : settingsOf store named there text = .ok c) : c.validate = .ok () := by
  -- Settings are checked when they are loaded, and the defaults stand the check.
  have hfrom (c : Configuration) (h : settingsFrom store there text = .ok c) :
      c.validate = .ok () := by
    unfold settingsFrom at h
    split at h
    next =>
      cases htext : text.mapError (·.toError) with
      | error e => simp [htext, Except.bind] at h
      | ok text =>
        have hload : Configuration.load store (some text) = .ok c := by
          rw [htext] at h
          exact h
        exact Configuration.validate_of_load hload
    next => exact Configuration.validate_of_load h
  unfold settingsOf at h
  split at h
  next =>
    cases h
    exact Configuration.validate_default store
  next => exact hfrom c h

/-- Does a task once the settings are known. The history is at hand while the task is done, and kept
afterwards. -/
def session (s : Setup) (task : Task) : Job Unit := do
  modify fun w =>
    { w with
      handle := .new s.config.store.limits, disk := w.files.disk s.config.store.path }
  try
    runTask s task
  finally
    modify fun w => { w with files := w.files.keepDisk s.config.store.path w.disk }

/-- An invocation reads the settings and does its task. -/
theorem runInvocation_eq (i : Invocation) :
    runInvocation i =
      loadConfig i.configFile >>= fun config =>
        session ⟨config, i.configFile, i.verbose, i.quiet⟩ i.task :=
  rfl

/-- The world in which a task begins. -/
def World.opened (w : World) (s : Setup) : World :=
  { w with handle := .new s.config.store.limits, disk := w.files.disk s.config.store.path }

/-- The history is kept whatever comes of the task. -/
theorem session_of_task {s : Setup} {task : Task} {w w' : World} {r : Except Error Unit}
    (h : (runTask s task).run.run (w.opened s) = (r, w')) :
    (session s task).run.run w =
      (r, { w' with files := w'.files.keepDisk s.config.store.path w'.disk }) := by
  have hmodify : (modify fun w : World => { w with
        handle := .new s.config.store.limits, disk := w.files.disk s.config.store.path } :
      Job Unit).run.run w = (.ok (), w.opened s) := rfl
  rw [session, run_bind_of_ok hmodify]
  exact run_tryFinally h _

/-- An invocation comes to what its task comes to. -/
theorem run_runInvocation {i : Invocation} {w w' : World} {c : Configuration}
    {r : Except Error Unit} (hconfig : ((loadConfig i.configFile).run.run w).1 = .ok c)
    (h : (session ⟨c, i.configFile, i.verbose, i.quiet⟩ i.task).run.run w = (r, w')) :
    (runInvocation i).run.run w = (r, w') := by
  have hload : (loadConfig i.configFile).run.run w = (.ok c, w) := by
    rw [← hconfig, run_loadConfig]
  rw [runInvocation_eq, run_bind_of_ok hload]
  exact h

/-! ## §6 What is left -/

/-- A text that is recorded through a new handle goes into the database at the place, which is open
then. -/
theorem record_new {disk : Disk} (hdisk : disk.Openable) (limits : History.Limits) (now : Int)
    (x : History.Record) :
    let after := (Recorder.record (.new (.new limits) disk) now x).disk
    (∃ n, after.found = .database n) ∧
      after.content = (disk.content.run limits true (.insert x.kind x.content now)).2 := by
  obtain ⟨h', d', hrun, hcontent, hopenable, -, hready, -⟩ :=
    Handle.run_of_ready (h := .new limits) ⟨rfl, .inl rfl⟩ hdisk (.insert x.kind x.content now)
  have hafter := congrArg Prod.snd (Recorder.record_handle_disk (.new (.new limits) disk) now x)
  simp only [Recorder.new, hrun] at hafter
  intro after
  have hdisk' : after = d' := hafter
  rw [hdisk']
  refine ⟨?_, hcontent⟩
  -- The handle has tried to open the place, so what it has open is there.
  have hstate : h'.state ≠ .unopened := by
    have hne := Handle.settle_state_ne (.new limits) disk
    have hsettled := congrArg (·.2.1) hrun
    simp only [Handle.run] at hsettled
    split at hsettled <;> exact hsettled ▸ hne
  obtain ⟨-, hunopened | ⟨n, -, hfound⟩⟩ := hready
  · exact (hstate hunopened).elim
  · exact ⟨n, hfound⟩

/-- What becomes of the files when the history at a path gets a text at a time, or nothing. -/
structure Leaves (limits : History.Limits) (path : String) (x : Option (Int × History.Record))
    (before after : Files) : Prop where
  /-- Where there is no database and none can be made, nothing changes. -/
  blocked : before.historyPlace? path = none → after = before
  /-- Otherwise the database is the one of before with the text put in. -/
  content : ∀ l, before.historyPlace? path = some l →
    (after.disk path).content =
      match x with
      | some (now, x) =>
        ((before.disk path).content.run limits true (.insert x.kind x.content now)).2
      | none => (before.disk path).content
  /-- What is at any other place is still there. -/
  elsewhere : ∀ l, before.historyPlace? path = some l →
    ∀ m n, m ≠ l → before.find? m = some n → after.find? m = some n

/-- Keeping the history of an apply does to the files just that. -/
theorem leaves_keepDisk {f : Files} (hf : f.Distinct) (limits : History.Limits) (path : String)
    (now : Int) (x : Option History.Record) :
    Leaves limits path (x.map (now, ·)) f
      (f.keepDisk path
        (recorderAfter (.new (.new limits) (f.disk path)) now x).disk) := by
  refine ⟨fun hplace => ?_, fun l hplace => ?_, fun l hplace m n hne hm => ?_⟩
  -- Where there is no place for a database the apply has found something in its way.
  · refine Files.keepDisk_of_historyPlace?_none hplace fun reason hobstacle => ?_
    cases x with
    | none => exact hobstacle
    | some x =>
      have hsame := (Recorder.recordEach_of_obstacle (r := .new (.new limits) (f.disk path))
        hobstacle nofun [(now, x)]).1
      exact (congrArg Disk.found hsame).trans hobstacle
  -- A text goes into the database that was opened for it; without one the database stays as it was.
  · cases x with
    | none =>
      by_cases hfound : ∃ number, (f.disk path).found = .database number
      · obtain ⟨number, hfound⟩ := hfound
        exact Files.content_keepDisk hplace hf hfound
      · have hsame : f.keepDisk path (f.disk path) = f :=
          Files.keepDisk_of_ne (fun number hnumber => hfound ⟨number, hnumber⟩) f path
        exact congrArg (fun f : Files => (f.disk path).content) hsame
    | some x =>
      obtain ⟨⟨number, hfound⟩, hcontent⟩ := record_new (Files.openable_disk hplace) limits now x
      exact (Files.content_keepDisk hplace hf hfound).trans hcontent
  · exact Files.find?_keepDisk hplace hm hne

/-! ## §7 The program -/

/-- The status at the end of a command. -/
def statusOf : Except Error Unit → Nat
  | .ok () => 0
  | .error _ => 1

/-- What the end of a command writes to the standard error. -/
def complaintOf : Except Error Unit → String
  | .ok () => ""
  | .error e => "Error: " ++ e.message ++ "\n"

/-- The program turns the end of an invocation into a status and a line for the standard error. -/
theorem run_of_runInvocation {args : List String} {i : Invocation} {w w' : World}
    {r : Except Error Unit} (hargs : Invocation.parse args = .ok i)
    (h : (runInvocation i).run.run w = (r, w')) :
    run args w = (statusOf r, { w' with errors := w'.errors ++ complaintOf r }) := by
  rw [run, hargs]
  dsimp only
  rw [h]
  cases r with
  | ok => simp [statusOf, complaintOf]
  | error e => simp [statusOf, complaintOf, String.append_assoc]

/-- How a run of the program ends that applies a query. -/
theorem run_apply {args : List String} {i : Invocation} {o : ApplyOptions} {c : Configuration}
    {w : World} (hargs : Invocation.parse args = .ok i) (htask : i.task = .apply o)
    (hverbose : i.verbose = false) (hconfig : ((loadConfig i.configFile).run.run w).1 = .ok c)
    (hengine : c.evaluator.engine = .builtin) :
    let read := (documentOf o.input.file o.input.inputType w.input (w.files.read o.input.file)).1
    (run args w).1 = statusOf (applyEnd c o read).1 ∧
      (run args w).2.output = w.output ++ (applyEnd c o read).2 ∧
      (run args w).2.errors = w.errors ++ complaintOf (applyEnd c o read).1 ∧
      (run args w).2.files = w.files.keepDisk c.store.path
        (recorderAfter (.new (.new c.store.limits) (w.files.disk c.store.path)) w.now
          (applyRecord? c o read)).disk := by
  intro read
  let s : Setup := ⟨c, i.configFile, i.verbose, i.quiet⟩
  have hvalid : c.validate = .ok () := by
    rw [run_loadConfig] at hconfig
    exact validate_of_settingsOf hconfig
  -- The task is done in a world with the history at hand, and what it leaves is kept.
  have happly : runTask s i.task = runApply s o := by
    rw [htask]
    rfl
  obtain ⟨handle, hrun⟩ := run_runApply (s := s) hverbose hvalid hengine o
    { w with handle := .new c.store.limits, disk := w.files.disk c.store.path }
  rw [← happly] at hrun
  have hsession := session_of_task (s := s) (w := w) hrun
  have hend := run_of_runInvocation hargs (run_runInvocation hconfig hsession)
  rw [hend]
  dsimp only [s, read]
  exact ⟨rfl, rfl, rfl, rfl⟩

/-- Two invocations apply the same query in the same way. They may differ in whether it is a template
and in whether it is kept out of the history. -/
structure SameQuestion (i i' : Invocation) (o o' : ApplyOptions) : Prop where
  task : i.task = .apply o
  task' : i'.task = .apply o'
  terse : i.verbose = false
  terse' : i'.verbose = false
  configFile : i'.configFile = i.configFile
  query : o'.query = o.query
  input : o'.input = o.input
  indent : o'.indent = o.indent

/-- Two worlds in which the settings and the document are the same. They may differ in all other files,
also in those of the history, and in the clock. -/
structure SameSight (configFile : Option String) (file : String) (w w' : World) : Prop where
  home : w'.home = w.home
  input : w'.input = w.input
  output : w'.output = w.output
  errors : w'.errors = w.errors
  settings_there :
    w'.files.has (settingsPath configFile w) = w.files.has (settingsPath configFile w)
  settings : w'.files.read (settingsPath configFile w) = w.files.read (settingsPath configFile w)
  document : w'.files.read file = w.files.read file

/-- Neither a template nor the history plays a part in how an apply ends that succeeds or fails. -/
theorem applyEnd_of_sameQuestion {i i' : Invocation} {o o' : ApplyOptions}
    (h : SameQuestion i i' o o') (c : Configuration) (read : Except Error Document) :
    applyEnd c o' read = applyEnd c o read := by
  cases read with
  | error e => rfl
  | ok d =>
    have hanswer : applyAnswer c o' d = applyAnswer c o d := by
      simp only [applyAnswer, ApplyOptions.inputs, Inputs.request, queryDocument, applySettings,
        h.query, h.input, h.indent]
    simp only [applyEnd, hanswer]

/-- An apply records its query if it succeeds and is not kept out of the history. -/
theorem applyRecord?_eq (c : Configuration) (o : ApplyOptions) (read : Except Error Document) :
    applyRecord? c o read =
      if o.noHistory ∨ statusOf (applyEnd c o read).1 ≠ 0 then none
      else some ⟨if o.template then .templates else .queries, o.query⟩ := by
  cases hnone : o.noHistory with
  | true => simp [applyRecord?, hnone]
  | false =>
    cases read with
    | error e => simp [applyRecord?, hnone, applyEnd, statusOf]
    | ok d =>
      cases hanswer : applyAnswer c o d with
      | error e => simp [applyRecord?, hnone, applyEnd, statusOf, hanswer, Inputs.record?]
      | ok output =>
        cases htemplate : o.template <;>
          simp [applyRecord?, hnone, applyEnd, statusOf, hanswer, Inputs.record?,
            ApplyOptions.inputs, queryDocument, htemplate, DocumentKind.historyKind]

/-- With the built-in evaluator, status and outputs of an apply are the same whether or not it is
recorded, as a query or as a template, and whatever is found where the history is kept. What it leaves
is the history of before, with the query put in if the apply has succeeded and is to be recorded. -/
theorem run_apply_ignores_history {args args' : List String} {i i' : Invocation}
    {o o' : ApplyOptions} {c : Configuration} {w w' : World}
    (hargs : Invocation.parse args = .ok i) (hargs' : Invocation.parse args' = .ok i')
    (hquestion : SameQuestion i i' o o') (hsight : SameSight i.configFile o.input.file w w')
    (hconfig : ((loadConfig i.configFile).run.run w).1 = .ok c)
    (hengine : c.evaluator.engine = .builtin) (hfiles : w.files.Distinct) :
    ((run args' w').1 = (run args w).1 ∧ (run args' w').2.output = (run args w).2.output ∧
        (run args' w').2.errors = (run args w).2.errors) ∧
      Leaves c.store.limits c.store.path
        (if o.noHistory ∨ (run args w).1 ≠ 0 then none
          else some (w.now, ⟨if o.template then .templates else .queries, o.query⟩))
        w.files (run args w).2.files := by
  have hconfig' : ((loadConfig i'.configFile).run.run w').1 = .ok c := by
    -- The settings are the same in both worlds, as their file is.
    have hpath : settingsPath i.configFile w' = settingsPath i.configFile w := by
      simp only [settingsPath, World.directories, hsight.home]
    rw [run_loadConfig] at hconfig
    rw [run_loadConfig, hquestion.configFile, hpath, hsight.settings_there, hsight.settings,
      World.directories, hsight.home]
    exact hconfig
  obtain ⟨hstatus, houtput, herrors, hleft⟩ :=
    run_apply hargs hquestion.task hquestion.terse hconfig hengine
  obtain ⟨hstatus', houtput', herrors', -⟩ :=
    run_apply hargs' hquestion.task' hquestion.terse' hconfig' hengine
  -- The second run is told in terms of the question and the sight of the first one.
  rw [hquestion.input, hsight.input, hsight.document, applyEnd_of_sameQuestion hquestion]
    at hstatus' houtput' herrors'
  refine ⟨⟨hstatus'.trans hstatus.symm, ?_, ?_⟩, ?_⟩
  · rw [houtput', houtput, hsight.output]
  · rw [herrors', herrors, hsight.errors]
  -- What the first run leaves is what recording leaves, told by its status.
  · have hleaves := leaves_keepDisk hfiles c.store.limits c.store.path w.now
      (applyRecord? c o
        (documentOf o.input.file o.input.inputType w.input (w.files.read o.input.file)).1)
    rw [← hleft, applyRecord?_eq, ← hstatus, apply_ite (Option.map _)] at hleaves
    exact hleaves

/-- A world with some files and nothing else, which are used from the root. -/
def World.holding (nodes : List (Location × Node)) : World where
  files := ⟨nodes, []⟩
  home := "/"
  input := ""
  output := ""
  errors := ""
  now := 1000
  network := fun _ => none
  sent := []
  launch := fun _ _ _ _ => .error .notFound
  handle := .new .default
  disk := .vacant

/-- A file that holds no database where the history is due does not show in what a template answers. -/
theorem run_apply_ignores_garbage :
    let document := (["in.json"], Node.text "\x7b\"a\":1\x7d")
    let w := World.holding [document]
    let w' := World.holding [document, ([".local", "share", "qplay", "qplay.db"], .text "rows")]
    let c := Configuration.default w.directories.store
    ((run ["apply", "--template", "a", "-i", "in.json"] w').1 =
          (run ["apply", "a", "-i", "in.json"] w).1 ∧
        (run ["apply", "--template", "a", "-i", "in.json"] w').2.output =
          (run ["apply", "a", "-i", "in.json"] w).2.output ∧
        (run ["apply", "--template", "a", "-i", "in.json"] w').2.errors =
          (run ["apply", "a", "-i", "in.json"] w).2.errors) ∧
      Leaves c.store.limits c.store.path (some (w.now, ⟨.queries, "a"⟩)) w.files
        (run ["apply", "a", "-i", "in.json"] w).2.files := by
  intro document w w' c
  let o : ApplyOptions := ⟨"a", ⟨"in.json", none, .json⟩, false, none, false⟩
  have hargs : Invocation.parse ["apply", "a", "-i", "in.json"] =
      .ok ⟨none, false, false, .apply o⟩ := by decide +kernel
  have hargs' : Invocation.parse ["apply", "--template", "a", "-i", "in.json"] =
      .ok ⟨none, false, false, .apply { o with template := true }⟩ := by decide +kernel
  -- The two worlds differ in the place of the history, which neither the configuration nor the
  -- document is read from.
  have hsight : SameSight none "in.json" w w' :=
    ⟨rfl, rfl, rfl, rfl, by decide +kernel, by decide +kernel, by decide +kernel⟩
  have hconfig : ((loadConfig none).run.run w).1 = .ok c := by decide +kernel
  have hstatus : (run ["apply", "a", "-i", "in.json"] w).1 = 0 := by decide +kernel
  have h := run_apply_ignores_history hargs hargs' ⟨rfl, rfl, rfl, rfl, rfl, rfl, rfl, rfl⟩ hsight
    hconfig rfl (List.nodup_singleton _)
  simpa [hstatus, o] using h

end CommandLine

end QueryPlayground
