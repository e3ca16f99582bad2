import QueryPlayground.Proofs.CommandLine.Vigil
import QueryPlayground.Proofs.Session.Run

/-!
# A plain watch

`Watch.run` lets the tasks of a watch act one after the other: an apply that is asked for goes through
at once, the recorder takes its text, and the printer looks at the view after every step. This is one
of the ways in which the tasks can act, so a plain watch ends as every watch does.

Main statements: `Watch.run_is_vigil` and `Watch.run_ends`.
-/

namespace QueryPlayground

open QueryPlayground.Coordinator

/-! ## §1 A recorder that keeps up -/

namespace History.Relay

variable {s : Relay}

/-- Nothing waits, and a sink is left. -/
structure Idles (s : Relay) : Prop where
  stage_eq : s.stage = .idle
  waiting_eq : s.waiting = []
  sinks_eq : s.sinks = 1

theorem Idles.work (h : s.Idles) (now : Int) : s.act (.work now) = s := by
  simp [act, Relay.work, h.stage_eq, h.waiting_eq, h.sinks_eq]

/-- A text that is handed over is written after two turns of the task. -/
theorem Idles.take (h : s.Idles) (x : Record) (now : Int) :
    let s' := s.actAll [.record x, .work now, .work now]
    s'.Idles ∧ s'.written = s.written ++ [(now, x)] := by
  have hwaits : (s.act (.record x)).act (.work now) =
      { s with stage := .writing x, calls := s.calls ++ [(x, .ok ())] } := by
    simp [act, Relay.record, Relay.work, h.stage_eq, h.waiting_eq, h.sinks_eq]
  simp only [actAll, List.foldl_cons, List.foldl_nil, hwaits]
  simp only [act, Relay.work, write]
  cases Event.of? x (s.handle.run s.disk (.insert x.kind x.content now)).1 <;>
    exact ⟨⟨rfl, h.waiting_eq, h.sinks_eq⟩, rfl⟩

end History.Relay

namespace CommandLine

open QueryPlayground.History (Record Relay)

/-! ## §2 Watches at rest -/

namespace Vigil

/-- Nothing is going on, and everything has come as an account says. -/
structure Rests (now : Int) (v : Vigil) (a : Account) : Prop where
  inputs_eq : v.inputs = a.inputs
  armed_eq : v.armed = a.due.isSome
  asked_eq : v.asked = []
  flight_eq : v.flight = none
  parting_eq : v.parting = []
  view_eq : v.view = ⟨a.output, a.error, none⟩
  idles : v.relay.Idles
  written_eq : v.relay.written = Record.stamp (fun _ => now) a.texts

/-- One watch has come from another one without the main task and the printer. -/
structure Aside (v v' : Vigil) : Prop where
  stage_eq : v'.stage = v.stage
  printer_eq : v'.printer = v.printer
  printed_eq : v'.printed = v.printed

variable {indent : Nat} {now : Int} {v : Vigil} {a : Account}

/-- An apply from its beginning to its end, and the recorder after it. -/
def applyActs (o : Origin) (now : Int) : List Act :=
  [.call o, .proceed, .proceed, .proceed, .proceed, .proceed, .part o, .work now, .work now]

/-- An apply of the vigil whose tasks go on without a break does what the apply of a plain watch does.
-/
theorem Rests.apply (h : v.Rests now a) (o : Origin) :
    let v' := { v with asked := [o] }.actAll a.settings.indent (applyActs o now)
    v'.Rests now a.apply ∧ v.Aside v' := by
  obtain ⟨hsettings, hnow, hdue, hinputs⟩ := a.apply_frame
  -- The answer decides which tasks are left to run: only an output has something recorded.
  cases hanswer : (a.inputs.request a.settings.indent).answer with
  | error e =>
    have houtcome : a.outcome = .failed e.message := by rw [Account.outcome, hanswer]
    have happly : a.apply = { a with error := some e.message } := by rw [Account.apply, houtcome]
    have hv : { v with asked := [o] }.actAll a.settings.indent (applyActs o now) =
        { v with
          asked := [], view := ⟨a.output, some e.message, none⟩, fresh := true
          log := v.log ++ [⟨v.edits, v.inputs⟩] } := by
      simp [applyActs, actAll, act, call, proceed, conclude, part, h.flight_eq, h.parting_eq,
        h.inputs_eq, h.view_eq, hanswer, h.idles.work, View.showLoading, View.showError]
    rw [hv, happly]
    exact ⟨{ h with asked_eq := rfl, view_eq := rfl }, rfl, rfl, rfl⟩
  | ok d =>
    have houtcome : a.outcome = .applied d := by rw [Account.outcome, hanswer]
    let x : Record := ⟨a.inputs.query.kind.historyKind, a.inputs.query.content⟩
    have happly : a.apply =
        { a with output := some d, error := none, texts := a.texts ++ [x] } := by
      rw [Account.apply, houtcome]
    have hv : { v with asked := [o] }.actAll a.settings.indent (applyActs o now) =
        { v with
          asked := [], view := ⟨some d, none, none⟩, fresh := true
          relay := v.relay.actAll [.record x, .work now, .work now]
          log := v.log ++ [⟨v.edits, v.inputs⟩] } := by
      simp [applyActs, actAll, act, call, proceed, conclude, part, h.flight_eq, h.parting_eq,
        h.inputs_eq, hanswer, x, Relay.actAll, View.showLoading, View.showOutput]
    obtain ⟨hidles, hwritten⟩ := h.idles.take x now
    rw [hv, happly]
    refine ⟨{ h with asked_eq := rfl, view_eq := rfl, idles := hidles, written_eq := ?_ },
      rfl, rfl, rfl⟩
    rw [hwritten, h.written_eq, Record.stamp_concat]

/-- What is due happens. -/
theorem Rests.settle (h : v.Rests now a) (hindent : a.settings.indent = indent) :
    ∃ acts, (v.actAll indent acts).Rests now a.settle ∧ v.Aside (v.actAll indent acts) := by
  unfold Account.settle
  split
  next t hdue =>
    split
    next hle =>
      -- The timer is let go of, fires and has its apply.
      let v₁ : Vigil := { v with armed := false }
      have hrests : v₁.Rests now { a with due := none } := { h with armed_eq := rfl }
      have hfire : v.act indent .fire = { v₁ with asked := [.auto] } := by
        have harmed : v.armed = true := by rw [h.armed_eq, hdue, Option.isSome_some]
        simp [act, harmed, h.asked_eq, v₁]
      obtain ⟨happlied, haside⟩ := hrests.apply .auto
      rw [a.apply_withoutDue, hindent, ← hfire] at happlied
      rw [hindent, ← hfire] at haside
      exact ⟨.fire :: applyActs .auto now, happlied, haside.1, haside.2, haside.3⟩
    next => exact ⟨[], h, rfl, rfl, rfl⟩
  next => exact ⟨[], h, rfl, rfl, rfl⟩

theorem Shows.actAll (h : v.Shows) (indent : Nat) (acts : List Act) :
    (v.actAll indent acts).Shows := by
  induction acts generalizing v with
  | nil => exact h
  | cons a acts ih => exact ih (h.step (step_act indent v a))

theorem actAll_append (indent : Nat) (v : Vigil) (acts more : List Act) :
    v.actAll indent (acts ++ more) = (v.actAll indent acts).actAll indent more :=
  List.foldl_append

/-- The printer leaves the main task where it is. -/
theorem stage_actAll_see (indent : Nat) (v : Vigil) (acts : List Act) :
    (v.actAll indent (acts ++ [.see])).stage = (v.actAll indent acts).stage := by
  rw [actAll_append]
  simp only [actAll, List.foldl_cons, List.foldl_nil, act, see]
  split <;> rfl

end Vigil

/-! ## §3 A watch beside its session -/

/-- Who has seen a view finds no news in it. -/
theorem Printer.see_after (v : View) : (Printer.after v).see v = (.after v, none) := by
  obtain ⟨output, error, loading⟩ := v
  cases error <;> simp [see, news, after]

/-- A watch at work has come as far as a plain one, whose session keeps to an account. -/
structure Watch.Mirrors (settings : Settings) (first : History.Recorder) (now : Int) (w : Watch)
    (a : Account) (v : Vigil) : Prop where
  rests : v.Rests now a
  sound : w.session.Sound (fun _ => now) first a
  recorder_eq : w.session.recorder = first.recordEach (Record.stamp (fun _ => now) a.texts)
  settings_eq : a.settings = settings
  shows : v.Shows
  seen : v.fresh = false
  printer_eq : v.printer = w.printer
  printed_eq : v.printed = w.printed

namespace Watch

variable {settings : Settings} {first : History.Recorder} {now : Int} {w : Watch} {a a' : Account}
  {v v' : Vigil}

/-- The printer looks at the view of the plain watch, and of the other one if it has changed. -/
theorem Mirrors.present (h : w.Mirrors settings first now a v) (hrests : v'.Rests now a')
    (haside : v'.printer = v.printer ∧ v'.printed = v.printed) (hshows : v'.Shows)
    {session : Session} (hsound : session.Sound (fun _ => now) first a')
    (hrecorder : session.recorder = first.recordEach (Record.stamp (fun _ => now) a'.texts))
    (hsettings : a'.settings = settings) :
    (w.present session).Mirrors settings first now a' v'.see := by
  have hview : session.coordinator.view = v'.view := hsound.follows.view_eq.trans hrests.view_eq.symm
  have hprinter : w.printer = v'.printer := (haside.1.trans h.printer_eq).symm
  have hprinted : w.printed = v'.printed := (haside.2.trans h.printed_eq).symm
  -- The printer of the plain watch looks at every view. A view that is not fresh is the one that it
  -- looked at before, so looking at it again writes nothing.
  cases hfresh : v'.fresh with
  | true =>
    have hsee : v'.see =
        { v' with
          fresh := false, printer := .after v'.view
          printed := v'.printed ++ (v'.printer.see v'.view).2.toList } := by
      rw [Vigil.see, if_pos hfresh]
      rfl
    have hshows' := hshows.step (.see hfresh : Vigil.Step 0 v' _)
    rw [← hsee] at hshows'
    refine ⟨?_, hsound, hrecorder, hsettings, hshows', ?_, ?_, ?_⟩
    · rw [hsee]
      exact { hrests with }
    · rw [hsee]
    · rw [hsee, Watch.present, hview]
      rfl
    · rw [hsee, Watch.present, hview, hprinter, hprinted]
  | false =>
    have hsee : v'.see = v' := by simp [Vigil.see, hfresh]
    have hafter : v'.printer = .after v'.view := hshows.seen hfresh
    rw [hsee]
    refine ⟨hrests, hsound, hrecorder, hsettings, hshows, hfresh, ?_, ?_⟩
    · rw [Watch.present, hview, hprinter, hafter, Printer.see_after]
    · rw [Watch.present, hview, hprinter, hprinted, hafter, Printer.see_after]
      simp

/-- A step of the plain watch, where the tasks have begun the same. -/
theorem Mirrors.step (h : w.Mirrors settings first now a v) {what : Machine.Step}
    {begun : List Vigil.Act} (hrests : (v.actAll settings.indent begun).Rests now (a.begin what))
    (haside : (v.actAll settings.indent begun).printer = v.printer ∧
      (v.actAll settings.indent begun).printed = v.printed) :
    ∃ acts, (w.step now what).Mirrors settings first now (a.take what)
        (v.actAll settings.indent acts) ∧
      (v.actAll settings.indent acts).stage = (v.actAll settings.indent begun).stage := by
  have hindent : (a.begin what).settings.indent = settings.indent := by
    rw [a.begin_settings, h.settings_eq]
  -- The tasks that have begun are followed by the apply of a quiet time that is over.
  obtain ⟨acts, hsettled, hsame⟩ := hrests.settle hindent
  rw [← Vigil.actAll_append] at hsettled hsame
  have hsent := (Session.send_sound h.sound what).1
  have hpresent := h.present hsettled
    ⟨hsame.printer_eq.trans haside.1, hsame.printed_eq.trans haside.2⟩
    (h.shows.actAll settings.indent (begun ++ acts)) (Session.join_sound hsent)
    (hsent.recorder_join) ((a.take_settings what).trans h.settings_eq)
  refine ⟨begun ++ acts ++ [.see], ?_, ?_⟩
  · rw [Vigil.actAll_append]
    exact hpresent
  · rw [Vigil.stage_actAll_see, hsame.stage_eq]

/-- An edit of both watches. -/
theorem Mirrors.edit (h : w.Mirrors settings first now a v) (hauto : settings.autoApply = true)
    {f : Inputs → Inputs} {rest : List (Inputs → Inputs)} (hstage : v.stage = .editing (f :: rest))
    {what : Machine.Step} (hwhat : a.begin what = a.edit f) :
    ∃ acts, (w.step now what).Mirrors settings first now (a.take what)
        (v.actAll settings.indent acts) ∧
      (v.actAll settings.indent acts).stage = .editing rest := by
  have hbegun : v.actAll settings.indent [.main, .main] =
      { v with
        stage := .editing rest, inputs := f v.inputs, edits := v.edits + 1, armed := true } := by
    simp [Vigil.actAll, Vigil.act, Vigil.turn, hstage]
  have hrests : (v.actAll settings.indent [.main, .main]).Rests now (a.begin what) := by
    rw [hbegun, hwhat]
    refine { h.rests with inputs_eq := congrArg f h.rests.inputs_eq, armed_eq := ?_ }
    simp [Account.edit, h.settings_eq, hauto]
  obtain ⟨acts, hmirrors, hsame⟩ := h.step hrests (by rw [hbegun]; exact ⟨rfl, rfl⟩)
  exact ⟨acts, hmirrors, by rw [hsame, hbegun]⟩

end Watch

/-! ## §4 From the beginning to the end -/

/-- The line that an event brings. -/
def WatchEvent.line? : WatchEvent → Option String
  | .edit query => some query
  | .pause _ => none

namespace Watch

variable {settings : Settings} {first : History.Recorder} {now : Int} {w : Watch} {a : Account}
  {v : Vigil}

/-- What is entered during a watch is taken one by one, by the plain watch and by the tasks. -/
theorem Mirrors.takeAll (h : w.Mirrors settings first now a v) (hauto : settings.autoApply = true)
    (template : Bool) {events : List WatchEvent}
    (hstage : v.stage = .editing ((events.filterMap WatchEvent.line?).map
      fun line i => { i with query := queryDocument template line })) :
    ∃ acts a', (events.foldl (fun w e => w.take now template e) w).Mirrors settings first now a'
        (v.actAll settings.indent acts) ∧
      (v.actAll settings.indent acts).stage = .editing [] := by
  induction events generalizing w a v with
  | nil => exact ⟨[], a, h, hstage⟩
  | cons e events ih =>
    obtain ⟨acts, a', hmirrors, hrest⟩ : ∃ acts a',
        (w.take now template e).Mirrors settings first now a' (v.actAll settings.indent acts) ∧
          (v.actAll settings.indent acts).stage =
            .editing ((events.filterMap WatchEvent.line?).map
              fun line i => { i with query := queryDocument template line }) := by
      -- A line is an edit of the script, and a pause is time in which only quiet times end.
      cases e with
      | edit query =>
        obtain ⟨acts, hedit⟩ :=
          h.edit hauto hstage (rfl : a.begin (.setQuery (queryDocument template query)) = _)
        exact ⟨acts, _, hedit⟩
      | pause duration =>
        have hrests : (v.actAll settings.indent []).Rests now (a.begin (.advance duration)) :=
          { h.rests with }
        obtain ⟨acts, hmirrors, hsame⟩ := h.step hrests ⟨rfl, rfl⟩
        exact ⟨acts, _, hmirrors, hsame.trans hstage⟩
    obtain ⟨more, a'', hmirrors', hend⟩ := ih hmirrors hrest
    refine ⟨acts ++ more, a'', ?_, ?_⟩
    · rw [Vigil.actAll_append]
      exact hmirrors'
    · rw [Vigil.actAll_append]
      exact hend

/-- The plain watch gives up what waits, and finds no apply in. -/
theorem Mirrors.cancel (h : w.Mirrors settings first now a v) (hstage : v.stage = .editing []) :
    ∃ acts a', let w := w.step now .cancelPending
      let w := w.present ((Session.awaitIdle Session.patience w.session).1.join fun _ => now)
      w.Mirrors settings first now a' (v.actAll settings.indent acts) ∧ a'.due = none ∧
        (v.actAll settings.indent acts).stage = .awaiting := by
  have hbegun : v.actAll settings.indent [.main] = { v with stage := .awaiting, armed := false } := by
    simp [Vigil.actAll, Vigil.act, Vigil.turn, hstage]
  have hrests : (v.actAll settings.indent [.main]).Rests now (a.begin .cancelPending) := by
    rw [hbegun]
    exact { h.rests with armed_eq := rfl }
  obtain ⟨acts, hcancelled, hsame⟩ := h.step hrests (by rw [hbegun]; exact ⟨rfl, rfl⟩)
  rw [hbegun] at hsame
  -- Nothing is in progress, so there is nothing to wait for.
  have hidle : (Session.awaitIdle Session.patience (w.step now .cancelPending).session).1 =
      (w.step now .cancelPending).session := by
    have hphase : (w.step now .cancelPending).session.coordinator.phase = .idle := by
      rw [Machine.phase, hcancelled.sound.follows.busy_eq]
      rfl
    rw [Session.patience, Session.awaitIdle, if_pos hphase]
  have hpresent := hcancelled.present hcancelled.rests ⟨rfl, rfl⟩ hcancelled.shows
    (Session.join_sound hcancelled.sound) (hcancelled.sound.recorder_join)
    hcancelled.settings_eq
  refine ⟨acts ++ [.see], a.take .cancelPending, ?_, rfl, ?_⟩
  · rw [hidle, Vigil.actAll_append]
    exact hpresent
  · rw [Vigil.stage_actAll_see, hsame]

/-- The plain watch applies the last edit. -/
theorem Mirrors.apply (h : w.Mirrors settings first now a v) (hdue : a.due = none)
    (hstage : v.stage = .awaiting) :
    ∃ acts, (w.present (w.session.apply now).1).Mirrors settings first now a.apply
        (v.actAll settings.indent acts) ∧
      (v.actAll settings.indent acts).stage = .applying := by
  have hrests : Vigil.Rests now { v with stage := .applying } a := { h.rests with }
  obtain ⟨happlied, haside⟩ := hrests.apply Vigil.own
  have hask : v.act settings.indent .main = { v with stage := .applying, asked := [Vigil.own] } := by
    simp [Vigil.act, Vigil.turn, hstage, h.rests.flight_eq, h.rests.asked_eq]
  rw [h.settings_eq, ← hask] at happlied
  rw [h.settings_eq, ← hask] at haside
  -- No edit waits, so nothing happens by itself after the apply.
  have htake : a.take .apply = a.apply := by
    have hnone : a.apply.due = none := a.apply_frame.2.2.1.trans hdue
    rw [Account.take, Account.begin, Account.settle, hnone]
  have hsent := (Session.send_sound h.sound .apply).1
  rw [htake] at hsent
  have hjoin : (w.session.apply now).1 = (w.session.send .apply).1.join fun _ => now := by
    rw [Session.apply, Session.request_eq h.sound]
  rw [hjoin]
  have hpresent := h.present happlied ⟨haside.printer_eq, haside.printed_eq⟩
    (h.shows.actAll settings.indent (.main :: Vigil.applyActs Vigil.own now))
    (Session.join_sound hsent) (hsent.recorder_join) (a.apply_frame.1.trans h.settings_eq)
  refine ⟨.main :: Vigil.applyActs Vigil.own now ++ [.see], ?_, ?_⟩
  · rw [Vigil.actAll_append]
    exact hpresent
  · rw [Vigil.stage_actAll_see]
    exact haside.stage_eq

/-- The main task lets the coordinator go and waits for the others, which are at rest. -/
theorem Mirrors.close (h : w.Mirrors settings first now a v) (hstage : v.stage = .applying) :
    v.actAll settings.indent [.main, .drop, .work now, .main] =
      { v with stage := .returned, relay := { v.relay with sinks := 0, stage := .stopped } } := by
  obtain ⟨hidle, hwaiting, hsinks⟩ := h.rests.idles
  have hclosed : v.act settings.indent .main = { v with stage := .closed } := by
    simp [Vigil.act, Vigil.turn, hstage, Vigil.occupies, h.rests.asked_eq, h.rests.flight_eq,
      h.rests.parting_eq]
  simp only [Vigil.actAll, List.foldl_cons, List.foldl_nil, hclosed]
  simp [Vigil.act, Vigil.turn, Vigil.isReleased, Vigil.Stage.isClosed, h.rests.asked_eq,
    h.rests.flight_eq, h.rests.parting_eq, Relay.act, Relay.work, hidle, hwaiting, hsinks, h.seen]

/-- The tasks can act so that they keep up with a plain watch up to its own apply. -/
theorem run_mirrors (hauto : settings.autoApply = true) (limits : History.Limits)
    (disk : History.Disk) (now : Int) (x : Script) {events : List WatchEvent}
    (hlines : events.filterMap WatchEvent.line? = x.lines) :
    let first := History.Recorder.new (.new limits) disk
    let session := Session.assemble builtinEvaluator settings true (.new limits) disk
    let w := Watch.run session now x.input x.output x.template events
    ∃ acts a, w.Mirrors settings first now a
        ((Vigil.start x.edits (.new limits) disk).actAll settings.indent acts) ∧
      ((Vigil.start x.edits (.new limits) disk).actAll settings.indent acts).stage = .applying := by
  intro first session w
  have hstart : (Watch.mk session .new []).Mirrors settings first now (.new settings)
      (Vigil.start x.edits (.new limits) disk) :=
    ⟨⟨rfl, rfl, rfl, rfl, rfl, rfl, ⟨rfl, rfl, rfl⟩, rfl⟩,
      ⟨⟨Nat.le_refl _, rfl⟩, rfl, rfl, Machine.follows_new settings⟩, rfl, rfl,
      Vigil.shows_start x.edits _ disk, rfl, rfl, rfl⟩
  -- First the kind of the output and the document, then the lines, and then the end.
  obtain ⟨acts₁, h₁, hstage₁⟩ := hstart.edit hauto rfl
    (rfl : (Account.new settings).begin (.setOutput x.output) = _)
  obtain ⟨acts₂, h₂, hstage₂⟩ := h₁.edit hauto hstage₁
    (rfl : ((Account.new settings).take (.setOutput x.output)).begin (.setInput x.input) = _)
  obtain ⟨acts₃, a₃, h₃, hstage₃⟩ := h₂.takeAll hauto x.template (hlines ▸ hstage₂)
  obtain ⟨acts₄, a₄, h₄, hdue, hstage₄⟩ := h₃.cancel hstage₃
  obtain ⟨acts₅, h₅, hstage₅⟩ := h₄.apply hdue hstage₄
  refine ⟨acts₁ ++ acts₂ ++ acts₃ ++ acts₄ ++ acts₅, a₄.apply, ?_⟩
  simp only [Vigil.actAll_append]
  exact ⟨h₅, hstage₅⟩

/-- A plain watch is one of the ways in which a watch can go. -/
theorem run_is_vigil (hauto : settings.autoApply = true) (limits : History.Limits)
    (disk : History.Disk) (now : Int) (x : Script) {events : List WatchEvent}
    (hlines : events.filterMap WatchEvent.line? = x.lines) :
    let session := Session.assemble builtinEvaluator settings true (.new limits) disk
    let w := Watch.run session now x.input x.output x.template events
    ∃ acts, let s := (Vigil.start x.edits (.new limits) disk).actAll settings.indent acts
      s.stage = .returned ∧ s.printed = w.printed ∧
        s.relay.published = w.session.recorder.events ∧ s.relay.disk = w.session.recorder.disk := by
  intro session w
  obtain ⟨acts, a, hmirrors, hstage⟩ := run_mirrors hauto limits disk now x hlines
  -- Both watches have handed the same texts to the same store.
  have hfollows :=
    (Vigil.sound_actAll settings.indent x.edits (.new limits) disk acts).records.follows.recorder_eq
  rw [hmirrors.rests.written_eq, ← hmirrors.recorder_eq] at hfollows
  refine ⟨acts ++ [.main, .drop, .work now, .main], ?_⟩
  rw [Vigil.actAll_append, hmirrors.close hstage, hfollows]
  exact ⟨rfl, hmirrors.printed_eq, (List.reverse_reverse _).symm, rfl⟩

/-- A plain watch ends as every watch does. -/
theorem run_ends (hauto : settings.autoApply = true) (limits : History.Limits)
    (disk : History.Disk) (now : Int) (x : Script) {events : List WatchEvent}
    (hlines : events.filterMap WatchEvent.line? = x.lines) :
    let session := Session.assemble builtinEvaluator settings true (.new limits) disk
    let w := Watch.run session now x.input x.output x.template events
    Vigil.Ends settings.indent limits disk x w.printed w.session.recorder.events
      w.session.recorder.disk := by
  intro session w
  obtain ⟨acts, hreturned, hprinted, hpublished, hdisk⟩ :=
    run_is_vigil hauto limits disk now x hlines
  rw [← hprinted, ← hpublished, ← hdisk]
  exact (Vigil.sound_actAll settings.indent x.edits (.new limits) disk acts).ends hreturned

end Watch

end CommandLine

end QueryPlayground
