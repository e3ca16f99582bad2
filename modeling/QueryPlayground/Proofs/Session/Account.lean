import QueryPlayground.Proofs.Coordinator.Clock
import QueryPlayground.Proofs.Session.Ledger

/-!
# Keeping account of a session

With the built-in evaluator, and a worker that answers before anything else happens, what a session
shows and what it sends to its recorder can be told from what is done to it, the clock included. An
`Account` tells it: an edit changes the inputs, an
apply shows and records what the evaluator says about the inputs of its time, and with auto-apply on
the inputs are applied when no edit has followed for the quiet time. Nothing in an account speaks of
evaluations in progress, of a view that is being changed or of the recorder.

Main statement: `Machine.step_follows`, the coordinator keeps to the account in every step.
-/

namespace QueryPlayground

open QueryPlayground.Coordinator

/-! ## §1 Accounts -/

/-- What is recorded of an apply that the evaluator answers. -/
def Coordinator.Inputs.record? (i : Inputs) : Except Error Document → Option History.Record
  | .ok _ => some ⟨i.query.kind.historyKind, i.query.content⟩
  | .error _ => none

/-! ## §2 Accounts -/

/-- What is entered and shown, and what is to be recorded. -/
structure Account where
  /-- The settings. -/
  settings : Settings
  /-- The time. -/
  now : Nat
  /-- When the inputs are applied by themselves. -/
  due : Option Nat
  /-- The inputs after all edits. -/
  inputs : Inputs
  /-- The output that is shown. -/
  output : Option Document
  /-- The message that is shown. -/
  error : Option String
  /-- What is to be recorded, first one first. -/
  texts : List History.Record

namespace Account

/-- Nothing was entered yet. -/
def new (settings : Settings) : Account :=
  ⟨settings, 0, none, .default, none, none, []⟩

/-- How an apply ends: as the evaluator answers the inputs. -/
def outcome (a : Account) : Outcome :=
  match (a.inputs.request a.settings.indent).answer with
  | .ok d => .applied d
  | .error e => .failed e.message

/-- The account after an apply. A failure leaves the output as it is and records nothing. -/
def apply (a : Account) : Account :=
  match a.outcome with
  | .applied d =>
    { a with
      output := some d
      error := none
      texts := a.texts ++ [⟨a.inputs.query.kind.historyKind, a.inputs.query.content⟩] }
  | .failed message => { a with error := some message }
  | .dropped => a

/-- The account after an edit, which makes the quiet time start anew. -/
def edit (a : Account) (f : Inputs → Inputs) : Account :=
  { a with
    inputs := f a.inputs
    due := if a.settings.autoApply then some (a.now + a.settings.debounceMs) else a.due }

/-- The account after what a step says, before anything happens by itself. -/
def begin (a : Account) : Machine.Step → Account
  | .setInput d => a.edit fun i => { i with input := d }
  | .setQuery d => a.edit fun i => { i with query := d }
  | .setOutput kind => a.edit fun i => { i with outputType := kind }
  | .apply => a.apply
  | .advance time => { a with now := a.now + time }
  | .cancelPending => { a with due := none }
  | .release | .abort _ | .look => a

/-- The account once the inputs were applied by themselves, if that is due. -/
def settle (a : Account) : Account :=
  match a.due with
  | some t => if t ≤ a.now then { a.apply with due := none } else a
  | none => a

/-- The account after a step. -/
def take (a : Account) (s : Machine.Step) : Account :=
  (a.begin s).settle

/-- An apply changes what is shown and what is to be recorded, and nothing else. -/
theorem apply_frame (a : Account) :
    a.apply.settings = a.settings ∧ a.apply.now = a.now ∧ a.apply.due = a.due ∧
      a.apply.inputs = a.inputs := by
  unfold apply
  split <;> exact ⟨rfl, rfl, rfl, rfl⟩

/-- Whether an edit waits plays no part in an apply. -/
theorem apply_withoutDue (a : Account) :
    ({ a with due := none } : Account).apply = { a.apply with due := none } := by
  unfold apply outcome
  cases (a.inputs.request a.settings.indent).answer <;> rfl

theorem settle_frame (a : Account) : a.settle.settings = a.settings ∧ a.settle.now = a.now := by
  unfold settle
  split
  next =>
    split
    next => exact ⟨a.apply_frame.1, a.apply_frame.2.1⟩
    next => exact ⟨rfl, rfl⟩
  next => exact ⟨rfl, rfl⟩

/-- The settings stay. -/
theorem begin_settings (a : Account) (s : Machine.Step) : (a.begin s).settings = a.settings := by
  cases s with
  | apply => exact a.apply_frame.1
  | _ => rfl

theorem take_settings (a : Account) (s : Machine.Step) : (a.take s).settings = a.settings :=
  (a.begin s).settle_frame.1.trans (a.begin_settings s)

end Account

/-! ## §2 Coordinators that keep to an account -/

namespace Coordinator.Machine

/-- A coordinator with nothing in progress shows what an account says, and what it has handed over is
what is to be recorded. The clock is left out. -/
structure Follows (m : Machine) (sent : List History.Record) (a : Account) : Prop where
  flights_eq : m.flights = []
  busy_eq : m.busy = false
  records_eq : m.records = true
  settings_eq : m.settings = a.settings
  delay_eq : m.debouncer.delay = a.settings.debounceMs
  due_eq : m.debouncer.armed.map (·.due) = a.due
  inputs_eq : m.inputs = a.inputs
  view_eq : m.view = ⟨a.output, a.error, none⟩
  texts_eq : sent = a.texts

theorem follows_new (settings : Settings) :
    (new settings true).Follows [] (.new settings) :=
  ⟨rfl, rfl, rfl, rfl, rfl, rfl, rfl, rfl, rfl⟩

variable {m : Machine} {sent : List History.Record} {a : Account}

/-- The coordinator keeps to the account after what has happened, if it had handed over some texts
before. -/
def Leads (sent : List History.Record) (after : Machine × List Happening) (a : Account) : Prop :=
  after.1.Follows (sent ++ Session.records after.2) a

theorem leads_nil (h : m.Follows sent a) : Leads sent (m, []) a := by
  rw [Leads, Session.records, List.filterMap_nil, List.append_nil]
  exact h

theorem Leads.append {hs : List Happening} {after : Machine × List Happening}
    (h : Leads (sent ++ Session.records hs) after a) : Leads sent (after.1, hs ++ after.2) a := by
  rw [Leads, Session.records_append, ← List.append_assoc]
  exact h

theorem Follows.withClock (h : m.Follows sent a) (now requests : Nat) :
    Follows { m with now := now, requests := requests } sent a :=
  ⟨h.flights_eq, h.busy_eq, h.records_eq, h.settings_eq, h.delay_eq, h.due_eq, h.inputs_eq,
    h.view_eq, h.texts_eq⟩

theorem Follows.cancel (h : m.Follows sent a) :
    Follows { m with debouncer := m.debouncer.cancel } sent { a with due := none } :=
  ⟨h.flights_eq, h.busy_eq, h.records_eq, h.settings_eq, h.delay_eq, rfl, h.inputs_eq, h.view_eq,
    h.texts_eq⟩

/-- An apply that starts ends at once, with what the account says. -/
theorem start_follows (h : m.Follows sent a) (origin : Origin) :
    Leads sent (m.start (builtinEvaluator .none) origin) a.apply ∧
      ∀ number, origin = .request number →
        Session.outcome? number (m.start (builtinEvaluator .none) origin).2 = some a.outcome := by
  have hrequest : m.inputs.request m.settings.indent = a.inputs.request a.settings.indent := by
    rw [h.inputs_eq, h.settings_eq]
  obtain ⟨hsettings, -, hdue, hinputs⟩ := a.apply_frame
  rw [← h.settings_eq] at hsettings
  rw [← h.due_eq] at hdue
  rw [← h.inputs_eq] at hinputs
  have hdelay : m.debouncer.delay = a.apply.settings.debounceMs := by
    rw [hsettings, h.settings_eq]
    exact h.delay_eq
  -- The evaluator answers at once, so the machine goes from the call straight to the end.
  simp only [Leads, start, h.busy_eq, Bool.false_eq_true, if_false, hrequest,
    builtinEvaluator_apply]
  cases hanswer : (a.inputs.request a.settings.indent).answer with
  | error e =>
    have houtcome : a.outcome = .failed e.message := by rw [Account.outcome, hanswer]
    refine ⟨⟨h.flights_eq, rfl, h.records_eq, hsettings.symm, hdelay, hdue.symm, hinputs.symm,
      ?_, ?_⟩, ?_⟩
    · simp [conclude, free, View.showError, View.showLoading, h.view_eq, Account.apply, houtcome]
    · cases origin <;>
        simp [conclude, report, Session.records, h.texts_eq, Account.apply, houtcome]
    · rintro number rfl
      simp [conclude, report, Session.outcome?, houtcome]
  | ok d =>
    have houtcome : a.outcome = .applied d := by rw [Account.outcome, hanswer]
    refine ⟨⟨h.flights_eq, rfl, h.records_eq, hsettings.symm, hdelay, hdue.symm, hinputs.symm,
      ?_, ?_⟩, ?_⟩
    · simp [conclude, free, View.showOutput, View.showLoading, Account.apply, houtcome]
    · cases origin <;>
        simp [conclude, report, Session.records, h.records_eq, h.texts_eq, h.inputs_eq,
          Account.apply, houtcome]
    · rintro number rfl
      simp [conclude, report, Session.outcome?, houtcome, h.records_eq]

/-- With nothing in progress, only a quiet time can be over. -/
theorem Follows.quiescent (h : m.Follows sent a) {time : Nat}
    (hdue : ∀ t, a.due = some t → time < t) : m.Quiescent time := by
  intro t due hnext
  rcases next?_cases hnext with ⟨i, f, hf, -⟩ | ⟨i, f, hf, -⟩ | ⟨armed, harmed, rfl, -⟩
  · simp [h.flights_eq] at hf
  · simp [h.flights_eq] at hf
  · refine hdue armed.due ?_
    rw [← h.due_eq, harmed, Option.map_some]

/-- When a quiet time is over the inputs are applied. -/
theorem happen_quiet_follows (h : m.Follows sent a) (now : Nat) :
    Leads sent ({ m with now := now }.happen (builtinEvaluator .none) .quiet)
      { a.apply with due := none } := by
  rw [← a.apply_withoutDue]
  exact (start_follows (h.cancel.withClock now m.requests) .auto).1

/-- When a quiet time is over the inputs are applied, and then nothing is due any more. -/
theorem runUntil_of_due (h : m.Follows sent a) {armed : Armed Unit}
    (harmed : m.debouncer.armed = some armed) {time : Nat} (hle : armed.due ≤ time) :
    m.runUntil (builtinEvaluator .none) time m.backlog =
      { m with now := max m.now armed.due }.happen (builtinEvaluator .none) .quiet := by
  have hnext : m.next? = some (armed.due, .quiet) := by
    simp [next?, nextOf?, sooner, quiet?, h.flights_eq, harmed]
  have hbacklog : m.backlog = 3 := by
    simp [backlog, Flight.backlogs, Debouncer.isPending, h.flights_eq, harmed]
  -- Three is more than what can happen: the apply ends at once, and none waits after it.
  rw [hbacklog, runUntil, hnext]
  dsimp only
  rw [if_neg (Nat.not_lt.mpr hle)]
  have happlied := happen_quiet_follows h (max m.now armed.due)
  have hquiet : Quiescent _ time := Follows.quiescent happlied (by simp)
  simp only [runUntil_of_quiescent (builtinEvaluator .none) 2 hquiet, List.append_nil]

/-- Letting the clock come to the time of an account settles it. -/
theorem moveTo_follows (h : m.Follows sent a) :
    Leads sent (m.moveTo (builtinEvaluator .none) a.now) a.settle := by
  -- With no quiet time, or with one that is not over yet, only the clock moves.
  have hquiet (hlater : ∀ t, a.due = some t → a.now < t) :
      Leads sent (m.moveTo (builtinEvaluator .none) a.now) a := by
    rw [moveTo_of_quiescent _ (h.quiescent hlater)]
    exact leads_nil (h.withClock a.now m.requests)
  unfold Account.settle
  split
  next t hdue =>
    split
    next hle =>
      obtain ⟨armed, harmed, rfl⟩ : ∃ armed, m.debouncer.armed = some armed ∧ armed.due = t :=
        Option.map_eq_some_iff.mp (h.due_eq.trans hdue)
      simp only [moveTo, runUntil_of_due h harmed hle]
      exact Follows.withClock (happen_quiet_follows h _) a.now _
    next hlt =>
      refine hquiet fun t' hdue' => ?_
      rw [hdue] at hdue'
      obtain rfl := Option.some.inj hdue'
      exact Nat.lt_of_not_le hlt
  next hdue =>
    refine hquiet fun t' hdue' => ?_
    rw [hdue] at hdue'
    cases hdue'

theorem edit_follows (h : m.Follows sent a) (hnow : m.now = a.now) (f : Inputs → Inputs) :
    (m.edit f).Follows sent (a.edit f) := by
  have hauto : m.settings.autoApply = a.settings.autoApply := by rw [h.settings_eq]
  cases hon : a.settings.autoApply with
  | true =>
    rw [hon] at hauto
    simp only [edit, hauto, if_true, Account.edit, hon]
    refine ⟨h.flights_eq, h.busy_eq, h.records_eq, h.settings_eq, h.delay_eq, ?_,
      congrArg f h.inputs_eq, h.view_eq, h.texts_eq⟩
    simp [Debouncer.schedule, Debouncer.scheduleAfter, hnow, h.delay_eq]
  | false =>
    rw [hon] at hauto
    simp only [edit, hauto, Bool.false_eq_true, if_false, Account.edit, hon]
    exact ⟨h.flights_eq, h.busy_eq, h.records_eq, h.settings_eq, h.delay_eq, h.due_eq,
      congrArg f h.inputs_eq, h.view_eq, h.texts_eq⟩

theorem perform_follows (h : m.Follows sent a) (hnow : m.now = a.now) (s : Step) :
    Leads sent (m.perform (builtinEvaluator .none) s) (a.begin s) ∧
      (s = .apply → Session.outcome? m.requests (m.perform (builtinEvaluator .none) s).2 =
        some a.outcome) := by
  cases s with
  | setInput d => exact ⟨leads_nil (edit_follows h hnow fun i => { i with input := d }), by simp⟩
  | setQuery d => exact ⟨leads_nil (edit_follows h hnow fun i => { i with query := d }), by simp⟩
  | setOutput kind =>
    exact ⟨leads_nil (edit_follows h hnow fun i => { i with outputType := kind }), by simp⟩
  | apply =>
    obtain ⟨hleads, houtcome⟩ :=
      start_follows (h.withClock m.now (m.requests + 1)) (.request m.requests)
    exact ⟨hleads, fun _ => houtcome m.requests rfl⟩
  | advance time =>
    have hlater : m.Follows sent { a with now := a.now + time } :=
      ⟨h.flights_eq, h.busy_eq, h.records_eq, h.settings_eq, h.delay_eq, h.due_eq, h.inputs_eq,
        h.view_eq, h.texts_eq⟩
    exact ⟨leads_nil hlater, by simp⟩
  | release =>
    -- Nothing waits to be released, as nothing is in progress; the same goes for `abort`.
    have hnone : m.release = (m, []) := by simp [release, h.flights_eq]
    simp only [perform, hnone]
    exact ⟨leads_nil h, by simp⟩
  | cancelPending => exact ⟨leads_nil h.cancel, by simp⟩
  | abort number =>
    have hnone : m.abort number = m := by simp [abort, h.flights_eq]
    simp only [perform, hnone]
    exact ⟨leads_nil h, by simp⟩
  | look => exact ⟨leads_nil h, by simp⟩

theorem begin_now (hnow : m.now = a.now) (s : Step) : (a.begin s).now = m.timeAfter s := by
  cases s with
  | apply => exact a.apply_frame.2.1.trans hnow.symm
  | advance time => simp [Account.begin, timeAfter, hnow]
  | _ => exact hnow.symm

/-- The coordinator keeps to the account in every step, and a requested apply ends as it says. -/
theorem step_follows (h : m.Follows sent a) (hnow : m.now = a.now) (s : Step) :
    Leads sent (m.step (builtinEvaluator .none) s) (a.take s) ∧
      (m.step (builtinEvaluator .none) s).1.now = (a.take s).now ∧
      (s = .apply → Session.outcome? m.requests (m.step (builtinEvaluator .none) s).2 =
        some a.outcome) := by
  obtain ⟨hperform, houtcome⟩ := perform_follows h hnow s
  have htime := begin_now hnow s
  refine ⟨?_, ?_, ?_⟩
  · have hmoved := moveTo_follows hperform
    rw [htime] at hmoved
    exact hmoved.append
  · rw [Account.take, (Account.settle_frame _).2, htime]
    rfl
  · -- The end of the requested apply stands before whatever happens by itself.
    intro hs
    simp only [step, Session.outcome?, List.findSome?_append] at houtcome ⊢
    rw [houtcome hs]
    rfl

end Coordinator.Machine

end QueryPlayground
