import QueryPlayground.CommandLine.Vigil
import QueryPlayground.Proofs.History.Additions
import QueryPlayground.Proofs.History.Relay
import QueryPlayground.Proofs.Session.Account

/-!
# What a watch has done when it returns

Whoever acts when, the last thing that is printed is what becomes of the last edit, and it is the
last one that is recorded.

Main statements: `Step` has everything that can happen, and `Vigil.ends_of_returned` what a watch has
done when it returns.
-/

namespace QueryPlayground.CommandLine

open QueryPlayground.Coordinator

/-! ## §1 What the printer has written last -/

namespace Printer

/-- The last thing that is written for the view that was seen last. -/
def shown (p : Printer) : Option Printed :=
  match p.error with
  | some e => some (.error e)
  | none => p.output.map fun d => .output d.content

/-- A printer that has seen a view last. -/
def after (v : View) : Printer :=
  ⟨v.output, v.error⟩

theorem after_showOutput_ne_new (v : View) (d : Document) : after (v.showOutput d) ≠ new := by
  simp [after, new, View.showOutput]

theorem after_showError_ne_new (v : View) (e : String) : after (v.showError e) ≠ new := by
  simp [after, new, View.showError]

/-- What a printer writes for a view ends with what is to be shown for it, whichever view it has seen
before, as long as a view that shows something is not followed by one that shows nothing. -/
theorem getLast?_see {p : Printer} {printed : List Printed} (h : printed.getLast? = p.shown)
    {v : View} (hblank : after v = new → p = new) :
    (printed ++ (p.see v).2.toList).getLast? = (after v).shown := by
  -- The error comes before the output, and what was written last for the same view is not repeated.
  obtain ⟨output, error, loading⟩ := v
  cases error with
  | some e =>
    by_cases hrepeat : p.error = some e
    · simp [see, news, shown, after, h, hrepeat]
    · simp [see, news, shown, after, hrepeat]
  | none =>
    cases output with
    | none =>
      obtain rfl := hblank rfl
      simp [see, news, shown, after, h, new]
    | some d =>
      by_cases hnews : some d ≠ p.output ∨ p.error.isSome
      · simp [see, news, shown, after, hnews]
      · obtain ⟨houtput, herror⟩ := not_or.mp hnews
        rw [not_not] at houtput
        have hnone : p.error = none := by simpa using herror
        simp [see, news, shown, after, h, hnone, ← houtput]

end Printer

/-! ## §2 How far things have come -/

/-- What is recorded of a snapshot that is evaluated. -/
def Snapshot.record? (indent : Nat) (p : Snapshot) : Option History.Record :=
  p.inputs.record? (p.inputs.request indent).answer

/-- The inputs whose evaluation has not ended. -/
def Progress.held? : Progress → Option Snapshot
  | .holding p | .evaluating p => some p
  | .entered | .recording _ | .leaving => none

/-- Whether an evaluation is still to end. -/
def Progress.isOpen : Progress → Bool
  | .entered | .holding _ | .evaluating _ => true
  | .recording _ | .leaving => false

/-- The text that is still to be handed to the recorder. -/
def Progress.owed? : Progress → Option History.Record
  | .recording x => some x
  | .entered | .holding _ | .evaluating _ | .leaving => none

namespace Vigil.Stage

/-- The edits that are still to come. -/
def rest : Stage → List (Inputs → Inputs)
  | .editing rest | .arming rest => rest
  | .awaiting | .applying | .closed | .returned => []

/-- Whether all edits were made and nothing waits for a quiet time any more. -/
def isDone : Stage → Bool
  | .awaiting | .applying | .closed | .returned => true
  | .editing _ | .arming _ => false

/-- Whether the main task has found no apply in after the last edit. -/
def isLate : Stage → Bool
  | .applying | .closed | .returned => true
  | .editing _ | .arming _ | .awaiting => false

/-- Whether the watch has returned. -/
def isReturned : Stage → Bool
  | .returned => true
  | .editing _ | .arming _ | .awaiting | .applying | .closed => false

theorem eq_returned {t : Stage} (h : t.isReturned = true) : t = .returned := by
  cases t <;> first | rfl | cases h

end Vigil.Stage

namespace Vigil

/-! ## §3 Everything that can happen -/

/-- What happens, where it makes a difference. -/
inductive Step (indent : Nat) (s : Vigil) : Vigil → Prop where
  | rest : Step indent s s
  | edit {f : Inputs → Inputs} {rest : List (Inputs → Inputs)} : s.stage = .editing (f :: rest) →
      Step indent s
        { s with stage := .arming rest, inputs := f s.inputs, edits := s.edits + 1 }
  | arm {rest : List (Inputs → Inputs)} : s.stage = .arming rest →
      Step indent s { s with stage := .editing rest, armed := true }
  | cancel : s.stage = .editing [] →
      Step indent s { s with stage := .awaiting, armed := false }
  | ask : s.stage = .awaiting → s.flight = none →
      Step indent s { s with stage := .applying, asked := s.asked ++ [own] }
  | close : s.stage = .applying → own ∉ s.asked →
      Step indent s { s with stage := .closed }
  | return : s.stage = .closed → s.relay.stage = .stopped → s.fresh = false →
      Step indent s { s with stage := .returned }
  | fire : s.armed = true →
      Step indent s { s with armed := false, asked := s.asked ++ [.auto] }
  | enter {o : Origin} : o ∈ s.asked → s.flight = none →
      Step indent s { s with asked := s.asked.erase o, flight := some (o, .entered) }
  | turnAway {o : Origin} : o ∈ s.asked → s.flight ≠ none →
      Step indent s { s with asked := s.asked.erase o }
  | hold {o : Origin} : s.flight = some (o, .entered) →
      Step indent s { s with flight := some (o, .holding ⟨s.edits, s.inputs⟩) }
  | load {o : Origin} {p : Snapshot} : s.flight = some (o, .holding p) →
      Step indent s
        { s with
          flight := some (o, .evaluating p)
          view := s.view.showLoading (some p.inputs.loadingText), fresh := true }
  | succeed {o : Origin} {p : Snapshot} {d : Document} : s.flight = some (o, .evaluating p) →
      (p.inputs.request indent).answer = .ok d →
      Step indent s
        { s with
          flight := some (o, .recording ⟨p.inputs.query.kind.historyKind, p.inputs.query.content⟩)
          view := s.view.showOutput d, fresh := true, log := s.log ++ [p] }
  | fail {o : Origin} {p : Snapshot} {e : Error} : s.flight = some (o, .evaluating p) →
      (p.inputs.request indent).answer = .error e →
      Step indent s
        { s with
          flight := some (o, .leaving), view := s.view.showError e.message, fresh := true
          log := s.log ++ [p] }
  | record {o : Origin} {x : History.Record} : s.flight = some (o, .recording x) →
      Step indent s { s with flight := some (o, .leaving), relay := s.relay.act (.record x) }
  | leave {o : Origin} : s.flight = some (o, .leaving) →
      Step indent s { s with flight := none, parting := s.parting ++ [o] }
  | part {o : Origin} : o ∈ s.parting →
      Step indent s
        { s with parting := s.parting.erase o, view := s.view.showLoading none, fresh := true }
  | work (now : Int) : Step indent s { s with relay := s.relay.act (.work now) }
  | drop : s.isReleased = true → Step indent s { s with relay := s.relay.act .drop }
  | see : s.fresh = true →
      Step indent s
        { s with
          fresh := false, printer := .after s.view
          printed := s.printed ++ (s.printer.see s.view).2.toList }

variable {indent : Nat} {s s' : Vigil}

/-- What the main task does next is one of the steps, and so is every other act. -/
theorem step_turn (indent : Nat) (s : Vigil) : Step indent s s.turn := by
  unfold turn
  -- The main task is at one place of the script, and there it does one thing or waits.
  cases hstage : s.stage with
  | editing rest =>
    cases rest with
    | nil => exact .cancel hstage
    | cons f rest => exact .edit hstage
  | arming rest => exact .arm hstage
  | awaiting =>
    dsimp only
    split
    next => exact .rest
    next hflight => exact .ask hstage (by simpa using hflight)
  | applying =>
    dsimp only
    split
    next => exact .rest
    next hfree => exact .close hstage fun hmem => hfree (by simp [occupies, hmem])
  | closed =>
    dsimp only
    split
    next hstopped hseen => exact .return hstage hstopped hseen
    next => exact .rest
  | returned => exact .rest

theorem step_call (indent : Nat) (s : Vigil) (o : Origin) : Step indent s (s.call o) := by
  unfold call
  split
  next hmem =>
    have hasked : o ∈ s.asked := by simpa using hmem
    split
    next hflight => exact .enter hasked hflight
    next x hflight => exact .turnAway hasked (by simp [hflight])
  next => exact .rest

theorem step_conclude {o : Origin} {p : Snapshot} (h : s.flight = some (o, .evaluating p)) :
    Step indent s (s.conclude o p (p.inputs.request indent).answer) := by
  cases hanswer : (p.inputs.request indent).answer with
  | error e => exact .fail h hanswer
  | ok d => exact .succeed h hanswer

theorem step_proceed (indent : Nat) (s : Vigil) : Step indent s (s.proceed indent) := by
  unfold proceed
  split
  next => exact .rest
  next hflight => exact .hold hflight
  next hflight => exact .load hflight
  next hflight => exact step_conclude hflight
  next hflight => exact .record hflight
  next hflight => exact .leave hflight

/-- Every act of a task is a step of the vigil, or changes nothing where the task cannot go on. -/
theorem step_act (indent : Nat) (s : Vigil) (a : Act) : Step indent s (s.act indent a) := by
  cases a with
  | main => exact step_turn indent s
  | fire =>
    simp only [act]
    split
    next harmed => exact .fire harmed
    next => exact .rest
  | call o => exact step_call indent s o
  | proceed => exact step_proceed indent s
  | part o =>
    simp only [act, part]
    split
    next hmem => exact .part (by simpa using hmem)
    next => exact .rest
  | work now => exact .work now
  | drop =>
    simp only [act]
    split
    next hreleased => exact .drop hreleased
    next => exact .rest
  | see =>
    simp only [act, see]
    split
    next hfresh => exact .see hfresh
    next => exact .rest

/-! ## §4 What was printed last -/

/-- What was printed last is what the printer has seen last, and this is the view unless the view is
fresh. -/
structure Shows (s : Vigil) : Prop where
  printed_eq : s.printed.getLast? = s.printer.shown
  seen : s.fresh = false → s.printer = .after s.view
  blank : Printer.after s.view = .new → s.printer = .new

theorem shows_start (fs : List (Inputs → Inputs)) (handle : History.Handle)
    (disk : History.Disk) : (start fs handle disk).Shows :=
  ⟨rfl, fun _ => rfl, fun _ => rfl⟩

/-- The printer is behind only where the view is fresh. -/
theorem Shows.step (h : s.Shows) (hstep : Step indent s s') : s'.Shows := by
  cases hstep with
  | load | part => exact { h with seen := nofun }
  -- What came out of an evaluation is something to show.
  | succeed =>
    exact ⟨h.printed_eq, nofun, fun hblank => absurd hblank (Printer.after_showOutput_ne_new _ _)⟩
  | fail =>
    exact ⟨h.printed_eq, nofun, fun hblank => absurd hblank (Printer.after_showError_ne_new _ _)⟩
  | see => exact ⟨Printer.getLast?_see h.printed_eq h.blank, fun _ => rfl, id⟩
  | _ => exact { h with }

/-! ## §5 Edits and evaluations -/

/-- The inputs after so many of some edits. -/
def inputsAfter (fs : List (Inputs → Inputs)) (k : Nat) : Inputs :=
  (fs.take k).foldl (fun i f => f i) .default

theorem inputsAfter_succ {fs : List (Inputs → Inputs)} {k : Nat} {f : Inputs → Inputs}
    {rest : List (Inputs → Inputs)} (h : f :: rest = fs.drop k) :
    inputsAfter fs (k + 1) = f (inputsAfter fs k) := by
  -- The edit is the one that comes next of all edits.
  have hget : fs[k]? = some f := by
    rw [← List.head?_drop, ← h, List.head?_cons]
  rw [inputsAfter, List.take_add_one, hget, List.foldl_append]
  rfl

/-- What is printed of inputs that the evaluator answers. -/
def outcome (indent : Nat) (i : Inputs) : Printed :=
  match (i.request indent).answer with
  | .ok d => .output d.content
  | .error e => .error e.message

/-- The inputs whose evaluation has not ended. -/
def held? (s : Vigil) : Option Snapshot :=
  s.flight.bind fun x => x.2.held?

/-- The edits are made one after the other, and every apply works on the inputs of its moment. What is
shown is what came out of the last one that was evaluated. -/
structure Follows (indent : Nat) (fs : List (Inputs → Inputs)) (s : Vigil) : Prop where
  inputs_eq : s.inputs = inputsAfter fs s.edits
  rest_eq : s.stage.rest = fs.drop s.edits
  edits_le : s.edits ≤ fs.length
  log : ∀ p ∈ s.log, p.inputs = inputsAfter fs p.edits ∧ p.edits ≤ s.edits
  ascending : s.log.Pairwise (·.edits ≤ ·.edits)
  held : ∀ p, s.held? = some p → p.inputs = inputsAfter fs p.edits ∧ p.edits ≤ s.edits ∧
    (∀ q ∈ s.log, q.edits ≤ p.edits) ∧ (s.stage.isLate = true → p.edits = fs.length)
  shown : (Printer.after s.view).shown = s.log.getLast?.map fun p => outcome indent p.inputs

variable {fs : List (Inputs → Inputs)}

theorem follows_start (indent : Nat) (fs : List (Inputs → Inputs)) (handle : History.Handle)
    (disk : History.Disk) : (start fs handle disk).Follows indent fs :=
  ⟨rfl, rfl, Nat.zero_le _, nofun, .nil, nofun, rfl⟩

/-- After the last edit all edits are made. -/
theorem Follows.edits_eq (h : s.Follows indent fs) (hdone : s.stage.isDone = true) :
    s.edits = fs.length := by
  have hrest := h.rest_eq
  have hnil : s.stage.rest = [] := by
    cases hstage : s.stage <;> simp_all [Stage.isDone, Stage.rest]
  rw [hnil, eq_comm, List.drop_eq_nil_iff] at hrest
  exact Nat.le_antisymm h.edits_le hrest

theorem Stage.isDone_of_isLate {t : Stage} (h : t.isLate = true) : t.isDone = true := by
  cases t <;> first | rfl | cases h

/-- What is evaluated to the end was taken after everything that was evaluated before. -/
theorem Follows.log_concat (h : s.Follows indent fs) {p : Snapshot} (hheld : s.held? = some p) :
    (∀ q ∈ s.log ++ [p], q.inputs = inputsAfter fs q.edits ∧ q.edits ≤ s.edits) ∧
      (s.log ++ [p]).Pairwise (·.edits ≤ ·.edits) := by
  obtain ⟨hof, hle, hlast, -⟩ := h.held p hheld
  constructor
  · intro q hq
    rcases List.mem_append.mp hq with hq | hq
    · exact h.log q hq
    · exact List.mem_singleton.mp hq ▸ ⟨hof, hle⟩
  · exact List.pairwise_append.mpr ⟨h.ascending, List.pairwise_singleton _ _,
      fun q hq p' hp' => List.mem_singleton.mp hp' ▸ hlast q hq⟩

/-- Every step keeps the order of edits and evaluations. -/
theorem Follows.step (h : s.Follows indent fs) (hstep : Step indent s s') :
    s'.Follows indent fs := by
  cases hstep with
  | edit hstage =>
    have hrest := h.rest_eq
    rw [hstage] at hrest
    -- There is an edit to make, so not all of them are made.
    have hlt : s.edits < fs.length := by
      have := congrArg List.length hrest
      simp only [Stage.rest, List.length_cons, List.length_drop] at this
      omega
    refine ⟨?_, ?_, hlt, fun p hp => ⟨(h.log p hp).1, Nat.le_succ_of_le (h.log p hp).2⟩,
      h.ascending, fun p hp => ?_, h.shown⟩
    · rw [inputsAfter_succ hrest, h.inputs_eq]
    · simpa [Stage.rest] using congrArg List.tail hrest
    · obtain ⟨hof, hle, hlast, -⟩ := h.held p hp
      exact ⟨hof, Nat.le_succ_of_le hle, hlast, nofun⟩
  -- Nothing is edited, and the main task does not look for an apply yet.
  | arm hstage | cancel hstage =>
    have hrest := h.rest_eq
    rw [hstage] at hrest
    refine { h with rest_eq := hrest, held := fun p hp => ?_ }
    obtain ⟨hof, hle, hlast, -⟩ := h.held p hp
    exact ⟨hof, hle, hlast, nofun⟩
  | ask hstage hflight =>
    have hrest := h.rest_eq
    rw [hstage] at hrest
    exact { h with rest_eq := hrest, held := fun p hp => by simp [held?, hflight] at hp }
  | close hstage | «return» hstage =>
    have hrest := h.rest_eq
    have hheld := h.held
    rw [hstage] at hrest hheld
    exact { h with rest_eq := hrest, held := hheld }
  -- Whoever has been let in has taken no inputs yet, or has given them back.
  | enter | record | leave => exact { h with held := nofun }
  | hold =>
    refine { h with held := ?_ }
    rintro p ⟨⟩
    -- The inputs are taken at this moment, so no evaluation before has taken later ones.
    exact ⟨h.inputs_eq, Nat.le_refl _, fun q hq => (h.log q hq).2,
      fun hlate => h.edits_eq (Stage.isDone_of_isLate hlate)⟩
  | load hflight =>
    refine { h with held := ?_ }
    rintro p ⟨⟩
    exact h.held _ (by rw [held?, hflight]; rfl)
  -- What was evaluated is the last one now, and its outcome is what is shown.
  | succeed hflight hanswer | fail hflight hanswer =>
    obtain ⟨hlog, hascending⟩ := h.log_concat (by rw [held?, hflight]; rfl)
    refine { h with log := hlog, ascending := hascending, held := nofun, shown := ?_ }
    rw [List.getLast?_concat, Option.map_some, outcome, hanswer]
    rfl
  | _ => exact { h with }

/-! ## §6 The last apply -/

/-- Whether there is an apply in whose evaluation is still to end. -/
def isOpen (s : Vigil) : Bool :=
  s.flight.any fun x => x.2.isOpen

/-- Once the main task has found no apply in, one works on the inputs after all edits: its own, or one
that was let in before it and turned it away. -/
structure Settles (fs : List (Inputs → Inputs)) (s : Vigil) : Prop where
  unarmed : s.stage.isDone = true → s.armed = false
  settled : s.stage.isLate = true → (own ∈ s.asked ∧ s.flight = none) ∨ s.isOpen = true ∨
    ∃ p, s.log.getLast? = some p ∧ p.edits = fs.length

theorem settles_start (fs : List (Inputs → Inputs)) (handle : History.Handle)
    (disk : History.Disk) : (start fs handle disk).Settles fs :=
  ⟨fun _ => rfl, nofun⟩

/-- Whatever happens after the last edit, an apply on the inputs after it is in or has ended. -/
theorem Settles.step (h : s.Settles fs) (hfollows : s.Follows indent fs)
    (hstep : Step indent s s') : s'.Settles fs := by
  cases hstep with
  -- Before the last edit nothing is promised.
  | edit | arm => exact ⟨nofun, nofun⟩
  | cancel => exact ⟨fun _ => rfl, nofun⟩
  | ask hstage hflight =>
    have hunarmed := h.unarmed
    rw [hstage] at hunarmed
    exact ⟨hunarmed, fun _ => .inl ⟨by simp, hflight⟩⟩
  | close hstage | «return» hstage =>
    have hunarmed := h.unarmed
    have hsettled := h.settled
    rw [hstage] at hunarmed hsettled
    exact ⟨hunarmed, hsettled⟩
  | fire =>
    refine ⟨fun _ => rfl, fun hlate => ?_⟩
    rcases h.settled hlate with ⟨hasked, hflight⟩ | hother
    · exact .inl ⟨List.mem_append_left _ hasked, hflight⟩
    · exact .inr hother
  | turnAway _ hflight =>
    refine ⟨h.unarmed, fun hlate => ?_⟩
    -- Whoever is in at this moment was let in after the last edit.
    rcases h.settled hlate with ⟨-, hnone⟩ | hother
    · exact (hflight hnone).elim
    · exact .inr hother
  | enter | hold | load => exact ⟨h.unarmed, fun _ => .inr (.inl rfl)⟩
  -- The evaluation that ends has taken its inputs after the last edit.
  | succeed hflight | fail hflight =>
    have hheld := hfollows.held _ (by rw [held?, hflight]; rfl)
    exact ⟨h.unarmed, fun hlate => .inr (.inr ⟨_, List.getLast?_concat, hheld.2.2.2 hlate⟩)⟩
  -- The evaluation has ended before, so the apply that leaves is not the one that is waited for.
  | record hflight | leave hflight =>
    refine ⟨h.unarmed, fun hlate => ?_⟩
    rcases h.settled hlate with ⟨-, hnone⟩ | hopen | hlast
    · rw [hflight] at hnone
      cases hnone
    · rw [isOpen, hflight] at hopen
      cases hopen
    · exact .inr (.inr hlast)
  | _ => exact { h with }

/-! ## §7 The recorder -/

theorem isReleased_iff :
    s.isReleased = true ↔
      s.stage.isClosed = true ∧ s.asked = [] ∧ s.flight = none ∧ s.parting = [] := by
  simp [isReleased, and_assoc]

/-- Once nobody holds the coordinator any more, that stays so. -/
theorem isReleased_step (h : s.isReleased = true) (hunarmed : s.armed = false)
    (hstep : Step indent s s') : s'.isReleased = true := by
  obtain ⟨hclosed, hasked, hflight, hparting⟩ := isReleased_iff.mp h
  cases hstep with
  -- The main task is past all this.
  | edit hstage | arm hstage | cancel hstage | ask hstage | close hstage =>
    rw [hstage] at hclosed
    cases hclosed
  | «return» => exact isReleased_iff.mpr ⟨rfl, hasked, hflight, hparting⟩
  -- No quiet time is over, no apply is asked for and none is in.
  | fire harmed => simp [hunarmed] at harmed
  | enter hmem | turnAway hmem => simp [hasked] at hmem
  | hold hin | load hin | succeed hin | fail hin | record hin | leave hin => simp [hflight] at hin
  | part hmem => simp [hparting] at hmem
  | rest | work | drop | see => exact isReleased_iff.mpr ⟨hclosed, hasked, hflight, hparting⟩

/-- The text that is still to be handed to the recorder. -/
def owed? (s : Vigil) : Option History.Record :=
  s.flight.bind fun x => x.2.owed?

/-- The texts of what has succeeded go to the recorder in the order of the evaluations, and the
recorder does not stop before nobody can hand over any more. -/
structure Records (indent : Nat) (handle : History.Handle) (disk : History.Disk) (s : Vigil) :
    Prop where
  follows : s.relay.Follows handle disk
  texts_eq : s.relay.calls.map Prod.fst ++ s.owed?.toList =
    s.log.filterMap (Snapshot.record? indent)
  released : s.relay.sinks = 0 → s.isReleased = true
  returned : s.stage = .returned → s.relay.stage = .stopped ∧ s.fresh = false

variable {handle : History.Handle} {disk : History.Disk}

theorem records_start (indent : Nat) (fs : List (Inputs → Inputs)) (handle : History.Handle)
    (disk : History.Disk) : (start fs handle disk).Records indent handle disk :=
  ⟨History.Relay.follows_new handle disk, rfl, nofun, nofun⟩

/-- Where a watch has returned, the recorder stays stopped and the printer has seen everything. -/
theorem Records.returned_step (h : s.Records indent handle disk)
    (hreturned : s.stage = .returned) (hstep : Step indent s s') :
    s'.relay.stage = .stopped ∧ s'.fresh = false := by
  obtain ⟨hstopped, hseen⟩ := h.returned hreturned
  obtain ⟨-, hasked, hflight, hparting⟩ :=
    isReleased_iff.mp (h.released (h.follows.done hstopped).1)
  -- Once the main task has returned the coordinator is released, and nobody is left in it.
  cases hstep with
  | edit hstage | arm hstage | cancel hstage | ask hstage | close hstage =>
    rw [hreturned] at hstage
    cases hstage
  | load hin | succeed hin | fail hin | record hin => simp [hflight] at hin
  | part hmem => simp [hparting] at hmem
  | work now =>
    refine ⟨?_, hseen⟩
    simp [History.Relay.act, History.Relay.work, hstopped]
  | drop => exact ⟨hstopped, hseen⟩
  | see => exact ⟨hstopped, rfl⟩
  | rest | «return» | fire | enter | turnAway | hold | leave => exact ⟨hstopped, hseen⟩

/-- A text is owed between the end of its evaluation and its handing over, and stands in the log from
then on. -/
theorem Records.texts_step (h : s.Records indent handle disk) (hstep : Step indent s s') :
    s'.relay.calls.map Prod.fst ++ s'.owed?.toList =
      s'.log.filterMap (Snapshot.record? indent) := by
  have htexts := h.texts_eq
  cases hstep with
  | enter _ hflight =>
    rw [owed?, hflight] at htexts
    exact htexts
  | hold hflight | load hflight | leave hflight =>
    rw [owed?, hflight] at htexts
    exact htexts
  | succeed hflight hanswer | fail hflight hanswer =>
    rw [owed?, hflight] at htexts
    rw [List.filterMap_append, ← htexts]
    simp [owed?, Progress.owed?, Snapshot.record?, Inputs.record?, hanswer]
  | @record o x hflight =>
    -- Who hands a text over holds a sink.
    have hsinks : s.relay.sinks ≠ 0 := fun hsinks => by
      have := (isReleased_iff.mp (h.released hsinks)).2.2.1
      simp [hflight] at this
    rw [owed?, hflight] at htexts
    simp only [History.Relay.act, if_neg hsinks, (s.relay.texts_sinks_record x).1]
    simpa [owed?, Progress.owed?] using htexts
  | work now =>
    rw [← (s.relay.calls_sinks_work now).1] at htexts
    exact htexts
  | _ => exact htexts

/-- The recorder keeps up with the applies at every step. -/
theorem Records.step (h : s.Records indent handle disk) (hsettles : s.Settles fs)
    (hstep : Step indent s s') : s'.Records indent handle disk := by
  -- Once the sinks are gone the main task is past the last edit, so nothing is armed.
  have hreleased (hsinks : s.relay.sinks = 0) : s'.isReleased = true := by
    have hrel := h.released hsinks
    have hclosed := (isReleased_iff.mp hrel).1
    refine isReleased_step hrel (hsettles.unarmed ?_) hstep
    cases hstage : s.stage <;> simp_all [Stage.isClosed, Stage.isDone]
  -- Only the step that returns begins this; later on it stays.
  have hreturned (hs' : s'.stage = .returned) : s'.relay.stage = .stopped ∧ s'.fresh = false := by
    by_cases hs : s.stage = .returned
    · exact h.returned_step hs hstep
    · cases hstep with
      | «return» _ hstopped hseen => exact ⟨hstopped, hseen⟩
      | edit | arm | cancel | ask | close => cases hs'
      | _ => exact (hs hs').elim
  refine ⟨?follows, h.texts_step hstep, ?released, hreturned⟩
  case follows =>
    cases hstep with
    | @record o x => exact h.follows.act (.record x)
    | work now => exact h.follows.act (.work now)
    | drop => exact h.follows.act .drop
    | _ => exact h.follows
  case released =>
    intro hsinks
    cases hstep with
    | drop hrel => exact isReleased_iff.mpr (isReleased_iff.mp hrel)
    | @record o x =>
      -- Whoever hands a text over holds a sink, so this was not the last one.
      refine hreleased ?_
      by_contra hne
      simp only [History.Relay.act, if_neg hne, (s.relay.texts_sinks_record x).2] at hsinks
      exact hne hsinks
    | work now => exact hreleased ((s.relay.calls_sinks_work now).2 ▸ hsinks)
    | _ => exact hreleased hsinks

/-! ## §8 The end -/

/-- Everything that holds at every moment of a watch. -/
structure Sound (indent : Nat) (fs : List (Inputs → Inputs)) (handle : History.Handle)
    (disk : History.Disk) (s : Vigil) : Prop where
  shows : s.Shows
  follows : s.Follows indent fs
  settles : s.Settles fs
  records : s.Records indent handle disk

/-- All of this holds at every moment, by induction on what was done from the beginning. -/
theorem sound_actAll (indent : Nat) (fs : List (Inputs → Inputs)) (handle : History.Handle)
    (disk : History.Disk) (acts : List Act) :
    ((start fs handle disk).actAll indent acts).Sound indent fs handle disk := by
  induction acts using List.reverseRecOn with
  | nil =>
    exact ⟨shows_start fs handle disk, follows_start indent fs handle disk,
      settles_start fs handle disk, records_start indent fs handle disk⟩
  | append_singleton acts a ih =>
    rw [actAll, List.foldl_append]
    have hstep := step_act indent ((start fs handle disk).actAll indent acts) a
    exact ⟨ih.shows.step hstep, ih.follows.step hstep, ih.settles.step ih.follows hstep,
      ih.records.step ih.settles hstep⟩

/-- When a watch has returned, the last apply was one of the inputs after all edits, what came of it
was printed last, and the recorder has taken the texts of all that have succeeded. -/
theorem Sound.of_returned (h : s.Sound indent fs handle disk) (hreturned : s.stage = .returned) :
    (∃ p, s.log.getLast? = some p ∧ p.edits = fs.length ∧ p.inputs = inputsAfter fs fs.length ∧
      s.printed.getLast? = some (outcome indent p.inputs)) ∧
    s.relay.written.map Prod.snd = s.log.filterMap (Snapshot.record? indent) := by
  obtain ⟨hstopped, hseen⟩ := h.records.returned hreturned
  have hsinks := (h.records.follows.done hstopped).1
  obtain ⟨-, hasked, hflight, -⟩ := isReleased_iff.mp (h.records.released hsinks)
  refine ⟨?_, ?_⟩
  -- Nobody asks and nobody is in, so the last apply has come to its end.
  · have hlate : s.stage.isLate = true := by rw [hreturned]; rfl
    obtain ⟨p, hp, hedits⟩ : ∃ p, s.log.getLast? = some p ∧ p.edits = fs.length := by
      simpa [hasked, isOpen, hflight] using h.settles.settled hlate
    have hof := (h.follows.log p (List.mem_of_getLast? hp)).1
    refine ⟨p, hp, hedits, hedits ▸ hof, ?_⟩
    rw [h.shows.printed_eq, h.shows.seen hseen, h.follows.shown, hp, Option.map_some]
  · have htexts := h.records.texts_eq
    -- Nothing is owed, so all texts of the log were handed over and, as the recorder stopped, written.
    rw [owed?, hflight, Option.bind_none, Option.toList_none, List.append_nil] at htexts
    rw [← htexts]
    exact h.records.follows.toFaithful.complete hstopped

end Vigil

/-! ## §9 Lines -/

namespace Vigil

variable {indent : Nat} {fs : List (Inputs → Inputs)} {disk : History.Disk} {s : Vigil}

/-- Whether the evaluator has an output for inputs. -/
def succeeds (indent : Nat) (i : Inputs) : Bool :=
  (i.request indent).answer.isOk

/-- The inputs before the first edit and after each one. -/
def moments (fs : List (Inputs → Inputs)) : List Inputs :=
  fs.scanl (fun i f => f i) .default

theorem getElem?_moments {k : Nat} (hk : k ≤ fs.length) :
    (moments fs)[k]? = some (inputsAfter fs k) := by
  rw [moments, List.getElem?_scanl, if_pos hk]
  rfl

theorem scanl_lines (i : Inputs) (template : Bool) (lines : List String) :
    (lines.map fun line (i : Inputs) =>
        { i with query := queryDocument template line }).scanl (fun i f => f i) i =
      i :: lines.map fun line => { i with query := queryDocument template line } := by
  induction lines generalizing i with
  | nil => rfl
  | cons line lines ih => rw [List.map_cons, List.scanl_cons, ih]; rfl

/-- Before the first line the query is empty, and the document and the kind of the output come before
the first line. -/
theorem moments_edits (w : Script) :
    moments w.edits =
      [.default, { Inputs.default with outputType := w.output }, ⟨w.input, .empty .query, w.output⟩] ++
        w.lines.map w.inputsOf := by
  rw [moments, Script.edits, List.scanl_cons, List.scanl_cons, scanl_lines]
  rfl

/-- After all edits the inputs are those of the last line. -/
theorem inputsAfter_edits (w : Script) : inputsAfter w.edits w.edits.length = w.last := by
  have hlast : (moments w.edits).getLast? = some (inputsAfter w.edits w.edits.length) := by
    rw [moments, List.getLast?_scanl, inputsAfter, List.take_length]
  rw [moments_edits, List.getLast?_append, List.getLast?_map] at hlast
  rw [Script.last]
  cases hline : w.lines.getLast? with
  | none => simpa [hline, eq_comm] using hlast
  | some line => simpa [hline, eq_comm] using hlast

/-- Elements at ascending positions are a sublist. -/
private theorem map_sublist_of_ascending {α : Type} {l : List α} {ks : List Nat} {f : Nat → α}
    (hks : ks.Pairwise (· < ·)) (hf : ∀ k ∈ ks, l[k]? = some (f k)) : (ks.map f).Sublist l := by
  have hlt : ∀ k ∈ ks, k < l.length := fun k hk => (List.getElem?_eq_some_iff.mp (hf k hk)).1
  have hpositions : (ks.pmap Fin.mk hlt).Pairwise (· < ·) :=
    (List.pairwise_pmap hlt).mpr (hks.imp fun hlt _ _ => hlt)
  have hmap : (ks.pmap Fin.mk hlt).map (l[·]) = ks.map f := by
    rw [List.map_pmap, ← List.attach_map_val (l := ks) (f := f), List.pmap_eq_map_attach]
    exact List.map_congr_left fun k _ => (List.getElem?_eq_some_iff.mp (hf k.1 k.2)).2
  exact hmap ▸ List.map_getElem_sublist hpositions

/-- Inputs with a query at ascending moments are, in order, among the inputs with the lines. -/
theorem map_sublist_lines (w : Script) {ks : List Nat} (hks : ks.Pairwise (· < ·))
    (hle : ∀ k ∈ ks, k ≤ w.edits.length)
    (hquery : ∀ k ∈ ks, (inputsAfter w.edits k).query.content ≠ "") :
    (ks.map (inputsAfter w.edits)).Sublist (w.lines.map w.inputsOf) := by
  have hmoments := map_sublist_of_ascending hks fun k hk => getElem?_moments (hle k hk)
  have hfilter := hmoments.filter fun i => i.query.content ≠ ""
  have hall : ∀ i ∈ ks.map (inputsAfter w.edits), (decide (i.query.content ≠ "")) = true := by
    simpa using hquery
  rw [List.filter_eq_self.mpr hall, moments_edits, List.filter_append] at hfilter
  exact hfilter.trans List.filter_sublist

/-! ## §10 What a watch has done -/

/-- The text of the inputs of a moment. -/
def textAt (fs : List (Inputs → Inputs)) (k : Nat) : History.Record :=
  ⟨(inputsAfter fs k).query.kind.historyKind, (inputsAfter fs k).query.content⟩

/-- The moments of what has succeeded. -/
def turns (indent : Nat) (log : List Snapshot) : List Nat :=
  (log.filter fun p => succeeds indent p.inputs).map Snapshot.edits

/-- What is handed over is the text of the moments that have succeeded. -/
theorem filterMap_record? {log : List Snapshot}
    (hlog : ∀ p ∈ log, p.inputs = inputsAfter fs p.edits) :
    log.filterMap (Snapshot.record? indent) = (turns indent log).map (textAt fs) := by
  induction log with
  | nil => rfl
  | cons p log ih =>
    obtain ⟨hp, hlog⟩ := List.forall_mem_cons.mp hlog
    have htext : Snapshot.record? indent p =
        if succeeds indent p.inputs then some (textAt fs p.edits) else none := by
      rw [textAt, ← hp, Snapshot.record?, succeeds]
      cases (p.inputs.request indent).answer <;> rfl
    cases hsucceeds : succeeds indent p.inputs <;>
      simp_all [turns]

/-- Texts of ascending moments that have succeeded and can be recorded are, in order, among the lines
that succeed, and belong to the history of the lines. -/
theorem lines_of_chosen (w : Script) {chosen : List Nat} (hascending : chosen.Pairwise (· < ·))
    (hle : ∀ k ∈ chosen, k ≤ w.edits.length)
    (hsucceeds : ∀ k ∈ chosen, succeeds indent (inputsAfter w.edits k) = true)
    (hcontent : ∀ k ∈ chosen, (textAt w.edits k).content ≠ "") :
    ((chosen.map (textAt w.edits)).map (·.content)).Sublist
        (w.lines.filter fun line => succeeds indent (w.inputsOf line)) ∧
      ∀ x ∈ chosen.map (textAt w.edits), x.kind = w.kind := by
  have hsub := map_sublist_lines w hascending hle hcontent
  constructor
  · have hall : ∀ i ∈ chosen.map (inputsAfter w.edits), succeeds indent i = true := by
      simpa using hsucceeds
    have hmap := (hsub.filter (succeeds indent)).map fun i => i.query.content
    -- The lines are told from the inputs by their queries.
    rw [List.filter_eq_self.mpr hall, List.filter_map, List.map_map, List.map_map] at hmap
    rw [List.map_map]
    simpa [Function.comp_def, Script.inputsOf, queryDocument, textAt] using hmap
  · intro x hx
    obtain ⟨k, hk, rfl⟩ := List.mem_map.mp hx
    obtain ⟨line, -, hline⟩ := List.mem_map.mp (hsub.subset (List.mem_map_of_mem hk))
    rw [textAt, ← hline]
    rfl

/-- What a watch has done that has returned: what it has printed, the events about what it has
recorded, and the place of the history afterwards, which was another one before. -/
structure Ends (indent : Nat) (limits : History.Limits) (before : History.Disk) (w : Script)
    (printed : List Printed) (events : List History.Event) (after : History.Disk) : Prop where
  /-- What was printed last is what comes of the last line, or of the empty query. -/
  printed : printed.getLast? = some (outcome indent w.last)
  /-- The entries that were recorded are, in order, lines that succeed. -/
  recorded : before.Openable → before.content.Distinct →
    (events.map fun e => e.insertion.inserted.content).Sublist
        (w.lines.filter fun line => succeeds indent (w.inputsOf line)) ∧
      ∀ e ∈ events, e.kind = w.kind
  /-- They stand at the end of the history, behind what is left of the entries of before. -/
  listed : before.Openable → before.content.Distinct → ∀ kind,
    (before.content.table kind).Grows (History.Event.entries kind events) (after.content.table kind)
  /-- The newest entry is the last line, if that succeeds, can be recorded, and a number is left. -/
  newest : before.Openable → before.content.Distinct → ∀ line, w.lines.getLast? = some line →
    succeeds indent (w.inputsOf line) = true → limits.Admits line →
    ¬ (after.content.table w.kind).queue.Exhausted limits →
    (after.content.table w.kind).contents.getLast? = some line
  /-- Where something is in the way of the history, nothing is recorded. -/
  obstructed : ∀ reason, before.found = .obstacle reason → events = [] ∧ after = before

/-- What holds at every moment says this of the last one. -/
theorem Sound.ends {limits : History.Limits} {w : Script}
    (hsound : s.Sound indent w.edits (.new limits) disk) (hreturned : s.stage = .returned) :
    Ends indent limits disk w s.printed s.relay.published s.relay.disk := by
  obtain ⟨⟨p, hp, -, hinputs, hprinted⟩, hwritten⟩ := hsound.of_returned hreturned
  rw [inputsAfter_edits] at hinputs
  have hof : ∀ q ∈ s.log, q.inputs = inputsAfter w.edits q.edits :=
    fun q hq => (hsound.follows.log q hq).1
  have hrecorder := hsound.records.follows.recorder_eq
  -- The history begins as a new handle on a place that can be opened.
  have hserves (hopen : disk.Openable) :
      (History.Recorder.new (.new limits) disk).Serves limits :=
    ⟨hopen, ⟨rfl, .inl rfl⟩, rfl⟩
  have hchooses (hopen : disk.Openable) (hd : disk.content.Distinct) :
      ∃ chosen, History.Recorder.Chooses limits (textAt w.edits) (turns indent s.log)
        (.new (.new limits) disk) ⟨s.relay.handle, s.relay.disk, s.relay.published.reverse⟩
        -- The recorder chooses among the texts of ascending moments.
        chosen s.relay.published := by
    have hascending : (turns indent s.log).Pairwise (· ≤ ·) :=
      List.pairwise_map.mpr (hsound.follows.ascending.filter _)
    obtain ⟨chosen, new, h⟩ := History.Recorder.recordEach_chooses (hserves hopen) hd hascending
      (hwritten.trans (filterMap_record? hof))
    rw [hrecorder] at h
    have hnew : s.relay.published = new := by
      simpa [History.Recorder.events, History.Recorder.new] using h.events_eq
    exact ⟨chosen, hnew ▸ h⟩
  refine ⟨hinputs ▸ hprinted, ?recorded, ?listed, ?newest, ?obstructed⟩
  case recorded =>
    intro hopen hd
    obtain ⟨chosen, h⟩ := hchooses hopen hd
    -- What was chosen has been evaluated with success.
    have hturn : ∀ k ∈ chosen, ∃ q ∈ s.log, succeeds indent q.inputs = true ∧ q.edits = k := by
      intro k hk
      obtain ⟨q, hq, hedits⟩ := List.mem_map.mp (h.sublist.subset hk)
      exact ⟨q, (List.mem_filter.mp hq).1, (List.mem_filter.mp hq).2, hedits⟩
    have hle : ∀ k ∈ chosen, k ≤ w.edits.length := by
      intro k hk
      obtain ⟨q, hq, -, rfl⟩ := hturn k hk
      exact (hsound.follows.log q hq).2.trans hsound.follows.edits_le
    have hsucceeds : ∀ k ∈ chosen, succeeds indent (inputsAfter w.edits k) = true := by
      intro k hk
      obtain ⟨q, hq, hsucceeds, rfl⟩ := hturn k hk
      rwa [← hof q hq]
    obtain ⟨hsub, hkind⟩ :=
      lines_of_chosen w h.ascending hle hsucceeds fun k hk => (h.admits k hk).1
    rw [← h.texts_eq] at hsub hkind
    refine ⟨by simpa [Function.comp_def, History.Event.text] using hsub, fun e he => ?_⟩
    exact hkind e.text (List.mem_map_of_mem he)
  case listed =>
    intro hopen hd
    obtain ⟨chosen, h⟩ := hchooses hopen hd
    exact h.grows
  case newest =>
    intro hopen hd line hline hsucceeds hadmits hfree
    -- The last apply was that of the last line, so its text is the last one that was handed over.
    have hrecord : Snapshot.record? indent p = some ⟨w.kind, line⟩ := by
      rw [Script.last, hline] at hinputs
      rw [Snapshot.record?, hinputs]
      rw [succeeds] at hsucceeds
      cases hanswer : ((w.inputsOf line).request indent).answer with
      | error e => rw [hanswer] at hsucceeds; cases hsucceeds
      | ok d => rfl
    have hlast : (s.relay.written.map Prod.snd).getLast? = some ⟨w.kind, line⟩ := by
      obtain ⟨ys, hlog⟩ := List.getLast?_eq_some_iff.mp hp
      rw [hwritten, hlog, List.filterMap_append]
      simp [hrecord]
    have hnewest := History.Recorder.newest_recordEach (hserves hopen) hd hlast hadmits
    rw [hrecorder] at hnewest
    exact hnewest hfree
  case obstructed =>
    intro reason hfound
    have hunusable : (History.Handle.new limits).Unusable disk reason :=
      .inr ⟨rfl, by simp [History.Handle.obstacle?, History.Handle.new, hfound]⟩
    exact (hsound.records.follows.toFaithful.unusable reason hunusable).2

/-- Whoever acts when, a watch that returns has printed last what comes of the last line, and has
recorded lines that succeed, in their order, the last one as the newest. -/
theorem ends_of_returned (indent : Nat) (limits : History.Limits) (disk : History.Disk) (w : Script)
    (acts : List Act) {s : Vigil} (hs : (start w.edits (.new limits) disk).actAll indent acts = s)
    (hreturned : s.stage = .returned) :
    Ends indent limits disk w s.printed s.relay.published s.relay.disk :=
  (hs ▸ sound_actAll indent w.edits (.new limits) disk acts).ends hreturned

/-- A quiet time is over while the first line is edited, and its apply takes the next line. Another
one is over at the end, and its apply begins before that of the main task, which is turned away. -/
theorem ends_of_returned_overtaken :
    let disk := History.Disk.holding ⟨⟨[⟨1, 900, "x"⟩], 1⟩, .empty⟩
    let w : Script := ⟨⟨"\x7b\"a\":1\x7d", .json⟩, .json, false, ["c", "b", "a"]⟩
    -- Among the acts the timer fires twice, and the second call of the timer comes before the main
    -- one.
    let acts : List Act :=
      [.main, .main, .main, .main, .main, .main, .fire, .call .auto, .main, .proceed, .main, .proceed,
        .proceed, .see, .main, .main, .fire, .proceed, .proceed, .main, .main, .call .auto, .call own,
        .main, .proceed, .part .auto, .proceed, .proceed, .see, .work 1000, .proceed, .work 1000,
        .proceed, .part .auto, .drop, .work 1000, .work 1000, .work 1000, .see, .main]
    let s := (start w.edits (.new ⟨100, 50000⟩) disk).actAll 0 acts
    s.stage = .returned ∧
      Ends 0 ⟨100, 50000⟩ disk w s.printed s.relay.published s.relay.disk ∧
      s.printed = [.output "null", .output "1"] ∧
      (s.relay.disk.content.table .queries).rows =
        [⟨1, 900, "x"⟩, ⟨2, 1000, "b"⟩, ⟨3, 1000, "a"⟩] := by
  intro disk w acts s
  have hreturned : s.stage = .returned := Stage.eq_returned (by decide +kernel)
  exact ⟨hreturned, ends_of_returned 0 ⟨100, 50000⟩ disk w acts rfl hreturned, by decide +kernel,
    by decide +kernel⟩

/-- The last line is not the newest entry where no number is left for it. -/
theorem not_newest_of_exhausted :
    ¬ ∀ (indent : Nat) (limits : History.Limits) (disk : History.Disk) (w : Script)
        (acts : List Act) (line : String),
      let s := (start w.edits (.new limits) disk).actAll indent acts
      s.stage = .returned → disk.Openable → disk.content.Distinct →
      w.lines.getLast? = some line → succeeds indent (w.inputsOf line) = true →
      limits.Admits line →
      (s.relay.disk.content.table w.kind).contents.getLast? = some line := by
  intro h
  let limits : History.Limits := ⟨100, 50000⟩
  let disk := History.Disk.holding ⟨⟨[⟨History.Table.maxId, 900, "x"⟩], History.Table.maxId⟩, .empty⟩
  let w : Script := ⟨⟨"\x7b\"a\":1\x7d", .json⟩, .json, false, ["a"]⟩
  let acts : List Act :=
    [.main, .main, .main, .main, .main, .main, .main, .main, .call own, .proceed, .proceed, .proceed,
      .proceed, .proceed, .part own, .main, .drop, .work 1000, .work 1000, .work 1000, .see, .main]
  -- The entries of both histories are told apart by their identifiers.
  have hd : disk.content.Distinct := by
    intro kind
    cases kind <;> decide
  -- The greatest number is in use, so the text is applied but not put in.
  have hsame : ((start w.edits (.new limits) disk).actAll 0 acts).relay.disk.content.table w.kind =
      disk.content.table .queries := by decide +kernel
  have hreturned : ((start w.edits (.new limits) disk).actAll 0 acts).stage = .returned :=
    Stage.eq_returned (by decide +kernel)
  have hnewest := h 0 limits disk w acts "a" hreturned Nat.zero_lt_one hd rfl (by decide +kernel)
    (by decide)
  rw [hsame, History.Table.contents, List.getLast?_map,
    ← History.Table.newest?_eq_getLast? (hd .queries)] at hnewest
  exact absurd hnewest (by decide)

end Vigil

end QueryPlayground.CommandLine
