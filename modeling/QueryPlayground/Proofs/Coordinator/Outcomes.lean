import QueryPlayground.Proofs.Coordinator.Journal

/-!
# What is shown and recorded

What the view shows and what the history gets follow from the applies that have ended, in their order:
the output of the last one that has an output, the message of the last one if that failed, and the
query of each one that has an output, as it was when the apply started. Whether anything listens to
what is handed to the history makes no difference to anything else.

Main statement: `Machine.view_and_records_of_settled`.
-/

namespace QueryPlayground.Coordinator

/-- What happens apart from what is handed to the history. -/
def unrecorded (hs : List Happening) : List Happening :=
  hs.filter fun
    | .recorded _ _ => false
    | _ => true

/-- A journal without what is handed to the history. -/
def unrecordedJournal (journal : List (Machine.Step × List Happening)) :
    List (Machine.Step × List Happening) :=
  journal.map fun entry => (entry.1, unrecorded entry.2)

theorem unrecorded_append (hs more : List Happening) :
    unrecorded (hs ++ more) = unrecorded hs ++ unrecorded more :=
  List.filter_append _ _

namespace Machine

/-! ## §1 Machines with another sink -/

/-- The machine, where queries are handed to a history or not. -/
def withRecords (m : Machine) (records : Bool) : Machine :=
  { m with records := records }

/-- The same has happened in two machines, one of which hands queries to a history or not. -/
def SameBut (records : Bool) (x y : Machine × List Happening) : Prop :=
  y.1 = x.1.withRecords records ∧ unrecorded y.2 = unrecorded x.2

theorem SameBut.append {records : Bool} {hs hs' : List Happening}
    {x y : Machine × List Happening} (hhs : unrecorded hs' = unrecorded hs)
    (h : SameBut records x y) : SameBut records (x.1, hs ++ x.2) (y.1, hs' ++ y.2) := by
  refine ⟨h.1, ?_⟩
  rw [unrecorded_append, unrecorded_append, hhs, h.2]

theorem conclude_sameBut (m : Machine) (records : Bool) (origin : Origin) (inputs : Inputs)
    (result : Except Error Document) :
    SameBut records (m.conclude origin inputs result)
      ((m.withRecords records).conclude origin inputs result) := by
  cases result with
  | error e => exact ⟨rfl, rfl⟩
  | ok d =>
    -- Whatever is handed over stands before the report and is left out.
    refine ⟨rfl, ?_⟩
    simp only [conclude, withRecords, unrecorded_append]
    congr 1
    cases records <;> cases m.records <;> rfl

theorem land_sameBut (m : Machine) (records : Bool) (i : Nat) :
    SameBut records (m.land i) ((m.withRecords records).land i) := by
  cases hi : m.flights[i]? with
  | none =>
    simp only [land, withRecords, hi]
    exact ⟨rfl, rfl⟩
  | some f =>
    simp only [land, withRecords, hi]
    exact conclude_sameBut { m with flights := m.flights.eraseIdx i } records _ _ _

theorem expire_sameBut (m : Machine) (records : Bool) (i time : Nat) :
    SameBut records (m.expire i time) ((m.withRecords records).expire i time) := by
  cases hi : m.flights[i]? with
  | none =>
    simp only [expire, withRecords, hi]
    exact ⟨rfl, rfl⟩
  | some f =>
    simp only [expire, withRecords, hi]
    -- A stubborn evaluator is waited for, any other one lets go at once.
    split
    next => exact ⟨rfl, rfl⟩
    next => exact land_sameBut _ records i

theorem start_sameBut (m : Machine) (records : Bool) (evaluator : Evaluator) (origin : Origin) :
    SameBut records (m.start evaluator origin)
      ((m.withRecords records).start evaluator origin) := by
  by_cases hbusy : m.busy = true
  case pos =>
    rw [start, start, if_pos hbusy, if_pos (show (m.withRecords records).busy = true from hbusy)]
    exact ⟨rfl, rfl⟩
  case neg =>
    rw [start, start, if_neg hbusy, if_neg (show ¬ (m.withRecords records).busy = true from hbusy)]
    simp only [withRecords]
    split
    · exact .append rfl (conclude_sameBut _ records _ _ _)
    · exact .append rfl (conclude_sameBut _ records _ _ _)
    · exact ⟨rfl, rfl⟩
    · exact ⟨rfl, rfl⟩

theorem happen_sameBut (m : Machine) (records : Bool) (evaluator : Evaluator) (due : Due) :
    SameBut records (m.happen evaluator due) ((m.withRecords records).happen evaluator due) := by
  cases due with
  | landing i => exact land_sameBut m records i
  | expiry i => exact expire_sameBut m records i _
  | quiet => exact start_sameBut { m with debouncer := m.debouncer.cancel } records evaluator .auto

theorem runUntil_sameBut (m : Machine) (records : Bool) (evaluator : Evaluator)
    (time fuel : Nat) :
    SameBut records (m.runUntil evaluator time fuel)
      ((m.withRecords records).runUntil evaluator time fuel) := by
  induction fuel generalizing m with
  | zero => exact ⟨rfl, rfl⟩
  | succ fuel ih =>
    have hsame : (m.withRecords records).next? = m.next? := rfl
    cases hnext : m.next? with
    | none =>
      simp only [runUntil, hsame, hnext]
      exact ⟨rfl, rfl⟩
    | some p =>
      simp only [runUntil, hsame, hnext]
      split
      next => exact ⟨rfl, rfl⟩
      next =>
        obtain ⟨hmachine, hhs⟩ :=
          happen_sameBut { m with now := max m.now p.1 } records evaluator p.2
        refine .append hhs ?_
        -- The two machines go on as one, since what is next does not depend on the sink.
        have hrest := ih ({ m with now := max m.now p.1 }.happen evaluator p.2).1
        rw [← hmachine] at hrest
        exact hrest

/-- Whether a coordinator records changes nothing else of what it does in a step. -/
theorem perform_sameBut (m : Machine) (records : Bool) (evaluator : Evaluator) (s : Step) :
    SameBut records (m.perform evaluator s) ((m.withRecords records).perform evaluator s) := by
  -- Entering something begins a quiet time or none, which does not depend on the recording.
  have hedit (f : Inputs → Inputs) :
      (m.withRecords records).edit f = (m.edit f).withRecords records := by
    cases hauto : m.settings.autoApply <;> simp [edit, withRecords, hauto]
  cases s with
  | setInput d => exact ⟨hedit fun i => { i with input := d }, rfl⟩
  | setQuery d => exact ⟨hedit fun i => { i with query := d }, rfl⟩
  | setOutput kind => exact ⟨hedit fun i => { i with outputType := kind }, rfl⟩
  | apply => exact start_sameBut { m with requests := m.requests + 1 } records evaluator _
  | advance time => exact ⟨rfl, rfl⟩
  | release =>
    simp only [perform, release, withRecords]
    split
    next => exact land_sameBut m records _
    next => exact ⟨rfl, rfl⟩
  | cancelPending => exact ⟨rfl, rfl⟩
  | abort number =>
    refine ⟨?_, rfl⟩
    simp only [perform, abort, withRecords]
    split <;> rfl
  | look => exact ⟨rfl, rfl⟩

theorem step_sameBut (m : Machine) (records : Bool) (evaluator : Evaluator) (s : Step) :
    SameBut records (m.step evaluator s) ((m.withRecords records).step evaluator s) := by
  obtain ⟨hmachine, hhs⟩ := perform_sameBut m records evaluator s
  -- Both move to the same time, and the fuel is the same, since the backlogs are.
  have htime : (m.withRecords records).timeAfter s = m.timeAfter s := by cases s <;> rfl
  obtain ⟨hmachine', hhs'⟩ := runUntil_sameBut (m.perform evaluator s).1 records evaluator
    (m.timeAfter s) (m.perform evaluator s).1.backlog
  have hmove : SameBut records ((m.perform evaluator s).1.moveTo evaluator (m.timeAfter s))
      (((m.perform evaluator s).1.withRecords records).moveTo evaluator (m.timeAfter s)) :=
    ⟨congrArg (fun n : Machine => { n with now := m.timeAfter s }) hmachine', hhs'⟩
  rw [← hmachine, ← htime] at hmove
  exact .append hhs hmove

/-- A run goes the same way whether queries are handed to a history or not. -/
theorem stepAll_withRecords (m : Machine) (records : Bool) (run : List (Evaluator × Step)) :
    ((m.withRecords records).stepAll run).1 = (m.stepAll run).1.withRecords records ∧
      unrecordedJournal ((m.withRecords records).stepAll run).2 =
        unrecordedJournal (m.stepAll run).2 := by
  induction run generalizing m with
  | nil => exact ⟨rfl, rfl⟩
  | cons x rest ih =>
    obtain ⟨hmachine, hhs⟩ := step_sameBut m records x.1 x.2
    obtain ⟨hrest, hjournal⟩ := ih (m.step x.1 x.2).1
    rw [← hmachine] at hrest hjournal
    refine ⟨hrest, ?_⟩
    simp only [stepAll, unrecordedJournal, List.map_cons] at hjournal ⊢
    rw [hhs, hjournal]

theorem stepAll_records (m : Machine) (run : List (Evaluator × Step)) :
    (m.stepAll run).1.records = m.records := by
  have hsame : (m.stepAll run).1 = (m.stepAll run).1.withRecords m.records :=
    (stepAll_withRecords m m.records run).1
  rw [hsame]
  rfl

/-! ## §2 Runs -/

/-- After every run, with whatever settings and evaluators, the view shows the output of the last apply
that has one, and the message of the last apply that has ended if that one failed; handed to the
history are the queries of the applies that have an output, in order, each as it was when its apply
started, a template for the history of templates and any other query for that of queries. From then on
nothing but that changes when nobody listens any more. -/
theorem view_and_records_of_settled (settings : Settings) (records : Bool)
    (run : List (Evaluator × Step)) :
    let m := ((new settings records).stepAll run).1
    let journal := ((new settings records).stepAll run).2
    (∃ r, journal.foldlM Reading.read? (.start settings.indent) = some r ∧
      m.view.output = (r.settled.filterMap Settled.document?).getLast? ∧
      m.view.error = r.settled.getLast?.bind Settled.message? ∧
      r.recorded = if records then r.settled.filterMap Settled.record? else []) ∧
    ∀ later, ((m.withRecords false).stepAll later).1 = (m.stepAll later).1.withRecords false ∧
      unrecordedJournal ((m.withRecords false).stepAll later).2 =
        unrecordedJournal (m.stepAll later).2 := by
  intro m journal
  obtain ⟨r, hread, htracks⟩ := stepAll_tracks (tracks_new settings records) run
  -- The sink is there from the beginning to the end of the run, or not at all.
  have hrecorded := htracks.recorded_eq
  rw [stepAll_records] at hrecorded
  exact ⟨⟨r, hread, htracks.output_eq, htracks.error_eq, hrecorded⟩,
    stepAll_withRecords m false⟩

end Machine

end QueryPlayground.Coordinator
