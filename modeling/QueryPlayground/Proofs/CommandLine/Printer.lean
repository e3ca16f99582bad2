import Mathlib.Data.List.Destutter
import QueryPlayground.Proofs.CommandLine.Watch

/-!
# What the printer of a watch writes

The coordinator publishes one view after the other: it changes the line about what is going on, it
shows an output, which takes an error away, or it shows an error, which hides the output. The printer
handles some of the views, in their order, and the last one for sure.

What a view shows is its error, or else its output, or else nothing. The printer remembers more than
that, but what it writes depends on nothing else: it writes what a view shows unless the view that it
handled before showed the same. Nothing that is shown is ever followed by nothing, so that whatever
views are left out, everything that is written is what the handled views show, without repetitions.

In a watch all outputs are of one kind, so that nothing even reads like what was written before it.

Main statements: `Machine.step_publishes`, `Printer.reflects_of_coalesces`, `Vigil.printed_actAll` and
`Watch.printed_isChain`.
-/

namespace QueryPlayground

open QueryPlayground.Coordinator

/-! ## §1 Views that follow one another -/

namespace Coordinator.View

/-- One change of the view. -/
inductive Changes (v : View) : View → Prop where
  | loading (text : Option String) : Changes v (v.showLoading text)
  | output (d : Document) : Changes v (v.showOutput d)
  | error (message : String) : Changes v (v.showError message)

/-- What there is to be seen. -/
inductive Shown where
  | output (d : Document)
  | error (message : String)
  deriving DecidableEq

/-- What a view shows: an error hides the output. -/
def shown? (v : View) : Option Shown :=
  match v.error with
  | some e => some (.error e)
  | none => v.output.map .output

variable {v w : View}

/-- Where something was shown, something is shown. -/
theorem Changes.shown?_isSome (h : v.Changes w) (hv : v.shown?.isSome) : w.shown?.isSome := by
  cases h with
  | loading => exact hv
  | output | error => rfl

/-- What is going on is no part of it. -/
theorem shown?_eq_of_showLoading (h : v.showLoading none = w.showLoading none) :
    v.shown? = w.shown? := by
  obtain ⟨output, error, loading⟩ := v
  obtain ⟨output', error', loading'⟩ := w
  simp only [showLoading, mk.injEq, and_true] at h
  simp only [shown?, h.1, h.2]

end Coordinator.View

/-! ## §2 Views that are published -/

namespace Coordinator.Machine

open Relation (ReflTransGen)

/-- From one state of the coordinator to another one, the view changes step by step. -/
def Publishes (m m' : Machine) : Prop :=
  ReflTransGen View.Changes m.view m'.view

theorem Publishes.trans {m m' m'' : Machine} (h : m.Publishes m') (h' : m'.Publishes m'') :
    m.Publishes m'' :=
  ReflTransGen.trans h h'

theorem conclude_publishes (m : Machine) (origin : Origin) (inputs : Inputs)
    (result : Except Error Document) : m.Publishes (m.conclude origin inputs result).1 := by
  cases result with
  | ok d => exact .tail (.single (.output d)) (.loading none)
  | error e => exact .tail (.single (.error e.message)) (.loading none)

/-- An evaluation that lands concludes its apply, or nothing is published. -/
theorem land_publishes (m : Machine) (i : Nat) : m.Publishes (m.land i).1 := by
  unfold land
  split
  next f _ => exact conclude_publishes { m with flights := m.flights.eraseIdx i } _ _ _
  next => exact .refl

theorem expire_publishes (m : Machine) (i time : Nat) : m.Publishes (m.expire i time).1 := by
  unfold expire
  split
  next f _ =>
    have hcancel : m.Publishes
        { m with
          flights := m.flights.set i { f with deadline := none, timedOut := some time }
          view := m.view.showLoading (some cancellingText) } :=
      .single (.loading _)
    dsimp only
    split
    -- Cancelling is one change of the view. One who heeds it lands at once, which is another.
    next => exact hcancel
    next => exact hcancel.trans (land_publishes _ i)
  next => exact .refl

theorem start_publishes (m : Machine) (evaluator : Evaluator) (origin : Origin) :
    m.Publishes (m.start evaluator origin).1 := by
  unfold start
  split
  -- Who is turned away sees no change; the others publish what they are doing first, and an answer
  -- that comes at once after that.
  next => exact .refl
  next =>
    have hload : m.Publishes
        { m with busy := true, view := m.view.showLoading (some m.inputs.loadingText) } :=
      .single (.loading _)
    dsimp only
    split
    next => exact hload.trans (conclude_publishes _ _ _ _)
    next => exact hload.trans (conclude_publishes _ _ _ _)
    next => exact hload
    next => exact hload

theorem happen_publishes (m : Machine) (evaluator : Evaluator) (d : Due) :
    m.Publishes (m.happen evaluator d).1 := by
  cases d with
  | landing i => exact land_publishes m i
  | expiry i => exact expire_publishes m i _
  | quiet => exact start_publishes { m with debouncer := m.debouncer.cancel } evaluator .auto

/-- The first of several things that are due changes the view, and the others do after it. -/
theorem runUntil_publishes (evaluator : Evaluator) (time fuel : Nat) (m : Machine) :
    m.Publishes (m.runUntil evaluator time fuel).1 := by
  induction fuel generalizing m with
  | zero => exact .refl
  | succ fuel ih =>
    unfold runUntil
    split
    next => exact .refl
    next t d _ =>
      split
      next => exact .refl
      next => exact (happen_publishes { m with now := max m.now t } evaluator d).trans (ih _)

theorem perform_publishes (m : Machine) (evaluator : Evaluator) (s : Step) :
    m.Publishes (m.perform evaluator s).1 := by
  -- What is entered is no part of the view, whether it starts a quiet time or not.
  have hedit (f : Inputs → Inputs) : m.Publishes (m.edit f) := by
    unfold edit
    dsimp only
    split <;> exact .refl
  cases s with
  | setInput | setQuery | setOutput => exact hedit _
  | apply => exact start_publishes { m with requests := m.requests + 1 } evaluator _
  | advance | cancelPending | look => exact .refl
  | release =>
    simp only [perform, release]
    split
    next i _ => exact land_publishes m i
    next => exact .refl
  | abort number =>
    simp only [perform, abort]
    split
    next => exact .single (.loading none)
    next => exact .refl

/-- Whatever is done to a coordinator and whatever the evaluator says, the view changes in no other
way. -/
theorem step_publishes (m : Machine) (evaluator : Evaluator) (s : Step) :
    m.Publishes (m.step evaluator s).1 :=
  (perform_publishes m evaluator s).trans (runUntil_publishes evaluator (m.timeAfter s) _ _)

end Coordinator.Machine

namespace CommandLine

open QueryPlayground.Coordinator.View (Shown Changes)

/-! ## §3 What is written for a view -/

/-- What is written about what is shown. -/
def printedOf : Shown → Printed
  | .output d => .output d.content
  | .error message => .error message

namespace Printer

/-- What the view showed that was handled last. -/
def shown? (p : Printer) : Option Shown :=
  (⟨p.output, p.error, none⟩ : View).shown?

/-- What the printer shows is what it would write about it. -/
theorem shown_eq (p : Printer) : p.shown = p.shown?.map printedOf := by
  obtain ⟨output, error⟩ := p
  cases error <;> cases output <;> rfl

theorem shown?_after (v : View) : (after v).shown? = v.shown? := rfl

theorem shown?_eq_none {p : Printer} : p.shown? = none ↔ p = .new := by
  obtain ⟨output, error⟩ := p
  cases error <;> cases output <;> simp [shown?, View.shown?, new]

/-- What is written for a view depends only on what the view shows and on what the one before
showed. -/
theorem news_eq (p : Printer) (v : View) :
    p.news v = if v.shown? = p.shown? then none else v.shown?.map printedOf := by
  -- The program compares errors first and outputs then. With a view taken apart each of the cases
  -- is one comparison of what is shown.
  obtain ⟨output, error⟩ := p
  obtain ⟨output', error', loading⟩ := v
  cases error' with
  | some e => cases error <;> cases output <;> simp [news, View.shown?, shown?, printedOf, eq_comm]
  | none =>
    cases error with
    | some e => cases output' <;> simp [news, View.shown?, shown?, printedOf]
    | none => cases output <;> cases output' <;> simp [news, View.shown?, shown?, printedOf]

/-- The printer handles one view and the others after it. -/
theorem seeAll_cons (p : Printer) (v : View) (vs : List View) :
    p.seeAll (v :: vs) =
      (((after v).seeAll vs).1, (p.news v).toList ++ ((after v).seeAll vs).2) :=
  rfl

/-- The printer keeps of several views what it keeps of the last one. -/
theorem seeAll_concat (p : Printer) (vs : List View) (v : View) :
    p.seeAll (vs ++ [v]) = (after v, (p.seeAll vs).2 ++ ((p.seeAll vs).1.see v).2.toList) := by
  induction vs generalizing p with
  | nil => simp [seeAll, see, after]
  | cons w vs ih => rw [List.cons_append, seeAll_cons, ih, seeAll_cons, List.append_assoc]

/-! ## §4 What is written for views -/

/-- What one view shows does not vanish in another one. -/
def Keeps (v w : View) : Prop :=
  v.shown?.isSome → w.shown?.isSome

/-- Over all the changes of a view nothing that is shown vanishes, as it does not over one. -/
theorem keeps_of_chain {v : View} {vs : List View} (h : (v :: vs).IsChain Changes) :
    (v :: vs).Pairwise Keeps := by
  have htrans : IsTrans View Keeps := ⟨fun _ _ _ h h' hv => h' (h hv)⟩
  exact (h.imp fun _ _ hchange => hchange.shown?_isSome).pairwise

/-- Nothing that is shown is written twice in a row, and nothing that is shown anew is skipped. -/
theorem seeAll_eq_destutter {p : Printer} {vs : List View} (hvs : vs.Pairwise Keeps)
    (hp : ∀ v ∈ vs, p.shown?.isSome → v.shown?.isSome) :
    p.shown?.toList.map printedOf ++ (p.seeAll vs).2 =
      ((p.shown?.toList ++ vs.filterMap View.shown?).destutter (· ≠ ·)).map printedOf := by
  induction vs generalizing p with
  | nil => cases p.shown? <;> simp [seeAll]
  | cons v vs ih =>
    obtain ⟨hkeeps, hvs⟩ := List.pairwise_cons.mp hvs
    -- The printer goes on as one that has handled no more than this view.
    have ih := ih (p := after v) hvs hkeeps
    rw [shown?_after] at ih
    rw [seeAll_cons, news_eq]
    cases hshown : v.shown? with
    | none =>
      -- Nothing was shown before either.
      have hnone : p.shown? = none := by
        have := hp v List.mem_cons_self
        simpa [hshown] using this
      rw [hshown] at ih
      simpa [hnone, hshown] using ih
    | some x =>
      rw [hshown] at ih
      rw [List.filterMap_cons_some hshown]
      cases hbefore : p.shown? with
      -- The first thing that is shown.
      | none => simpa using ih
      | some y =>
        by_cases heq : x = y
        · subst heq
          simpa [List.destutter_cons'] using ih
        · have hne : y ≠ x := Ne.symm heq
          simpa [heq, List.destutter_cons', List.destutter'_cons_pos _ hne] using ih

/-- What was written last is what the printer shows, after any views. -/
theorem getLast?_seeAll {p : Printer} {printed : List Printed} {vs : List View}
    (h : printed.getLast? = p.shown) (hvs : vs.Pairwise Keeps)
    (hp : ∀ v ∈ vs, p.shown?.isSome → v.shown?.isSome) :
    (printed ++ (p.seeAll vs).2).getLast? = (p.seeAll vs).1.shown := by
  induction vs generalizing p printed with
  | nil => simpa [seeAll] using h
  | cons v vs ih =>
    obtain ⟨hkeeps, hvs⟩ := List.pairwise_cons.mp hvs
    -- A view that shows nothing follows only views that showed nothing, so nothing stays behind.
    have hblank (hv : after v = new) : p = new := by
      have hnone : v.shown? = none := shown?_eq_none.mpr hv
      have := hp v List.mem_cons_self
      exact shown?_eq_none.mp (by simpa [hnone] using this)
    rw [seeAll_cons, ← List.append_assoc]
    exact ih (getLast?_see h hblank) hvs hkeeps

/-! ## §5 Views that are left out -/

/-- Some of the views that were published are handled, and the last one for sure. -/
structure Coalesces (published seen : List View) : Prop where
  sublist : seen.Sublist published
  last_eq : seen.getLast? = published.getLast?

/-- What the views show that are handled, without repetitions. -/
def things (seen : List View) : List Shown :=
  (seen.filterMap View.shown?).destutter (· ≠ ·)

/-- What a printer writes that handles some of the views that were published. -/
structure Reflects (published seen : List View) : Prop where
  /-- After every view that is handled, what was written last is what the view shows, and nothing was
  written before something is shown. -/
  last : ∀ front v rest, seen = front ++ v :: rest →
    (new.seeAll (front ++ [v])).2.getLast? = v.shown?.map printedOf
  /-- In the end, it is what the view shows that was published last. -/
  ends : (new.seeAll seen).2.getLast? = (published.getLast?.bind View.shown?).map printedOf
  /-- Everything that is written. -/
  written : (new.seeAll seen).2 = (things seen).map printedOf
  /-- No two things in a row are the same, where an output is another one if its kind is. -/
  apart : (things seen).IsChain (· ≠ ·)
  /-- As long as all outputs are of one kind, no two of them read the same either. -/
  texts_apart : ∀ kind, (∀ v ∈ published, ∀ d, v.output = some d → d.kind = kind) →
    (new.seeAll seen).2.IsChain (· ≠ ·)
  /-- Where no more than the line about what is going on differs, nothing is written. -/
  quiet : ∀ front v w rest, seen = front ++ v :: w :: rest →
    v.showLoading none = w.showLoading none →
      (new.seeAll (front ++ [v, w])).2 = (new.seeAll (front ++ [v])).2

/-- Documents of one kind that read the same are the same. -/
theorem printedOf_inj {kind : DocumentKind} {x y : Shown}
    (hx : ∀ d, x = .output d → d.kind = kind) (hy : ∀ d, y = .output d → d.kind = kind)
    (h : printedOf x = printedOf y) : x = y := by
  -- An error reads like no output, and outputs of one kind differ in their content only.
  cases x with
  | error => cases y <;> cases h; rfl
  | output d =>
    cases y with
    | error => cases h
    | output d' =>
      obtain ⟨content, kind₁⟩ := d
      obtain ⟨content', kind₂⟩ := d'
      obtain rfl : kind₁ = kind := hx _ rfl
      obtain rfl : kind₂ = kind₁ := hy _ rfl
      cases h
      rfl

/-- Texts repeat themselves no more than the things do that they are about. -/
theorem isChain_map_printedOf {kind : DocumentKind} {xs : List Shown}
    (hkind : ∀ x ∈ xs, ∀ d, x = .output d → d.kind = kind) :
    ((xs.destutter (· ≠ ·)).map printedOf).IsChain (· ≠ ·) := by
  have hmap : (xs.destutter (· ≠ ·)).map printedOf = (xs.map printedOf).destutter (· ≠ ·) :=
    -- Two things are the same if and only if their texts are, so texts and things are thinned
    -- alike.
    List.map_destutter fun x hx y hy =>
      not_congr ⟨congrArg printedOf, printedOf_inj (hkind x hx) (hkind y hy)⟩
  rw [hmap]
  exact List.isChain_destutter _ _

/-- The output of a view that shows one. -/
theorem output_of_shown? {v : View} {d : Document} (h : v.shown? = some (.output d)) :
    v.output = some d := by
  obtain ⟨output, error, loading⟩ := v
  cases error <;> simp_all [View.shown?]

/-- Whichever views are left out, what is written reflects what is shown. -/
theorem reflects_of_coalesces {published seen : List View}
    (hpublished : (View.empty :: published).IsChain Changes) (hseen : Coalesces published seen) :
    Reflects published seen := by
  -- What holds of all that is published holds of the part of it that is handled.
  have hkeeps : seen.Pairwise Keeps :=
    (List.pairwise_cons.mp (keeps_of_chain hpublished)).2.sublist hseen.sublist
  have hlast (front : List View) (v : View) (rest : List View) (h : seen = front ++ v :: rest) :
      (new.seeAll (front ++ [v])).2.getLast? = v.shown?.map printedOf := by
    -- What was handled up to a view is a part of what is handled.
    have hfront : (front ++ [v]).Pairwise Keeps := by
      refine hkeeps.sublist ?_
      rw [h]
      exact (List.singleton_sublist.mpr List.mem_cons_self).append_left front
    have hgetLast : ([] ++ (new.seeAll (front ++ [v])).2).getLast? = _ :=
      getLast?_seeAll rfl hfront nofun
    rw [List.nil_append, seeAll_concat, shown_eq] at hgetLast
    rw [seeAll_concat]
    exact hgetLast
  have hwritten : (new.seeAll seen).2 = (things seen).map printedOf :=
    seeAll_eq_destutter (p := new) hkeeps nofun
  refine ⟨hlast, ?ends, hwritten, List.isChain_destutter _ _, ?texts, ?quiet⟩
  case ends =>
    rw [← hseen.last_eq]
    rcases List.eq_nil_or_concat seen with rfl | ⟨front, v, hconcat⟩
    · rfl
    · rw [hconcat, List.concat_eq_append, List.getLast?_concat]
      exact hlast front v [] (by rw [hconcat, List.concat_eq_append])
  case texts =>
    intro kind hkind
    have hthings : ∀ x ∈ seen.filterMap View.shown?, ∀ d, x = .output d → d.kind = kind := by
      rintro x hx d rfl
      obtain ⟨v, hv, hshown⟩ := List.mem_filterMap.mp hx
      exact hkind v (hseen.sublist.subset hv) d (output_of_shown? hshown)
    rw [hwritten]
    exact isChain_map_printedOf hthings
  case quiet =>
    intro front v w rest _ hsame
    have happend : front ++ [v, w] = front ++ [v] ++ [w] := by simp
    -- Two views that differ in what is going on show the same, and only what is shown is written.
    have hshown : w.shown? = (after v).shown? := (View.shown?_eq_of_showLoading hsame).symm
    rw [happend, seeAll_concat new (front ++ [v]), seeAll_concat]
    simp [see, news_eq, hshown]

/-- The printer misses that the apply after the first failure has succeeded and that the next one has
failed again. It remembers an output that it has never written, and writes it once it is shown. -/
theorem reflects_of_coalesces_missed_output :
    let one : Document := ⟨"1", .json⟩
    let two : Document := ⟨"2", .json⟩
    let v₁ := View.empty.showLoading (some "Applying query to JSON input")
    let v₂ := v₁.showOutput one
    let v₃ := v₂.showError "e"
    let v₄ := v₃.showOutput two
    let v₅ := v₄.showError "e"
    let v₆ := v₅.showLoading none
    let v₇ := v₆.showOutput two
    let published := [v₁, v₂, v₃, v₄, v₅, v₆, v₇]
    let seen := [v₁, v₃, v₅, v₆, v₇]
    (View.empty :: published).IsChain Changes ∧ Coalesces published seen ∧
      Reflects published seen ∧ (new.seeAll seen).2 = [.error "e", .output "2"] := by
  intro one two v₁ v₂ v₃ v₄ v₅ v₆ v₇ published seen
  -- Each view comes of the one before by one change.
  have hpublished : (View.empty :: published).IsChain Changes :=
    .cons_cons (.loading _) <| .cons_cons (.output one) <| .cons_cons (.error "e") <|
      .cons_cons (.output two) <| .cons_cons (.error "e") <| .cons_cons (.loading none) <|
        .cons_cons (.output two) <| .singleton v₇
  have hseen : Coalesces published seen := ⟨by decide, rfl⟩
  exact ⟨hpublished, hseen, reflects_of_coalesces hpublished hseen, by decide⟩

end Printer

/-! ## §6 The printer of a watch -/

namespace Vigil

/-- What a watch has published before the printer looked last and since then, and what the printer has
handled. -/
structure Handles (kind : DocumentKind) (old recent seen : List View) (s : Vigil) : Prop where
  chain : (View.empty :: (old ++ recent)).IsChain Changes
  view_eq : (View.empty :: (old ++ recent)).getLast? = some s.view
  fresh_iff : s.fresh = true ↔ recent ≠ []
  coalesces : Printer.Coalesces old seen
  printer_eq : s.printer = (Printer.new.seeAll seen).1
  printed_eq : s.printed = (Printer.new.seeAll seen).2
  outputs : ∀ v ∈ old ++ recent, ∀ d, v.output = some d → d.kind = kind

variable {indent : Nat} {kind : DocumentKind} {old recent seen : List View} {s s' : Vigil}

/-- A view is published. -/
theorem Handles.publish (h : s.Handles kind old recent seen) (hchange : s.view.Changes s'.view)
    (houtput : ∀ d, s'.view.output = some d → s.view.output = some d ∨ d.kind = kind)
    (hfresh : s'.fresh = true) (hprinter : s'.printer = s.printer)
    (hprinted : s'.printed = s.printed) : s'.Handles kind old (recent ++ [s'.view]) seen := by
  have happend : View.empty :: (old ++ (recent ++ [s'.view])) =
      (View.empty :: (old ++ recent)) ++ [s'.view] := by simp
  refine ⟨?chain, ?view, ?fresh, h.coalesces, hprinter.trans h.printer_eq,
    hprinted.trans h.printed_eq, ?outputs⟩
  case chain =>
    rw [happend]
    refine List.isChain_append.mpr ⟨h.chain, .singleton _, fun v hv w hw => ?_⟩
    -- The view that was published last is the one that changes.
    rw [h.view_eq] at hv
    cases hv
    cases hw
    exact hchange
  case view => rw [happend, List.getLast?_concat]
  case fresh => simp [hfresh]
  case outputs =>
    intro v hv d hd
    rw [← List.append_assoc] at hv
    rcases List.mem_append.mp hv with hv | hv
    · exact h.outputs v hv d hd
    -- The view that is new has the output of the one before, which may be the empty one, or an
    -- answer.
    · rw [List.mem_singleton.mp hv] at hd
      rcases houtput d hd with hbefore | hkind
      · rcases List.mem_cons.mp (List.mem_of_getLast? h.view_eq) with hempty | hmem
        · rw [hempty] at hbefore
          cases hbefore
        · exact h.outputs _ hmem d hbefore
      · exact hkind

/-- The printer handles the view that was published last. -/
theorem Handles.see (h : s.Handles kind old recent seen) (hfresh : s.fresh = true) :
    Handles kind (old ++ recent) [] (seen ++ [s.view])
      { s with
        fresh := false, printer := .after s.view
        printed := s.printed ++ (s.printer.see s.view).2.toList } := by
  -- There is something to see, so the last view is one of those that came since the last look.
  have hlast : recent.getLast? = some s.view := by
    have hview := h.view_eq
    obtain ⟨front, v, rfl⟩ :=
      (List.eq_nil_or_concat' recent).resolve_left (h.fresh_iff.mp hfresh)
    rw [← List.append_assoc, ← List.cons_append, List.getLast?_concat] at hview
    rw [List.getLast?_concat, hview]
  refine ⟨by simpa using h.chain, by simpa using h.view_eq, by simp, ⟨?_, ?_⟩, ?_, ?_,
    -- The view that is handled stands last among those that are published.
    by simpa using h.outputs⟩
  · exact h.coalesces.sublist.append (List.singleton_sublist.mpr (List.mem_of_getLast? hlast))
  · rw [List.getLast?_concat, List.getLast?_append, hlast]
    rfl
  · rw [Printer.seeAll_concat]
  · rw [Printer.seeAll_concat, ← h.printer_eq, ← h.printed_eq]

/-- Every step of a watch publishes a view or lets the printer handle one, or is of no concern to it.
-/
theorem Handles.step (h : s.Handles kind old recent seen) (hstep : Step indent s s')
    (hkind : ∀ p d, s.held? = some p → (p.inputs.request indent).answer = .ok d → d.kind = kind) :
    ∃ old recent seen, s'.Handles kind old recent seen := by
  cases hstep with
  | load | part =>
    exact ⟨old, _, seen, h.publish (.loading _) (fun d hd => .inl hd) rfl rfl rfl⟩
  | fail =>
    exact ⟨old, _, seen, h.publish (.error _) (fun d hd => .inl hd) rfl rfl rfl⟩
  | succeed hflight hanswer =>
    have hd := hkind _ _ (by rw [held?, hflight]; rfl) hanswer
    refine ⟨old, _, seen, h.publish (.output _) (fun d' hd' => ?_) rfl rfl rfl⟩
    cases hd'
    exact .inr hd
  | see hfresh => exact ⟨_, _, _, h.see hfresh⟩
  | _ => exact ⟨old, recent, seen, { h with }⟩

/-! ## §7 Outputs of one kind -/

/-- Behind every answer there is a document that can be read, and a value to render. -/
theorem exists_render_of_answer {r : EvalRequest} {d : Document} (h : r.answer = .ok d) :
    ∃ input selected, r.data.value = .ok input ∧
      render selected r.outputType r.indent = .ok d := by
  simp only [EvalRequest.answer, EvalRequest.evaluate, bind, Except.bind] at h
  split at h
  next => cases h
  next =>
    split at h
    next => cases h
    next input hvalue =>
      split at h
      next => cases h
      next selected _ =>
        -- Only a request that is read and evaluated comes to be rendered.
        cases hrender : render selected r.outputType r.indent with
        | error f => rw [hrender] at h; cases h
        | ok d' =>
          rw [hrender] at h
          cases h
          exact ⟨input, selected, hvalue, hrender⟩

/-- An answer is of the kind that is asked for. -/
theorem kind_of_answer {r : EvalRequest} {d : Document} (h : r.answer = .ok d) :
    d.kind = r.outputType := by
  obtain ⟨-, selected, -, hrender⟩ := exists_render_of_answer h
  unfold render at hrender
  split at hrender <;> cases hrender <;> simp_all

/-- Before a document was entered there is no output. -/
theorem answer_default_ne_ok (indent : Nat) (d : Document) :
    (Inputs.default.request indent).answer ≠ .ok d := by
  intro h
  obtain ⟨input, -, hvalue, -⟩ := exists_render_of_answer h
  have hnone : (Inputs.default.request indent).data.value.isOk = false := by
    rw [show (Inputs.default.request indent).data = .empty .json from rfl]
    decide +kernel
  rw [hvalue] at hnone
  cases hnone

/-- The first edit of a watch chooses the kind of the output, and no other one does. -/
theorem outputType_inputsAfter (x : Script) {k : Nat} (hk : 0 < k) :
    (inputsAfter x.edits k).outputType = x.output := by
  obtain ⟨k, rfl⟩ := Nat.exists_eq_add_of_lt hk
  rw [inputsAfter, Script.edits, Nat.zero_add, List.take_succ_cons, List.foldl_cons]
  generalize hlater : ((fun (i : Inputs) => { i with input := x.input }) ::
    x.lines.map fun line i => { i with query := queryDocument x.template line }) = fs
  have hkeeps : ∀ f ∈ fs.take k, ∀ i, (f i).outputType = i.outputType := by
    intro f hf i
    have hmem := List.mem_of_mem_take hf
    rw [← hlater] at hmem
    rcases List.mem_cons.mp hmem with rfl | hmem
    · rfl
    · obtain ⟨line, -, rfl⟩ := List.mem_map.mp hmem
      rfl
  refine List.foldlRecOn (motive := fun i => i.outputType = x.output) (fs.take k)
    (fun i f => f i) ?_ fun i hi f hf => (hkeeps f hf i).trans hi
  rfl

/-- All outputs of a watch are of one kind. -/
theorem kind_of_held {x : Script} (h : s.Follows indent x.edits) {p : Snapshot} {d : Document}
    (hheld : s.held? = some p) (hanswer : (p.inputs.request indent).answer = .ok d) :
    d.kind = x.output := by
  have hof := (h.held p hheld).1
  rw [kind_of_answer hanswer, hof]
  -- Without an edit there is no answer, and the first edit chooses the kind.
  rcases Nat.eq_zero_or_pos p.edits with hzero | hpos
  · rw [hof, hzero] at hanswer
    exact (answer_default_ne_ok indent d hanswer).elim
  · exact outputType_inputsAfter x hpos

/-- Whoever acts when, the printer handles, at every moment of a watch, some of the views that were
published, and the last one up to its last look. -/
theorem handles_actAll (indent : Nat) (x : Script) (handle : History.Handle) (disk : History.Disk)
    (acts : List Act) : ∃ old recent seen,
      ((start x.edits handle disk).actAll indent acts).Handles x.output old recent seen := by
  induction acts using List.reverseRecOn with
  | nil =>
    exact ⟨[], [], [], .singleton _, rfl, by simp [actAll, start], ⟨.slnil, rfl⟩, rfl, rfl, nofun⟩
  | append_singleton acts a ih =>
    obtain ⟨old, recent, seen, h⟩ := ih
    have hfollows := (sound_actAll indent x.edits handle disk acts).follows
    rw [actAll_append]
    exact h.step (step_act indent _ a) fun p d => kind_of_held hfollows

/-- What is printed at a moment of a watch is what the printer makes of the views that it handles, and
nothing that is printed reads like what was printed right before it. -/
theorem printed_actAll (indent : Nat) (x : Script) (handle : History.Handle) (disk : History.Disk)
    (acts : List Act) :
    let s := (start x.edits handle disk).actAll indent acts
    (∃ published seen, Printer.Reflects published seen ∧
      s.printed = (Printer.new.seeAll seen).2 ∧
      (s.fresh = false → (View.empty :: published).getLast? = some s.view)) ∧
    s.printed.IsChain (· ≠ ·) := by
  intro s
  obtain ⟨old, recent, seen, h⟩ := handles_actAll indent x handle disk acts
  -- The views that the printer has not handled yet come after those that it has.
  have hchain : (View.empty :: old).IsChain Changes := by
    have hchain := h.chain
    rw [← List.cons_append] at hchain
    exact hchain.left_of_append
  have hreflects := Printer.reflects_of_coalesces hchain h.coalesces
  refine ⟨⟨old, seen, hreflects, h.printed_eq, fun hseen => ?_⟩, ?_⟩
  · have hrecent : recent = [] := by
      by_contra hne
      rw [h.fresh_iff.mpr hne] at hseen
      cases hseen
    simpa [hrecent] using h.view_eq
  -- All outputs of a watch are of the kind of its script.
  · rw [h.printed_eq]
    exact hreflects.texts_apart x.output fun v hv => h.outputs v (List.mem_append_left _ hv)

end Vigil

/-- A plain watch never prints the same twice in a row. -/
theorem Watch.printed_isChain {settings : Settings} (hauto : settings.autoApply = true)
    (limits : History.Limits) (disk : History.Disk) (now : Int) (x : Script)
    {events : List WatchEvent} (hlines : events.filterMap WatchEvent.line? = x.lines) :
    let session := Session.assemble builtinEvaluator settings true (.new limits) disk
    (Watch.run session now x.input x.output x.template events).printed.IsChain (· ≠ ·) := by
  intro session
  obtain ⟨acts, -, hprinted, -⟩ := run_is_vigil hauto limits disk now x hlines
  rw [← hprinted]
  exact (Vigil.printed_actAll settings.indent x (.new limits) disk acts).2

end CommandLine

end QueryPlayground
