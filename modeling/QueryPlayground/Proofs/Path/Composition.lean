import QueryPlayground.Evaluation

/-!
# Selection goes segment by segment

A path reaches a part of a document by one step after the other. Selecting along a path that goes on
is selecting along its front and then along the rest from what was found there: an error ends the
whole walk, and so does the end of the document, where everything further is `null`. So a walk fails
for one reason only, a value on the way that is there, is not `null`, and has no parts of the kind
that the next segment names.

Main statement: `selection_composes`.
-/

namespace QueryPlayground

open QueryPlayground.Json

namespace Path

/-! ## §1 Ways through a document -/

/-- A segment names a part of a value. A position is counted from the front or from the end. -/
inductive Leads : Value → Segment → Value → Prop where
  | key {members : List (String × Value)} {name : String} {w : Value} :
      Members.get? name members = some w → Leads (.obj members) (.field name) w
  | item {items : List Value} {i : Nat} {w : Value} :
      items[i]? = some w → Leads (.arr items) (.index i) w
  | itemFromEnd {items : List Value} {i : Nat} {w : Value} :
      items[i]? = some w → Leads (.arr items) (.index (i - items.length)) w

/-- A path leads from a value to a part of it, however deep. -/
inductive Reaches : Value → List Segment → Value → Prop where
  | here (v : Value) : Reaches v [] v
  | onward {v w u : Value} {s : Segment} {path : List Segment} :
      Leads v s w → Reaches w path u → Reaches v (s :: path) u

/-- A value is of the type whose parts a segment names. -/
inductive Fits : Value → Segment → Prop where
  | key {members : List (String × Value)} {name : String} : Fits (.obj members) (.field name)
  | position {items : List Value} {i : Int} : Fits (.arr items) (.index i)

/-- What is wrong with a segment that does not fit a value. -/
def misfitOf (v : Value) : Segment → Misfit
  | .field name => .field v.typeName name
  | .index _ => .index v.typeName

/-- A prefix of the path reaches a value that is not `null` and that the next segment does not fit. -/
def Fails (v : Value) (path : List Segment) (m : Misfit) : Prop :=
  ∃ front s rest w, path = front ++ s :: rest ∧ Reaches v front w ∧ w ≠ .null ∧ ¬ Fits w s ∧
    m = misfitOf w s

/-! ## §2 One step -/

variable {v w u : Value} {s : Segment} {path rest : List Segment} {m : Misfit}

theorem itemAt?_eq_some_iff {items : List Value} {position : Int} :
    itemAt? items position = some w ↔ Leads (.arr items) (.index position) w := by
  constructor
  · intro h
    unfold itemAt? at h
    dsimp only at h
    split at h
    next hend =>
      split at h
      next => cases h
      next =>
        -- Counted from the end, the item has the position that the length takes it to.
        have hposition : position = ((items.length + position).toNat : Int) - items.length := by
          omega
        rw [hposition]
        exact .itemFromEnd h
    next hfront =>
      have hposition : position = (position.toNat : Int) := by omega
      rw [hposition]
      exact .item h
  · intro h
    cases h with
    | item hitem =>
      rename_i i
      have hfront : ¬ (i : Int) < 0 := by omega
      simp [itemAt?, hfront, hitem]
    | itemFromEnd hitem =>
      rename_i i
      obtain ⟨hlt, -⟩ := List.getElem?_eq_some_iff.mp hitem
      have hend : (i : Int) - items.length < 0 := by omega
      have hsum : (items.length : Int) + (i - items.length) = i := by omega
      have hfront : ¬ (i : Int) < 0 := by omega
      simp [itemAt?, hend, hsum, hfront, hitem]

/-- A step finds a part, or nothing where the segment fits, or fails where it does not. -/
theorem step_cases (v : Value) (s : Segment) :
    (∃ w, step v s = .ok (some w) ∧ Leads v s w) ∨
      (step v s = .ok none ∧ Fits v s ∧ ∀ w, ¬ Leads v s w) ∨
      (step v s = .error (misfitOf v s) ∧ ¬ Fits v s) := by
  cases v with
  | obj members =>
    cases s with
    | field name =>
      cases hget : Members.get? name members with
      | some w => exact .inl ⟨w, by rw [step, hget], .key hget⟩
      | none =>
        refine .inr (.inl ⟨by rw [step, hget], .key, ?_⟩)
        rintro w ⟨hsome⟩
        rw [hget] at hsome
        cases hsome
    | index position => exact .inr (.inr ⟨rfl, nofun⟩)
  | arr items =>
    cases s with
    | field name => exact .inr (.inr ⟨rfl, nofun⟩)
    | index position =>
      cases hitem : itemAt? items position with
      | some w => exact .inl ⟨w, by rw [step, hitem], itemAt?_eq_some_iff.mp hitem⟩
      | none =>
        refine .inr (.inl ⟨by rw [step, hitem], .position, fun w hleads => ?_⟩)
        rw [itemAt?_eq_some_iff.mpr hleads] at hitem
        cases hitem
  | null | bool _ | int _ | real _ | str _ =>
    cases s <;> exact .inr (.inr ⟨rfl, nofun⟩)

theorem Leads.step_eq (h : Leads v s w) : step v s = .ok (some w) := by
  cases h with
  | key hget => rw [step, hget]
  | item hitem => rw [step, itemAt?_eq_some_iff.mpr (.item hitem)]
  | itemFromEnd hitem => rw [step, itemAt?_eq_some_iff.mpr (.itemFromEnd hitem)]

theorem Leads.ne_null (h : Leads v s w) : v ≠ .null := by
  rintro rfl
  cases h

theorem Leads.fits (h : Leads v s w) : Fits v s := by
  cases h with
  | key => exact .key
  | item | itemFromEnd => exact .position

/-! ## §3 Walks -/

/-- The walk goes on from what the first step finds. -/
theorem select_cons (hv : v ≠ .null) (s : Segment) (rest : List Segment) :
    select v (s :: rest) =
      (step v s).bind fun found => found.elim (.ok none) fun w => select w rest := by
  conv => lhs; unfold select
  split
  next => exact absurd rfl hv
  next => rcases step v s with _ | _ | _ <;> rfl

theorem Leads.select_cons (h : Leads v s w) (rest : List Segment) :
    select v (s :: rest) = select w rest := by
  rw [Path.select_cons h.ne_null, h.step_eq]
  rfl

/-- A walk along a longer path goes on from what the front of the path finds, if it finds anything. -/
theorem select_append (v : Value) (front rest : List Segment) :
    select v (front ++ rest) =
      (select v front).bind fun found => found.elim (.ok none) fun w => select w rest := by
  induction front generalizing v with
  | nil => rfl
  | cons s front ih =>
    rw [List.cons_append]
    by_cases hv : v = .null
    · subst hv
      rfl
    · rw [select_cons hv, select_cons hv]
      -- The first step ends the walk, or both walks go on from the same value.
      rcases step v s with _ | _ | w
      · rfl
      · rfl
      · exact ih w

/-- A walk ends at a value exactly if the path leads there. -/
theorem select_eq_some_iff : select v path = .ok (some w) ↔ Reaches v path w := by
  constructor
  -- By induction on the path. A walk from null finds nothing, so it ends at no value.
  · intro h
    induction path generalizing v with
    | nil =>
      obtain rfl : v = w := Option.some.inj (Except.ok.inj h)
      exact .here v
    | cons s path ih =>
      by_cases hv : v = .null
      · subst hv
        cases h
      · rw [select_cons hv] at h
        rcases step_cases v s with ⟨u, hstep, hleads⟩ | ⟨hstep, -⟩ | ⟨hstep, -⟩ <;> rw [hstep] at h
        · exact .onward hleads (ih h)
        · cases h
        · cases h
  · intro h
    induction h with
    | here v => rfl
    | onward hleads _ ih => rw [hleads.select_cons, ih]

/-- A walk fails exactly if it comes to a value that the next segment does not fit. -/
theorem select_eq_error_iff : select v path = .error m ↔ Fails v path m := by
  constructor
  -- By induction on the path: the failing segment is the first one, or the walk fails behind it.
  · intro h
    induction path generalizing v with
    | nil => cases h
    | cons s path ih =>
      by_cases hv : v = .null
      · subst hv
        cases h
      · rw [select_cons hv] at h
        rcases step_cases v s with ⟨u, hstep, hleads⟩ | ⟨hstep, -⟩ | ⟨hstep, hfits⟩ <;>
          rw [hstep] at h
        · obtain ⟨front, s', rest, w, rfl, hreaches, hw⟩ := ih h
          exact ⟨s :: front, s', rest, w, rfl, .onward hleads hreaches, hw⟩
        · cases h
        · obtain rfl : misfitOf v s = m := Except.error.inj h
          exact ⟨[], s, path, v, rfl, .here v, hv, hfits, rfl⟩
  · rintro ⟨front, s, rest, w, rfl, hreaches, hw, hfits, rfl⟩
    have hstep : step w s = .error (misfitOf w s) := by
      rcases step_cases w s with ⟨u, -, hleads⟩ | ⟨-, hfits', -⟩ | ⟨hstep, -⟩
      · exact absurd hleads.fits hfits
      · exact absurd hfits' hfits
      · exact hstep
    rw [select_append, select_eq_some_iff.mpr hreaches]
    show select w (s :: rest) = _
    rw [select_cons hw, hstep]
    rfl

end Path

/-! ## §4 Selected values -/

open QueryPlayground.Path

variable {v w : Value} {front rest path : List Segment}

theorem selectValue_null (path : List Segment) : selectValue .null path = .ok .null := by
  cases path <;> rfl

/-- Selecting a value along a longer path is selecting one along its front and going on from there. -/
theorem selectValue_append (v : Value) (front rest : List Segment) :
    selectValue v (front ++ rest) =
      (selectValue v front).bind fun w => selectValue w rest := by
  unfold selectValue
  rw [select_append]
  rcases select v front with _ | _ | w
  · rfl
  · -- Beyond the end of the document everything is `null`.
    exact (selectValue_null rest).symm
  · rfl

/-- Behind a member that is `null` no segment fits, and none is blamed. -/
example : selectValue (.obj [("a", .null)]) [.field "a", .index 0, .field "b"] = .ok .null := rfl

theorem selectValue_eq_error_iff {f : EvalFailure} :
    selectValue v path = .error f ↔ ∃ m, f = .misfit m ∧ Fails v path m := by
  simp only [← select_eq_error_iff]
  constructor
  · intro h
    unfold selectValue at h
    rcases hselect : select v path with m | _ | w <;> rw [hselect] at h <;> cases h
    exact ⟨m, rfl, rfl⟩
  · rintro ⟨m, rfl, hselect⟩
    rw [selectValue, hselect]
    rfl

/-- Where a path leads to no value and does not fail, it has run off the document. -/
theorem selectValue_of_runsOff (hnowhere : ∀ w, ¬ Reaches v path w) (hfits : ∀ m, ¬ Fails v path m) :
    selectValue v path = .ok .null := by
  unfold selectValue
  rcases hselect : select v path with m | _ | w
  · exact absurd (select_eq_error_iff.mp hselect) (hfits m)
  · rfl
  · exact absurd (select_eq_some_iff.mp hselect) (hnowhere w)

theorem selectValue_of_reaches (h : Reaches v path w) : selectValue v path = .ok w := by
  rw [selectValue, select_eq_some_iff.mpr h]
  rfl

/-- What it means that selecting along a path in two parts is selecting along it at once. -/
structure SelectionComposes (v : Value) (front rest : List Segment) : Prop where
  /-- The second part starts from what the first one has selected. -/
  eq_bind : selectValue v (front ++ rest) = (selectValue v front).bind fun w => selectValue w rest
  /-- Where the front leads to a value, the rest decides, also about the message. -/
  of_reaches : ∀ w, Reaches v front w → selectValue v (front ++ rest) = selectValue w rest
  /-- Where the front leads to `null`, or off the document, the rest does not matter. -/
  of_null : selectValue v front = .ok .null → selectValue v (front ++ rest) = .ok .null
  /-- It runs off the document if it leads nowhere and does not fail. -/
  runs_off : (∀ w, ¬ Reaches v front w) → (∀ m, ¬ Fails v front m) →
    selectValue v front = .ok .null
  /-- Where the front fails, the rest does not matter either. -/
  of_error : ∀ f, selectValue v front = .error f → selectValue v (front ++ rest) = .error f
  /-- Nothing fails but a segment that does not fit a value on the way. -/
  error_iff : ∀ f, selectValue v (front ++ rest) = .error f ↔
    ∃ m, f = .misfit m ∧ Fails v (front ++ rest) m
  /-- A query of both parts answers as the query of the rest does on any document with the value that
  the front selects, and fails as the query of the front does. -/
  evaluate_eq : ∀ (d : Document) (both first second : String), d.value = .ok v →
    parseQuery both = .ok (front ++ rest) → parseQuery first = .ok front →
    parseQuery second = .ok rest → ∀ kind indent,
      (∀ d' w, selectValue v front = .ok w → d'.value = .ok w →
        EvalRequest.evaluate ⟨both, d, kind, indent⟩ =
          EvalRequest.evaluate ⟨second, d', kind, indent⟩) ∧
      ∀ f, selectValue v front = .error f →
        EvalRequest.evaluate ⟨both, d, kind, indent⟩ = .error f ∧
          EvalRequest.evaluate ⟨first, d, kind, indent⟩ = .error f

theorem evaluate_of_value {d : Document} {query : String} (hvalue : d.value = .ok v)
    (hparse : parseQuery query = .ok path) (kind : DocumentKind) (indent : Nat) :
    EvalRequest.evaluate ⟨query, d, kind, indent⟩ =
      (selectValue v path).bind fun w => render w kind indent := by
  simp only [EvalRequest.evaluate, hparse, hvalue, bind, Except.bind]

/-- Selection composes at every place where a path can be split. -/
theorem selection_composes (v : Value) (front rest : List Segment) :
    SelectionComposes v front rest := by
  have hbind := selectValue_append v front rest
  refine ⟨hbind, fun w h => ?_, fun h => ?_, selectValue_of_runsOff, fun f h => ?_,
    fun f => selectValue_eq_error_iff, ?evaluate_eq⟩
  · rw [hbind, selectValue_of_reaches h]
    rfl
  · rw [hbind, h]
    exact selectValue_null rest
  · rw [hbind, h]
    rfl
  case evaluate_eq =>
    intro d both first second hvalue hboth hfirst hsecond kind indent
    have heval := evaluate_of_value hvalue hboth kind indent
    rw [hbind] at heval
    refine ⟨fun d' w hw hvalue' => ?_, fun f hf => ?_⟩
    · rw [heval, hw, evaluate_of_value hvalue' hsecond kind indent]
      rfl
    · rw [heval, evaluate_of_value hvalue hfirst kind indent, hf]
      exact ⟨rfl, rfl⟩

end QueryPlayground
