import Mathlib.Data.List.DropRight
import QueryPlayground.Proofs.Json.Inversion

/-!
# What is passed over

Passing over a value keeps what is open on a list. A value leaves the frames that are open around it
as it found them, so what is passed over by itself is passed over alike inside arrays and objects, and
each step takes at least one character, so the number of characters is enough of them.

Main statement: `passed_of_skipValue`.
-/

namespace QueryPlayground.Json

/-! ## §1 What is left gets shorter -/

theorem length_dropWhile_le (p : Char → Bool) (cs : List Char) :
    (cs.dropWhile p).length ≤ cs.length :=
  (List.dropWhile_suffix p).length_le

theorem length_of_skipSpace {c : Char} {cs rest : List Char} (h : skipSpace cs = c :: rest) :
    rest.length < cs.length := by
  have hle := length_dropWhile_le isSpace cs
  rw [← skipSpace, h, List.length_cons] at hle
  omega

theorem length_of_word {ws cs rest : List Char} (h : word ws cs = .ok rest) :
    rest.length ≤ cs.length := by
  induction ws generalizing cs with
  | nil =>
    cases h
    exact Nat.le_refl _
  | cons w ws ih =>
    cases cs with
    | nil => simp [word] at h
    | cons c cs =>
      rw [word] at h
      split at h
      next => exact Nat.le_succ_of_le (ih h)
      next => simp at h

theorem length_of_hexUnit {cs rest : List Char} {n : Nat} (h : hexUnit cs = .ok (n, rest)) :
    rest.length + 4 = cs.length := by
  unfold hexUnit at h
  split at h
  next => simp at h
  next =>
    split at h
    next =>
      split at h
      next =>
        cases h
        rfl
      next => simp at h
    next => simp at h

theorem length_of_skipEscape {cs rest : List Char} (h : skipEscape cs = .ok rest) :
    rest.length < cs.length := by
  cases cs with
  | nil => simp [skipEscape] at h
  | cons c cs =>
    rw [skipEscape] at h
    split at h
    next =>
      cases h
      exact Nat.lt_succ_self _
    next =>
      split at h
      next =>
        obtain ⟨⟨n, after⟩, hunit, rfl⟩ := Schema.map_eq_ok h
        have hlength := length_of_hexUnit hunit
        simp only [List.length_cons]
        omega
      next => simp at h

/-- Each round passes over a character at least, and an escape over two. -/
theorem length_of_skipStringFrom {fuel : Nat} {cs rest : List Char}
    (h : skipStringFrom fuel cs = .ok rest) : rest.length < cs.length := by
  induction fuel generalizing cs with
  | zero => simp [skipStringFrom] at h
  | succ fuel ih =>
    cases cs with
    | nil => simp [skipStringFrom] at h
    | cons c cs =>
      rw [skipStringFrom] at h
      split at h
      next =>
        cases h
        exact Nat.lt_succ_self _
      next =>
        split at h
        next =>
          split at h
          next after hescape =>
            have hafter := length_of_skipEscape hescape
            have hrest := ih h
            simp only [List.length_cons]
            omega
          next => simp at h
        next =>
          split at h
          next => simp at h
          next => exact Nat.lt_succ_of_lt (ih h)

theorem length_of_skipExponent {cs rest : List Char} (h : skipExponent cs = .ok rest) :
    rest.length ≤ cs.length := by
  -- A sign in front of the digits is passed over too.
  have hdigits {ds : List Char} (hds : ds.length ≤ cs.length)
      (h : (if startsWithDigit ds then .ok (ds.dropWhile Char.isDigit)
        else .error (.peek .invalidNumber ds) : Except Failure (List Char)) = .ok rest) :
      rest.length ≤ cs.length := by
    split at h
    next =>
      cases h
      exact (length_dropWhile_le _ ds).trans hds
    next => simp at h
  unfold skipExponent at h
  split at h
  · exact hdigits (Nat.le_succ _) h
  · exact hdigits (Nat.le_succ _) h
  · exact hdigits (Nat.le_refl _) h

theorem length_of_skipExponentIfAny {cs rest : List Char} (h : skipExponentIfAny cs = .ok rest) :
    rest.length ≤ cs.length := by
  unfold skipExponentIfAny at h
  split at h
  next =>
    have hdrop := length_of_skipExponent h
    rw [List.length_drop] at hdrop
    omega
  next =>
    cases h
    exact Nat.le_refl _

theorem length_of_skipAfterDigits {cs rest : List Char} (h : skipAfterDigits cs = .ok rest) :
    rest.length ≤ cs.length := by
  unfold skipAfterDigits at h
  split at h
  next after =>
    split at h
    next =>
      have hdigits := length_dropWhile_le Char.isDigit after
      have hrest := length_of_skipExponentIfAny h
      simp only [List.length_cons]
      omega
    next => simp at h
  next => exact length_of_skipExponentIfAny h

theorem length_of_skipNumber {cs rest : List Char} (h : skipNumber cs = .ok rest) :
    rest.length < cs.length := by
  cases cs with
  | nil => simp [skipNumber] at h
  | cons c cs =>
    rw [skipNumber] at h
    split at h
    next =>
      split at h
      next => simp at h
      next => exact Nat.lt_succ_of_le (length_of_skipAfterDigits h)
    next =>
      split at h
      next hdigit =>
        rw [List.dropWhile_cons_of_pos hdigit] at h
        exact Nat.lt_succ_of_le ((length_of_skipAfterDigits h).trans (length_dropWhile_le _ _))
      next => simp at h

theorem length_of_skipScalar {cs rest : List Char} {opened : Option Frame}
    (h : skipScalar cs = .ok (opened, rest)) : rest.length < cs.length := by
  unfold skipScalar at h
  split at h
  case h_1 => simp at h
  case h_2 hspace | h_3 hspace | h_4 hspace =>
    obtain ⟨after, hafter, hpair⟩ := Schema.map_eq_ok h
    cases hpair
    exact (length_of_word hafter).trans_lt (length_of_skipSpace hspace)
  case h_5 hspace =>
    obtain ⟨after, hafter, hpair⟩ := Schema.map_eq_ok h
    cases hpair
    exact (length_of_skipNumber hafter).trans (length_of_skipSpace hspace)
  case h_6 hspace =>
    obtain ⟨after, hafter, hpair⟩ := Schema.map_eq_ok h
    cases hpair
    exact (length_of_skipStringFrom hafter).trans (length_of_skipSpace hspace)
  case h_7 hspace | h_8 hspace =>
    cases h
    exact length_of_skipSpace hspace
  case h_9 hspace =>
    split at h
    next hdigit =>
      obtain ⟨after, hafter, hpair⟩ := Schema.map_eq_ok h
      cases hpair
      refine (length_of_skipNumber hafter).trans_le ?_
      rw [← hspace]
      exact length_dropWhile_le isSpace cs
    next => simp at h

/-! ## §2 Open frames -/

/-- Passes over what follows a value or an opening bracket inside the open frames, and goes on with the
next value if one is due. -/
def goOn (afterValue : Bool) (fuel : Nat) (frames : List Frame) (cs : List Char) :
    Except Failure (List Char) :=
  match skipClosers afterValue frames (cs.length + 1) cs with
  | .error f => .error f
  | .ok (none, rest) => .ok rest
  | .ok (some [], rest) => .ok rest
  | .ok (some (.array :: outer), rest) => skipValueFrom fuel (.array :: outer) rest
  | .ok (some (.object :: outer), rest) =>
    match skipKey rest with
    | .error f => .error f
    | .ok rest => skipValueFrom fuel (.object :: outer) rest

theorem skipValueFrom_succ {cs rest : List Char} {opened : Option Frame}
    (h : skipScalar cs = .ok (opened, rest)) (fuel : Nat) (frames : List Frame) :
    skipValueFrom (fuel + 1) frames cs =
      goOn opened.isNone fuel (opened.toList ++ frames) rest := by
  rw [skipValueFrom, h]
  cases opened with
  | none =>
    simp only [goOn, Option.isNone_none, Option.toList_none, List.nil_append]
    rcases skipClosers true frames (rest.length + 1) rest with
      _ | ⟨_ | _ | ⟨_ | _, outer⟩, rest⟩ <;> rfl
  | some frame =>
    simp only [goOn, Option.isNone_some, Option.toList_some, List.singleton_append]
    rcases skipClosers false (frame :: frames) (rest.length + 1) rest with
      _ | ⟨_ | _ | ⟨_ | _, outer⟩, rest⟩ <;> rfl

theorem goOn_nil (fuel : Nat) (cs : List Char) : goOn true fuel [] cs = .ok cs := by
  simp [goOn, skipClosers]

theorem skipClosers_fuel {frames : List Frame} {afterValue : Bool} {fuel fuel' : Nat}
    {cs : List Char} (h : cs.length < fuel) (h' : cs.length < fuel') :
    skipClosers afterValue frames fuel cs = skipClosers afterValue frames fuel' cs := by
  induction frames generalizing afterValue fuel fuel' cs with
  | nil => simp [skipClosers]
  | cons frame outer ih =>
    obtain ⟨fuel, rfl⟩ : ∃ n, fuel = n + 1 := ⟨fuel - 1, by omega⟩
    obtain ⟨fuel', rfl⟩ : ∃ n, fuel' = n + 1 := ⟨fuel' - 1, by omega⟩
    rw [skipClosers, skipClosers]
    split
    next => rfl
    next c rest hspace =>
      -- Each closing bracket takes a character, so what is left of the fuel is enough.
      have hrest := length_of_skipSpace hspace
      rw [ih (by omega) (by omega : rest.length < fuel')]

theorem skipClosers_close {frame : Frame} {outer : List Frame} {cs rest : List Char}
    (h : skipSpace cs = frame.closer :: rest) (afterValue : Bool) :
    skipClosers afterValue (frame :: outer) (cs.length + 1) cs =
      skipClosers true outer (rest.length + 1) rest := by
  have hcomma : frame.closer ≠ ',' := by cases frame <;> decide
  have hrest := length_of_skipSpace h
  rw [skipClosers, h]
  simp only [hcomma, decide_false, Bool.and_false, Bool.false_eq_true, if_false, if_true]
  exact skipClosers_fuel hrest (Nat.lt_succ_self _)

theorem goOn_close {frame : Frame} {cs rest : List Char} (h : skipSpace cs = frame.closer :: rest)
    (afterValue : Bool) (fuel : Nat) (outer : List Frame) :
    goOn afterValue fuel (frame :: outer) cs = goOn true fuel outer rest := by
  rw [goOn, skipClosers_close h, goOn]

/-- A value in front of a text is passed over inside any open frames, in at most as many steps as it
has characters. -/
def Passed (cs rest : List Char) : Prop :=
  ∃ k, 0 < k ∧ k + rest.length ≤ cs.length ∧
    ∀ fuel frames, skipValueFrom (fuel + k) frames cs = goOn true fuel frames rest

/-- What is left of an array or an object, behind its opening bracket or behind a value in it, is
passed over up to its end. -/
def Closed (frame : Frame) (afterValue : Bool) (cs rest : List Char) : Prop :=
  ∃ k, k + rest.length < cs.length ∧
    ∀ fuel outer, goOn afterValue (fuel + k) (frame :: outer) cs = goOn true fuel outer rest

theorem Passed.length_lt {cs rest : List Char} (h : Passed cs rest) : rest.length < cs.length := by
  obtain ⟨k, hpos, hlength, -⟩ := h
  omega

theorem Passed.skipValue {cs rest : List Char} (h : Passed cs rest) : skipValue cs = .ok rest := by
  obtain ⟨k, -, hlength, hstep⟩ := h
  have hfuel : cs.length + 1 = cs.length + 1 - k + k := by omega
  rw [Json.skipValue, hfuel, hstep, goOn_nil]

theorem passed_of_skipScalar {cs rest : List Char} (h : skipScalar cs = .ok (none, rest)) :
    Passed cs rest := by
  have hlength := length_of_skipScalar h
  exact ⟨1, Nat.one_pos, by omega, fun fuel frames => skipValueFrom_succ h fuel frames⟩

theorem passed_of_opened {frame : Frame} {cs after rest : List Char}
    (h : skipScalar cs = .ok (some frame, after)) (hclosed : Closed frame false after rest) :
    Passed cs rest := by
  obtain ⟨k, hk, hstep⟩ := hclosed
  have hlength := length_of_skipScalar h
  refine ⟨k + 1, Nat.succ_pos k, by omega, fun fuel frames => ?_⟩
  rw [← Nat.add_assoc, skipValueFrom_succ h]
  exact hstep fuel frames

theorem closed_of_closer {frame : Frame} {cs rest : List Char}
    (h : skipSpace cs = frame.closer :: rest) (afterValue : Bool) :
    Closed frame afterValue cs rest :=
  ⟨0, by simpa using length_of_skipSpace h, fun fuel outer => goOn_close h afterValue fuel outer⟩

theorem skipClosers_comma {frame : Frame} {outer : List Frame} {cs rest : List Char}
    (h : skipSpace cs = ',' :: rest) :
    skipClosers true (frame :: outer) (cs.length + 1) cs = .ok (some (frame :: outer), rest) := by
  rw [skipClosers, h]
  rfl

theorem skipClosers_first {frame : Frame} {outer : List Frame} {c : Char} {cs rest : List Char}
    (h : skipSpace cs = c :: rest) (hc : c ≠ frame.closer) :
    skipClosers false (frame :: outer) (cs.length + 1) cs =
      .ok (some (frame :: outer), c :: rest) := by
  rw [skipClosers, h]
  simp [hc]

theorem Passed.of_skipSpace {cs rest : List Char} (h : Passed (skipSpace cs) rest) :
    Passed cs rest := by
  obtain ⟨k, hpos, hlength, hstep⟩ := h
  obtain ⟨k, rfl⟩ : ∃ n, k = n + 1 := ⟨k - 1, by omega⟩
  have hspace := length_dropWhile_le isSpace cs
  refine ⟨k + 1, hpos, hlength.trans hspace, fun fuel frames => ?_⟩
  have hscalar : skipScalar cs = skipScalar (skipSpace cs) := by
    rw [skipScalar, skipScalar, skipSpace, skipSpace, List.dropWhile_idempotent]
  rw [← hstep fuel frames, ← Nat.add_assoc, skipValueFrom, skipValueFrom, hscalar]

/-! ## §3 Frames inside frames -/

theorem length_of_skipKey {cs rest : List Char} (h : skipKey cs = .ok rest) :
    rest.length < cs.length := by
  unfold skipKey at h
  split at h
  next => simp at h
  next hspace =>
    obtain ⟨after, hstring, hcolon⟩ := bind_eq_ok h
    have hrest := length_of_skipSpace (colon_eq_ok hcolon)
    have hafter := length_of_skipStringFrom hstring
    have hkey := length_of_skipSpace hspace
    omega
  next => simp at h

/-- Frames that close inside others leave the others open. -/
theorem skipClosers_append_none {inner : List Frame} {afterValue : Bool} {fuel : Nat}
    {cs rest : List Char} (h : skipClosers afterValue inner fuel cs = .ok (none, rest))
    (hopen : afterValue = true ∨ inner ≠ []) (outer : List Frame) :
    rest.length ≤ cs.length ∧ skipClosers afterValue (inner ++ outer) (cs.length + 1) cs =
      skipClosers true outer (rest.length + 1) rest := by
  induction inner generalizing afterValue fuel cs with
  | nil =>
    obtain rfl : afterValue = true := by simpa using hopen
    rw [skipClosers] at h
    cases h
    exact ⟨Nat.le_refl _, rfl⟩
  | cons frame inner ih =>
    cases fuel with
    | zero => simp [skipClosers] at h
    | succ fuel =>
      rw [skipClosers] at h
      split at h
      next => simp at h
      next c after hspace =>
        split at h
        next => simp at h
        next =>
          split at h
          next hclose =>
            subst hclose
            obtain ⟨hlength, hclosed⟩ := ih h (.inl rfl)
            have hafter := length_of_skipSpace hspace
            rw [List.cons_append, skipClosers_close hspace]
            exact ⟨by omega, hclosed⟩
          next => split at h <;> simp at h

/-- Where another value is due, it is due in a frame that was open already. -/
theorem skipClosers_append_some {inner frames : List Frame} {afterValue : Bool} {fuel : Nat}
    {cs rest : List Char} (h : skipClosers afterValue inner fuel cs = .ok (some frames, rest))
    (outer : List Frame) :
    frames ≠ [] ∧ rest.length ≤ cs.length ∧
      skipClosers afterValue (inner ++ outer) (cs.length + 1) cs =
        .ok (some (frames ++ outer), rest) := by
  induction inner generalizing afterValue fuel cs with
  | nil => simp [skipClosers] at h
  | cons frame inner ih =>
    cases fuel with
    | zero => simp [skipClosers] at h
    | succ fuel =>
      rw [skipClosers] at h
      split at h
      next => simp at h
      next c after hspace =>
        have hafter := length_of_skipSpace hspace
        split at h
        next hcomma =>
          cases h
          refine ⟨List.cons_ne_nil _ _, hafter.le, ?_⟩
          rw [List.cons_append, skipClosers, hspace]
          simp [hcomma]
        next hcomma =>
          split at h
          next hclose =>
            subst hclose
            obtain ⟨hne, hlength, hclosed⟩ := ih h
            rw [List.cons_append, skipClosers_close hspace]
            exact ⟨hne, by omega, hclosed⟩
          next hclose =>
            split at h
            next => simp at h
            next hvalue =>
              cases h
              refine ⟨List.cons_ne_nil _ _, hafter, ?_⟩
              rw [List.cons_append, skipClosers, hspace]
              simp [hclose, hvalue]

/-- What is passed over inside some frames is passed over alike inside more of them. -/
theorem exists_steps_of_skipValueFrom {n : Nat} {inner : List Frame} {cs rest : List Char}
    (h : skipValueFrom n inner cs = .ok rest) :
    ∃ k, 0 < k ∧ k + rest.length ≤ cs.length ∧
      ∀ fuel outer, skipValueFrom (fuel + k) (inner ++ outer) cs = goOn true fuel outer rest := by
  induction n generalizing inner cs with
  | zero => simp [skipValueFrom] at h
  | succ n ih =>
    obtain ⟨opened, after, hscalar⟩ : ∃ opened after, skipScalar cs = .ok (opened, after) := by
      rw [skipValueFrom] at h
      split at h
      next => simp at h
      next opened after hscalar => exact ⟨opened, after, hscalar⟩
    have hafter := length_of_skipScalar hscalar
    rw [skipValueFrom_succ hscalar] at h
    -- One step passes over the scalar or opens a frame; what goes on from there is left.
    suffices hgo : ∃ k, k + rest.length ≤ after.length ∧ ∀ fuel outer,
        goOn opened.isNone (fuel + k) (opened.toList ++ inner ++ outer) after =
          goOn true fuel outer rest by
      obtain ⟨k, hk, hstep⟩ := hgo
      refine ⟨k + 1, Nat.succ_pos k, by omega, fun fuel outer => ?_⟩
      rw [← Nat.add_assoc, skipValueFrom_succ hscalar, ← List.append_assoc]
      exact hstep fuel outer
    have hopen : opened.isNone = true ∨ opened.toList ++ inner ≠ [] := by
      cases opened <;> simp
    unfold goOn at h
    split at h
    next => simp at h
    next hclosers =>
      -- All inner frames are closed.
      cases h
      refine ⟨0, ?_, fun fuel outer => ?_⟩
      · simpa using (skipClosers_append_none hclosers hopen []).1
      · rw [Nat.add_zero, goOn, (skipClosers_append_none hclosers hopen outer).2, ← goOn]
    next hclosers => exact absurd rfl (skipClosers_append_some hclosers []).1
    next frames more hclosers =>
      obtain ⟨k, hpos, hk, hstep⟩ := ih h
      obtain ⟨-, hmore, -⟩ := skipClosers_append_some hclosers []
      refine ⟨k, by omega, fun fuel outer => ?_⟩
      rw [goOn, (skipClosers_append_some hclosers outer).2.2]
      exact hstep fuel outer
    next frames more hclosers =>
      split at h
      next => simp at h
      next value hkey =>
        obtain ⟨k, hpos, hk, hstep⟩ := ih h
        obtain ⟨-, hmore, -⟩ := skipClosers_append_some hclosers []
        have hvalue := length_of_skipKey hkey
        refine ⟨k, by omega, fun fuel outer => ?_⟩
        rw [goOn, (skipClosers_append_some hclosers outer).2.2]
        simp only [List.cons_append, hkey]
        exact hstep fuel outer

theorem passed_of_skipValue {cs rest : List Char} (h : skipValue cs = .ok rest) :
    Passed cs rest :=
  exists_steps_of_skipValueFrom h

end QueryPlayground.Json
