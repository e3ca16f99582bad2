import QueryPlayground.Proofs.Json.Passing

/-!
# A value is read alike whatever follows

What the reader takes from the front of a text it takes as well when more text follows, unless a
number at the very end could go on there. It may be given more fuel for the longer text.

Main statement: `steady_read`.
-/

namespace QueryPlayground.Json

open QueryPlayground.Decimal

/-- A reader that gives the same from a text with more behind it, and leaves that too. -/
def Steady (tail : List Char) {α : Type} (read : List Char → Except Failure (α × List Char)) : Prop :=
  ∀ ⦃cs rest : List Char⦄ ⦃a : α⦄, read cs = .ok (a, rest) → read (cs ++ tail) = .ok (a, rest ++ tail)

variable {tail : List Char}

/-! ## §1 Words and strings -/

/-- Space that ends before the end of a text ends there as well when more follows. -/
theorem skipSpace_append_of_cons {c : Char} {cs rest : List Char} (h : skipSpace cs = c :: rest)
    (tail : List Char) : skipSpace (cs ++ tail) = c :: (rest ++ tail) := by
  rw [skipSpace] at h
  rw [skipSpace, List.dropWhile_append, h]
  rfl

/-- A word that is read is read with anything behind it. -/
theorem word_append {ws cs rest : List Char} (h : word ws cs = .ok rest) (tail : List Char) :
    word ws (cs ++ tail) = .ok (rest ++ tail) := by
  induction ws generalizing cs with
  | nil =>
    cases h
    rfl
  | cons w ws ih =>
    cases cs with
    | nil => simp [word] at h
    | cons c cs =>
      rw [word] at h
      rw [List.cons_append, word]
      split at h
      next hc =>
        rw [if_pos hc]
        exact ih h
      next => simp at h

/-- Four digits of a code unit are taken off the front. -/
theorem steady_hexUnit : Steady tail hexUnit := by
  intro cs rest n h
  unfold hexUnit at h
  split at h
  next => simp at h
  next hbytes =>
    split at h
    next a b c d after =>
      -- Four characters are there, so those that are looked at are the same.
      have htake : (a :: b :: c :: d :: (after ++ tail)).take 4 =
          (a :: b :: c :: d :: after).take 4 := rfl
      simp only [List.cons_append]
      rw [hexUnit, htake, if_neg hbytes]
      split at h
      next =>
        cases h
        rfl
      next => simp at h
    next => simp at h

/-- An escape by number is one code unit, or two that belong together. -/
theorem steady_hexEscape : Steady tail hexEscape := by
  intro cs rest c h
  obtain ⟨⟨high, after⟩, hhigh, h⟩ := bind_eq_ok h
  rw [hexEscape, steady_hexUnit hhigh]
  simp only [bind, Except.bind]
  dsimp only at h
  split at h
  next => simp at h
  -- A half that stands alone is refused in both texts.
  next hlow =>
    rw [if_neg hlow]
    split at h
    next hplane =>
      cases h
      rw [if_pos hplane]
    next hplane =>
      -- The first half of a pair: the second one is read as well.
      obtain ⟨_, hslash, h⟩ := bind_eq_ok h
      obtain ⟨_, hletter, h⟩ := bind_eq_ok h
      obtain ⟨⟨low, more⟩, hpair, h⟩ := bind_eq_ok h
      rw [if_neg hplane, pairChar_eq_ok hslash, pairChar_eq_ok hletter]
      simp only [List.cons_append, pairChar, if_pos, steady_hexUnit hpair]
      dsimp only at h
      split at h
      next => simp at h
      next hhalf =>
        obtain ⟨rfl, rfl⟩ := Prod.mk.inj (Except.ok.inj h)
        rw [if_neg hhalf]

/-- An escape is one letter, or `u` with its numbers. -/
theorem steady_escape : Steady tail escape := by
  intro cs rest c h
  cases cs with
  | nil => simp [escape] at h
  | cons d cs =>
    rw [escape] at h
    rw [List.cons_append, escape]
    split at h
    next =>
      cases h
      rfl
    next =>
      split at h
      next hd =>
        rw [if_pos hd]
        exact steady_hexEscape h
      next => simp at h

/-- A string is read up to its quote, with as much fuel or more. -/
theorem stringFrom_append {fuel fuel' : Nat} {done cs rest : List Char} {s : String}
    (h : stringFrom fuel done cs = .ok (s, rest)) (hfuel : fuel ≤ fuel') (tail : List Char) :
    stringFrom fuel' done (cs ++ tail) = .ok (s, rest ++ tail) := by
  -- By induction on the fuel. What is done with the next character depends on it alone, so each
  -- case of the shorter text is the same case of the longer one.
  induction fuel generalizing fuel' done cs with
  | zero => simp [stringFrom] at h
  | succ fuel ih =>
    obtain ⟨fuel', rfl⟩ : ∃ n, fuel' = n + 1 := ⟨fuel' - 1, by omega⟩
    have hle : fuel ≤ fuel' := Nat.le_of_succ_le_succ hfuel
    cases cs with
    | nil => simp [stringFrom] at h
    | cons c cs =>
      rw [stringFrom] at h
      rw [List.cons_append, stringFrom]
      split at h
      next hquote =>
        cases h
        rw [if_pos hquote]
      next hquote =>
        rw [if_neg hquote]
        split at h
        next hslash =>
          rw [if_pos hslash]
          split at h
          next hescape =>
            rw [steady_escape hescape]
            exact ih h hle
          next => simp at h
        next hslash =>
          rw [if_neg hslash]
          split at h
          next => simp at h
          next hcontrol =>
            rw [if_neg hcontrol]
            exact ih h hle

/-- The fuel for a string is the length of its text, which only grows. -/
theorem steady_string : Steady tail string := by
  intro cs rest s h
  refine stringFrom_append h ?_ tail
  simp

/-! ## §2 Numbers -/

section Numbers

variable {negative down : Bool} {digits : Nat} {start : Int}

/-- Where what follows ends a number, a text goes on with a digit only if it does so itself. -/
theorem EndsNumber.startsWithDigit_append (h : EndsNumber tail) (cs : List Char) :
    Json.startsWithDigit (cs ++ tail) = Json.startsWithDigit cs := by
  cases cs with
  | nil => exact h.startsWithDigit
  | cons c cs => rfl

/-- Where what follows ends a number, a text goes on with an exponent only if it does so itself. -/
theorem EndsNumber.startsWithExponent_append (h : EndsNumber tail) (cs : List Char) :
    Json.startsWithExponent (cs ++ tail) = Json.startsWithExponent cs := by
  cases cs with
  | nil => exact h.startsWithExponent
  | cons c cs => rfl

/-- What ends a number has no digits in front. -/
theorem EndsNumber.dropWhile_isDigit (h : EndsNumber tail) :
    tail.dropWhile Char.isDigit = tail := by
  cases tail with
  | nil => rfl
  | cons c tail => rw [List.dropWhile_cons_of_neg (by simpa using (h c rfl).1)]

/-- The digits in front of a text are skipped without those of what follows. -/
theorem EndsNumber.dropWhile_append (h : EndsNumber tail) (cs : List Char) :
    (cs ++ tail).dropWhile Char.isDigit = cs.dropWhile Char.isDigit ++ tail := by
  rw [List.dropWhile_append, h.dropWhile_isDigit]
  split
  next hdrop => rw [List.isEmpty_iff.mp hdrop, List.nil_append]
  next => rfl

/-- The digits in front of a text are those of the text. -/
theorem EndsNumber.takeWhile_append (h : EndsNumber tail) (cs : List Char) :
    (cs ++ tail).takeWhile Char.isDigit = cs.takeWhile Char.isDigit := by
  -- Both sides have the same rest, so it can be taken off.
  have hwhole : (cs ++ tail).takeWhile Char.isDigit ++ cs.dropWhile Char.isDigit ++ tail =
      cs.takeWhile Char.isDigit ++ cs.dropWhile Char.isDigit ++ tail := by
    rw [List.append_assoc, ← h.dropWhile_append, List.takeWhile_append_dropWhile,
      List.takeWhile_append_dropWhile]
  exact List.append_cancel_right (List.append_cancel_right hwhole)

/-- The digits that are counted end with the text too, whatever the limit is. -/
theorem EndsNumber.digitsWithin_append (h : EndsNumber tail) (limit n count : Nat)
    (cs : List Char) :
    digitsWithin limit n count (cs ++ tail) =
      ((digitsWithin limit n count cs).1, (digitsWithin limit n count cs).2.1,
        (digitsWithin limit n count cs).2.2 ++ tail) := by
  induction cs generalizing n count with
  | nil =>
    cases tail with
    | nil => rfl
    | cons c tail => simp [digitsWithin, (h c rfl).1]
  | cons c cs ih =>
    rw [List.cons_append, digitsWithin, digitsWithin]
    split
    · exact ih _ _
    · rfl

/-- A number with an exponent reads nothing more. -/
theorem steady_scaled : Steady tail (scaled negative digits start) := by
  intro cs rest v h
  unfold scaled at h ⊢
  cases hx : (Double.ofNat? digits).bind (scaleByTen 4 · start) with
  | none => simp [hx] at h
  | some x =>
    rw [hx] at h
    cases h
    rfl

/-- The digits of an exponent are read alike, also where there are too many of them. -/
theorem EndsNumber.steady_exponentDigits (htail : EndsNumber tail) :
    Steady tail (exponentDigits negative digits start down) := by
  intro cs rest v h
  cases cs with
  | nil => simp [exponentDigits] at h
  | cons c cs =>
    rw [exponentDigits] at h
    rw [List.cons_append, exponentDigits, ← List.cons_append, htail.digitsWithin_append]
    split at h
    next hdigit =>
      rw [if_pos hdigit]
      dsimp only at h ⊢
      rw [htail.startsWithDigit_append]
      split at h
      next hmore =>
        rw [if_pos hmore]
        split at h
        next => simp at h
        next hrange =>
          cases h
          rw [if_neg hrange, htail.dropWhile_append]
      next hmore =>
        rw [if_neg hmore]
        exact steady_scaled h
    next => simp at h

/-- An exponent may have a sign in front. -/
theorem EndsNumber.steady_exponent (htail : EndsNumber tail) :
    Steady tail (exponent negative digits start) := by
  intro cs rest v h
  unfold exponent at h
  split at h
  next => exact htail.steady_exponentDigits h
  next => exact htail.steady_exponentDigits h
  -- Neither sign stands there, in the longer text as in the shorter one.
  next hplus hminus =>
    cases cs with
    | nil => simp [exponentDigits] at h
    | cons c cs =>
      rw [List.cons_append, exponent]
      · exact htail.steady_exponentDigits h
      · rintro _ ⟨rfl, -⟩
        exact hplus cs rfl
      · rintro _ ⟨rfl, -⟩
        exact hminus cs rfl

/-- Behind the mark of an exponent something is left. -/
theorem EndsNumber.steady_drop_exponent (htail : EndsNumber tail) {cs rest : List Char} {v : Value}
    (hexponent : Json.startsWithExponent cs = true)
    (h : exponent negative digits start (cs.drop 1) = .ok (v, rest)) :
    exponent negative digits start ((cs ++ tail).drop 1) = .ok (v, rest ++ tail) := by
  cases cs with
  | nil => simp [Json.startsWithExponent] at hexponent
  | cons c cs => exact htail.steady_exponent h

/-- An exponent may be missing. -/
theorem EndsNumber.steady_exponentIfAny (htail : EndsNumber tail) :
    Steady tail (exponentIfAny negative digits start) := by
  intro cs rest v h
  unfold exponentIfAny at h ⊢
  rw [htail.startsWithExponent_append]
  split at h
  next hexponent =>
    rw [if_pos hexponent]
    exact htail.steady_drop_exponent hexponent h
  next hexponent =>
    rw [if_neg hexponent]
    exact steady_scaled h

/-- The digits behind a point are read alike, also where there are more than fit. -/
theorem EndsNumber.steady_fraction (htail : EndsNumber tail) :
    Steady tail (fraction negative digits start) := by
  intro cs rest v h
  unfold fraction at h ⊢
  rw [htail.digitsWithin_append]
  dsimp only at h ⊢
  rw [htail.startsWithDigit_append]
  split at h
  next hmore =>
    rw [if_pos hmore, htail.dropWhile_append]
    exact htail.steady_exponentIfAny h
  next hmore =>
    rw [if_neg hmore]
    split at h
    next => simp at h
    next hcount =>
      rw [if_neg hcount]
      exact htail.steady_exponentIfAny h

/-- A number without a point and an exponent reads nothing more. -/
theorem steady_integer {n : Nat} : Steady tail (integer negative n) := by
  intro cs rest v h
  unfold integer at h ⊢
  split at h
  next hpositive =>
    cases h
    rw [if_pos hpositive]
  next hpositive =>
    rw [if_neg hpositive]
    split at h
    next hword =>
      cases h
      rw [if_pos hword]
    next hword =>
      rw [if_neg hword]
      exact steady_scaled h

/-- Behind the digits of a number there may be a point or an exponent. -/
theorem EndsNumber.steady_afterDigits (htail : EndsNumber tail) {n : Nat} :
    Steady tail (afterDigits negative n) := by
  intro cs rest v h
  unfold afterDigits at h
  split at h
  next after =>
    rw [List.cons_append, afterDigits]
    exact htail.steady_fraction h
  next hpoint =>
    cases cs with
    | nil =>
      -- The number ends with the text, so it is here that it could go on.
      rw [if_neg (by simp [Json.startsWithExponent])] at h
      rw [List.nil_append, afterDigits_of_endsNumber negative n htail]
      exact steady_integer h
    | cons c cs =>
      rw [List.cons_append, afterDigits]
      · rw [← List.cons_append, htail.startsWithExponent_append]
        split at h
        next hexponent =>
          rw [if_pos hexponent]
          exact htail.steady_drop_exponent hexponent h
        next hexponent =>
          rw [if_neg hexponent]
          exact steady_integer h
      · rintro _ ⟨rfl, -⟩
        exact hpoint cs rfl

/-- The same behind digits of which there are more than fit. -/
theorem EndsNumber.steady_afterManyDigits (htail : EndsNumber tail) {n : Nat} :
    Steady tail (afterManyDigits negative n) := by
  intro cs rest v h
  unfold afterManyDigits at h ⊢
  dsimp only at h ⊢
  rw [htail.takeWhile_append, htail.dropWhile_append]
  split at h
  next after hdrop =>
    rw [hdrop]
    exact htail.steady_fraction h
  next hpoint =>
    -- A point is neither the next character nor the first one of what follows.
    have hnot : ∀ after, cs.dropWhile Char.isDigit ++ tail ≠ '.' :: after := by
      intro after hafter
      cases hdrop : cs.dropWhile Char.isDigit with
      | nil =>
        rw [hdrop, List.nil_append] at hafter
        exact (htail '.' (by rw [hafter]; rfl)).2.1 rfl
      | cons c more =>
        rw [hdrop] at hafter
        exact hpoint more (by rw [hdrop, (List.cons.inj hafter).1])
    split
    next hafter => exact absurd hafter (hnot _)
    next => exact htail.steady_exponentIfAny h

/-- A number is read alike where what follows could not be a part of it. -/
theorem EndsNumber.steady_number (htail : EndsNumber tail) :
    Steady tail (number negative) := by
  intro cs rest v h
  cases cs with
  | nil => simp [number] at h
  | cons c cs =>
    rw [number] at h
    rw [List.cons_append, number]
    split at h
    next hzero =>
      rw [if_pos hzero, htail.startsWithDigit_append]
      split at h
      next => simp at h
      next hmore =>
        rw [if_neg hmore]
        exact htail.steady_afterDigits h
    next hzero =>
      rw [if_neg hzero]
      split at h
      next hdigit =>
        rw [if_pos hdigit, ← List.cons_append, htail.digitsWithin_append]
        dsimp only at h ⊢
        rw [htail.startsWithDigit_append]
        split at h
        next hmore =>
          rw [if_pos hmore]
          exact htail.steady_afterManyDigits h
        next hmore =>
          rw [if_neg hmore]
          exact htail.steady_afterDigits h
      next => simp at h

end Numbers

/-! ## §3 Separators -/

/-- The separator in front of an item is read alike. -/
theorem nextItem_append {first : Bool} {cs : List Char} {found : Option (List Char)}
    (h : nextItem first cs = .ok found) (tail : List Char) :
    nextItem first (cs ++ tail) = .ok (found.map (· ++ tail)) := by
  cases found with
  | none =>
    rw [nextItem, skipSpace_append_of_cons (nextItem_eq_none h)]
    rfl
  | some rest =>
    obtain ⟨⟨c, after, rfl, hc⟩, ⟨rfl, hspace⟩ | ⟨rfl, more, hspace, hitem⟩⟩ := nextItem_eq_some h
    · rw [nextItem, skipSpace_append_of_cons hspace]
      simp
    · rw [nextItem, skipSpace_append_of_cons hspace]
      simp [skipSpace_append_of_cons hitem, hc]

/-- The separator in front of a key is read alike. -/
theorem nextKey_append {first : Bool} {cs : List Char} {found : Option (List Char)}
    (h : nextKey first cs = .ok found) (tail : List Char) :
    nextKey first (cs ++ tail) = .ok (found.map (· ++ tail)) := by
  cases found with
  | none =>
    rw [nextKey, skipSpace_append_of_cons (nextKey_eq_none h)]
    rfl
  | some key =>
    rcases nextKey_eq_some h with ⟨rfl, hspace⟩ | ⟨rfl, more, hspace, hkey⟩
    · rw [nextKey, skipSpace_append_of_cons hspace]
      rfl
    · rw [nextKey, skipSpace_append_of_cons hspace]
      simp [skipSpace_append_of_cons hkey]

/-- The colon behind a key is read alike. -/
theorem colon_append_of_eq_ok {cs rest : List Char} (h : colon cs = .ok rest) (tail : List Char) :
    colon (cs ++ tail) = .ok (rest ++ tail) := by
  rw [colon, skipSpace_append_of_cons (colon_eq_ok h)]
  rfl

/-- What follows a closing bracket goes on with what follows the text. -/
theorem afterClose_append_of_cons {c : Char} {cs : List Char}
    (h : skipSpace cs = c :: afterClose cs) (tail : List Char) :
    afterClose (cs ++ tail) = afterClose cs ++ tail := by
  rw [afterClose, skipSpace_append_of_cons h]
  rfl

/-! ## §4 Values -/

/-- What is read with some fuel is read alike with as much or more where a text follows. -/
structure SteadyAt (tail : List Char) (fuel : Nat) : Prop where
  value {fuel' d : Nat} {cs rest : List Char} {v : Value} :
    fuel ≤ fuel' → readValue fuel d cs = .ok (v, rest) →
    readValue fuel' d (cs ++ tail) = .ok (v, rest ++ tail)
  items {fuel' d : Nat} {first : Bool} {done : List Value} {cs rest : List Char} {v : Value} :
    fuel ≤ fuel' → readItems fuel d first done cs = .ok (v, rest) →
    readItems fuel' d first done (cs ++ tail) = .ok (v, rest ++ tail)
  members {fuel' d : Nat} {first : Bool} {done : List (String × Value)} {cs rest : List Char}
    {v : Value} :
    fuel ≤ fuel' → readMembers fuel d first done cs = .ok (v, rest) →
    readMembers fuel' d first done (cs ++ tail) = .ok (v, rest ++ tail)

variable {fuel fuel' d : Nat} {first : Bool} {cs rest : List Char} {v : Value}

/-- Space in front of a value does not count. -/
theorem readValue_of_skipSpace {c : Char} (h : skipSpace cs = c :: rest) :
    readValue (fuel + 1) d cs = readValue (fuel + 1) d (c :: rest) := by
  have hsharp : skipSpace (c :: rest) = c :: rest := by
    rw [← h, skipSpace, skipSpace, List.dropWhile_idempotent]
  rw [readValue, readValue, h, hsharp]

/-- One value of the next depth of fuel: what it holds is read with the fuel of the induction. -/
theorem SteadyAt.value_succ (ih : SteadyAt tail fuel) (htail : EndsNumber tail)
    (hle : fuel ≤ fuel') (h : readValue (fuel + 1) d cs = .ok (v, rest)) :
    readValue (fuel' + 1) d (cs ++ tail) = .ok (v, rest ++ tail) := by
  rw [readValue] at h
  split at h
  -- The cases are those of the reader, by the first character that is no space.
  case h_1 => simp at h
  case h_2 hspace | h_3 hspace | h_4 hspace =>
    obtain ⟨_, hword, h⟩ := bind_eq_ok h
    cases h
    rw [readValue, skipSpace_append_of_cons hspace]
    simp only [word_append hword, bind, Except.bind, pure, Except.pure]
  case h_5 hspace =>
    rw [readValue, skipSpace_append_of_cons hspace]
    exact htail.steady_number h
  case h_6 hspace =>
    obtain ⟨_, hstring, h⟩ := bind_eq_ok h
    cases h
    rw [readValue, skipSpace_append_of_cons hspace]
    simp only [steady_string hstring, bind, Except.bind, pure, Except.pure]
  case h_7 hspace =>
    rw [readValue, skipSpace_append_of_cons hspace]
    split at h
    · simp at h
    · exact ih.items hle h
  case h_8 hspace =>
    rw [readValue, skipSpace_append_of_cons hspace]
    split at h
    · simp at h
    · exact ih.members hle h
  -- Anything else is a number if it begins with a digit, and a failure if not.
  case h_9 hspace =>
    split at h
    next hdigit =>
      rw [readValue_of_skipSpace (skipSpace_append_of_cons hspace tail),
        readValue_of_isDigit _ _ hdigit]
      exact htail.steady_number h
    next => simp at h

/-- The items of an array, one more unit of fuel. -/
theorem SteadyAt.items_succ (ih : SteadyAt tail fuel) (hle : fuel ≤ fuel') {done : List Value}
    (h : readItems (fuel + 1) d first done cs = .ok (v, rest)) :
    readItems (fuel' + 1) d first done (cs ++ tail) = .ok (v, rest ++ tail) := by
  rw [readItems] at h ⊢
  split at h
  next => simp at h
  next hclose =>
    cases h
    rw [nextItem_append hclose, ← afterClose_append_of_cons (nextItem_eq_none hclose)]
    rfl
  next hitem =>
    rw [nextItem_append hitem]
    split at h
    next => simp at h
    next hread =>
      simp only [Option.map_some, ih.value hle hread]
      exact ih.items hle h

/-- The members of an object, one more unit of fuel. -/
theorem SteadyAt.members_succ (ih : SteadyAt tail fuel) (hle : fuel ≤ fuel')
    {done : List (String × Value)}
    (h : readMembers (fuel + 1) d first done cs = .ok (v, rest)) :
    readMembers (fuel' + 1) d first done (cs ++ tail) = .ok (v, rest ++ tail) := by
  rw [readMembers] at h ⊢
  split at h
  next => simp at h
  next hclose =>
    cases h
    rw [nextKey_append hclose, ← afterClose_append_of_cons (nextKey_eq_none hclose)]
    rfl
  next hkey =>
    rw [nextKey_append hkey]
    split at h
    next => simp at h
    next hstring =>
      split at h
      next => simp at h
      next hcolon =>
        split at h
        next => simp at h
        next hread =>
          simp only [Option.map_some, steady_string hstring, colon_append_of_eq_ok hcolon,
            ih.value hle hread]
          exact ih.members hle h

/-- Values, items and members are read alike by induction on the fuel. -/
theorem steadyAt (htail : EndsNumber tail) (fuel : Nat) : SteadyAt tail fuel := by
  induction fuel with
  | zero => constructor <;> intros <;> simp_all [readValue, readItems, readMembers]
  | succ fuel ih =>
    have hsucc {fuel' : Nat} (hle : fuel + 1 ≤ fuel') : ∃ n, fuel' = n + 1 ∧ fuel ≤ n :=
      ⟨fuel' - 1, by omega, by omega⟩
    constructor
    case value =>
      intro fuel' d cs rest v hle h
      obtain ⟨fuel', rfl, hless⟩ := hsucc hle
      exact ih.value_succ htail hless h
    case items =>
      intro fuel' d first done cs rest v hle h
      obtain ⟨fuel', rfl, hless⟩ := hsucc hle
      exact ih.items_succ hless h
    case members =>
      intro fuel' d first done cs rest v hle h
      obtain ⟨fuel', rfl, hless⟩ := hsucc hle
      exact ih.members_succ hless h

/-- A value in front of a text is read alike whatever follows, if no number could go on there. -/
theorem steady_read (htail : EndsNumber tail) : Steady tail Value.read := by
  intro cs rest v h
  refine (steadyAt htail _).value ?_ h
  simp only [enough, List.length_append]
  omega

end QueryPlayground.Json
