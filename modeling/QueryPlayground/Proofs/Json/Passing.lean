import QueryPlayground.Proofs.Json.Record
import QueryPlayground.Proofs.Json.Skip

/-!
# What is read is passed over

A value that the reader of a schema takes from a text is passed over alike where nobody asks for it:
both stop at the same place. The reader goes down into a value and comes back, so the lemmas say what
becomes of the open frames in each part of a value that it reads.

Main statement: `Schema.skipValue_of_readFrom`.
-/

namespace QueryPlayground.Json

/-! ## §1 Strings and numbers -/

theorem pairChar_eq_ok {c : Char} {cs rest : List Char} (h : pairChar c cs = .ok rest) :
    cs = c :: rest := by
  unfold pairChar at h
  split at h
  next => simp at h
  next =>
    split at h
    next hc =>
      cases h
      rw [hc]
    next => simp at h

/-- An escape of two units is passed over as two escapes. -/
theorem skipEscape_of_escape {cs rest : List Char} {c : Char} (h : escape cs = .ok (c, rest)) :
    skipEscape cs = .ok rest ∨
      ∃ after, skipEscape cs = .ok ('\\' :: after) ∧ skipEscape after = .ok rest := by
  cases cs with
  | nil => simp [escape] at h
  | cons d cs =>
    rw [escape] at h
    split at h
    next hsimple =>
      cases h
      exact .inl (by simp [skipEscape, hsimple])
    next hsimple =>
      split at h
      next hd =>
        subst hd
        obtain ⟨⟨high, after⟩, hhigh, h⟩ := bind_eq_ok h
        have hskip : skipEscape ('u' :: cs) = .ok after := by
          simp [skipEscape, hsimple, hhigh, Except.map]
        dsimp only at h
        split at h
        next => simp at h
        next =>
          split at h
          next =>
            cases h
            exact .inl hskip
          next =>
            obtain ⟨_, hslash, h⟩ := bind_eq_ok h
            obtain ⟨low, hletter, h⟩ := bind_eq_ok h
            obtain ⟨⟨n, more⟩, hlow, h⟩ := bind_eq_ok h
            rw [pairChar_eq_ok hslash, pairChar_eq_ok hletter] at hskip
            dsimp only at h
            split at h
            next => simp at h
            next =>
              obtain ⟨-, rfl⟩ := Prod.mk.inj (Except.ok.inj h)
              exact .inr ⟨_, hskip, by simp [skipEscape, hsimple, hlow, Except.map]⟩
      next => simp at h

/-- What a string is read from is passed over, with any fuel that is more than its characters. -/
theorem skipStringFrom_of_stringFrom {fuel fuel' : Nat} {done cs rest : List Char} {s : String}
    (h : stringFrom fuel done cs = .ok (s, rest)) (hfuel : cs.length < fuel') :
    skipStringFrom fuel' cs = .ok rest := by
  induction fuel generalizing fuel' done cs with
  | zero => simp [stringFrom] at h
  | succ fuel ih =>
    obtain ⟨fuel', rfl⟩ : ∃ n, fuel' = n + 1 := ⟨fuel' - 1, by omega⟩
    cases cs with
    | nil => simp [stringFrom] at h
    | cons c cs =>
      rw [List.length_cons] at hfuel
      rw [stringFrom] at h
      rw [skipStringFrom]
      split at h
      next hquote =>
        cases h
        rw [if_pos hquote]
      next hquote =>
        rw [if_neg hquote]
        split at h
        next hslash =>
          rw [if_pos hslash]
          split at h
          next hescape =>
            rcases skipEscape_of_escape hescape with hskip | ⟨after, hskip, hskip'⟩
            · have hafter := length_of_skipEscape hskip
              rw [hskip]
              exact ih h (by omega)
            · -- The two escapes take two steps, and at least as many characters.
              have hafter := length_of_skipEscape hskip
              have hrest := length_of_skipEscape hskip'
              rw [List.length_cons] at hafter
              obtain ⟨fuel', rfl⟩ : ∃ n, fuel' = n + 1 := ⟨fuel' - 1, by omega⟩
              have hmore : skipStringFrom fuel' _ = .ok rest := ih h (by omega)
              simp [hskip, skipStringFrom, hskip', hmore]
          next => simp at h
        next hslash =>
          rw [if_neg hslash]
          split at h
          next => simp at h
          next hcontrol =>
            rw [if_neg hcontrol]
            exact ih h (by omega)

theorem skipString_of_string {cs rest : List Char} {s : String} (h : string cs = .ok (s, rest)) :
    skipString cs = .ok rest :=
  skipStringFrom_of_stringFrom h (Nat.lt_succ_self _)

theorem not_isReal_int {n : Int} : ¬ IsReal (.int n) := by
  rintro ⟨x, hx⟩
  cases hx

theorem skipAfterDigits_of_afterDigits {negative : Bool} {n : Nat} {m : Int} {cs rest : List Char}
    (h : afterDigits negative n cs = .ok (.int m, rest)) : skipAfterDigits cs = .ok rest := by
  -- With a fraction or an exponent the number would not have been an integer.
  unfold afterDigits at h
  split at h
  next => exact (not_isReal_int (isReal_of_fraction h)).elim
  next hpoint =>
    split at h
    next =>
      unfold exponent at h
      split at h <;> exact (not_isReal_int (isReal_of_exponentDigits h)).elim
    next hexponent =>
      have hrest : rest = cs := by
        unfold integer at h
        split at h
        next =>
          cases h
          rfl
        next =>
          split at h
          next =>
            cases h
            rfl
          next => exact (not_isReal_int (isReal_of_scaled h)).elim
      subst hrest
      rw [skipAfterDigits, skipExponentIfAny, if_neg hexponent]
      exact hpoint

theorem dropWhile_of_digitsWithin {limit n count : Nat} {cs : List Char}
    (h : startsWithDigit (digitsWithin limit n count cs).2.2 = false) :
    (digitsWithin limit n count cs).2.2 = cs.dropWhile Char.isDigit := by
  induction cs generalizing n count with
  | nil => rfl
  | cons c cs ih =>
    rw [digitsWithin] at h ⊢
    split
    next hc =>
      rw [if_pos hc] at h
      rw [List.dropWhile_cons_of_pos (Bool.and_eq_true_iff.mp hc).1]
      exact ih h
    next hc =>
      rw [if_neg hc] at h
      rw [List.dropWhile_cons_of_neg (by simpa [startsWithDigit] using h)]

/-- An integer is passed over to the same place. -/
theorem skipNumber_of_number {negative : Bool} {n : Int} {cs rest : List Char}
    (h : number negative cs = .ok (.int n, rest)) : skipNumber cs = .ok rest := by
  cases cs with
  | nil => simp [number] at h
  | cons c cs =>
    rw [number] at h
    rw [skipNumber]
    split at h
    next hzero =>
      rw [if_pos hzero]
      split at h
      next => simp at h
      next hdigit =>
        rw [if_neg hdigit]
        exact skipAfterDigits_of_afterDigits h
    next hzero =>
      rw [if_neg hzero]
      split at h
      next hdigit =>
        rw [if_pos hdigit]
        dsimp only at h
        split at h
        next =>
          -- With more digits than a word holds the number is read as a real.
          unfold afterManyDigits at h
          dsimp only at h
          split at h
          · exact (not_isReal_int (isReal_of_fraction h)).elim
          · exact (not_isReal_int (isReal_of_exponentIfAny h)).elim
        next hdigits =>
          rw [← dropWhile_of_digitsWithin (by simpa using hdigits)]
          exact skipAfterDigits_of_afterDigits h
      next => simp at h

/-! ## §2 Items and members -/

theorem Closed.item {first : Bool} {cs item after rest : List Char}
    (h : nextItem first cs = .ok (some item)) (hitem : Passed item after)
    (hclosed : Closed .array true after rest) : Closed .array (!first) cs rest := by
  obtain ⟨⟨c, tail, rfl, hc⟩, hnext⟩ := nextItem_eq_some h
  obtain ⟨m, hm, hrest⟩ := hclosed
  -- What passes over the frame stops in front of the first item, and behind the comma of others.
  rcases hnext with ⟨rfl, hspace⟩ | ⟨rfl, next, hspace, hnext⟩
  · obtain ⟨k, -, hk, hstep⟩ := hitem
    have hc : c ≠ Frame.array.closer := hc
    have hlength := length_dropWhile_le isSpace cs
    rw [← skipSpace, hspace] at hlength
    refine ⟨m + k, by omega, fun fuel outer => ?_⟩
    rw [goOn, Bool.not_true, skipClosers_first hspace hc, ← Nat.add_assoc]
    exact (hstep _ _).trans (hrest fuel outer)
  · obtain ⟨k, -, hk, hstep⟩ : Passed next after := .of_skipSpace (hnext ▸ hitem)
    have hlength := length_of_skipSpace hspace
    refine ⟨m + k, by omega, fun fuel outer => ?_⟩
    rw [goOn, Bool.not_false, skipClosers_comma hspace, ← Nat.add_assoc]
    exact (hstep _ _).trans (hrest fuel outer)

theorem skipKey_of_string {cs key after rest : List Char} {k : String}
    (hspace : skipSpace cs = '"' :: key) (hkey : string key = .ok (k, after))
    (hcolon : colon after = .ok rest) : skipKey cs = .ok rest := by
  simp [skipKey, hspace, skipString_of_string hkey, hcolon, bind, Except.bind]

/-- A member is passed over where its value is, with the key and the colon in front of it. -/
theorem Closed.member {first : Bool} {cs key after value next rest : List Char} {k : String}
    (h : nextKey first cs = .ok (some key)) (hkey : string key = .ok (k, after))
    (hcolon : colon after = .ok value) (hvalue : Passed value next)
    (hclosed : Closed .object true next rest) : Closed .object (!first) cs rest := by
  obtain ⟨k, -, hk, hstep⟩ := hvalue
  obtain ⟨m, hm, hrest⟩ := hclosed
  -- As with items: what passes over the frame stops in front of the first key, and behind the comma of
  -- others.
  rcases nextKey_eq_some h with ⟨rfl, hspace⟩ | ⟨rfl, more, hspace, hmore⟩
  · have hskip : skipKey ('"' :: key) = .ok value := skipKey_of_string rfl hkey hcolon
    have hlength := length_of_skipKey hskip
    have hspaced := length_dropWhile_le isSpace cs
    rw [← skipSpace, hspace] at hspaced
    refine ⟨m + k, by omega, fun fuel outer => ?_⟩
    have hquote : '"' ≠ Frame.object.closer := by decide
    rw [goOn, Bool.not_true, skipClosers_first hspace hquote, ← Nat.add_assoc]
    simp only [hskip]
    exact (hstep _ _).trans (hrest fuel outer)
  · have hskip : skipKey more = .ok value := skipKey_of_string hmore hkey hcolon
    have hlength := length_of_skipKey hskip
    have hspaced := length_of_skipSpace hspace
    refine ⟨m + k, by omega, fun fuel outer => ?_⟩
    rw [goOn, Bool.not_false, skipClosers_comma hspace, ← Nat.add_assoc]
    simp only [hskip]
    exact (hstep _ _).trans (hrest fuel outer)

/-! ## §3 Values of a schema -/

theorem passed_of_readText {expected s : String} {cs rest : List Char}
    (h : readText expected cs = .ok (s, rest)) : Passed cs rest := by
  obtain ⟨after, hspace, hstring⟩ := readText_eq_ok h
  apply passed_of_skipScalar
  simp [skipScalar, hspace, skipString_of_string hstring, Except.map]

theorem passed_of_readFlag {cs rest : List Char} {v : Value} (h : readFlag cs = .ok (v, rest)) :
    Passed cs rest := by
  apply passed_of_skipScalar
  obtain ⟨_, ⟨hspace, hword, -⟩ | ⟨hspace, hword, -⟩⟩ := readFlag_eq_ok h
  · simp [skipScalar, hspace, hword, Except.map]
  · simp [skipScalar, hspace, hword, Except.map]

theorem passed_of_readInteger {least greatest : Int} {expected : String} {v : Value}
    {cs rest : List Char} (h : readInteger least greatest expected cs = .ok (v, rest)) :
    Passed cs rest := by
  apply passed_of_skipScalar
  obtain ⟨n, -, -, -, ⟨after, hspace, hnumber⟩ | ⟨c, after, hspace, hdigit, hnumber⟩⟩ :=
    readInteger_eq_ok h
  · simp [skipScalar, hspace, skipNumber_of_number hnumber, Except.map]
  · exact skipScalar_of_isDigit hspace hdigit (skipNumber_of_number hnumber)

theorem passed_of_readChoice {depth : Nat} {spellings : List (String × String)}
    {cs rest : List Char} {v : Value} (h : readChoice depth spellings cs = .ok (v, rest)) :
    Passed cs rest := by
  obtain ⟨s, name, -, -, ⟨after, hspace, hstring⟩ | ⟨after, key, more, value, unit, -, hspace, hquote,
    hstring, hcolon, hunit, hclose⟩⟩ := readChoice_eq_ok h
  · apply passed_of_skipScalar
    simp [skipScalar, hspace, skipString_of_string hstring, Except.map]
  · have hnext : nextKey true after = .ok (some key) := by simp [nextKey, hquote]
    have hvalue : Passed value unit := by
      obtain ⟨_, hnull, hword⟩ := readUnit_eq_ok hunit
      apply passed_of_skipScalar
      simp [skipScalar, hnull, hword, Except.map]
    have hopened : skipScalar cs = .ok (some .object, after) := by simp [skipScalar, hspace]
    exact passed_of_opened hopened (.member hnext hstring hcolon hvalue (closed_of_closer hclose true))

namespace Schema

/-- What is passed over of what is read at some amount of fuel: values, and what is left of lists and
records. -/
structure ReadsPassed (fuel : Nat) : Prop where
  value {depth : Nat} {schema : Schema} {v : Value} {cs rest : List Char} :
    Schema.readFrom fuel depth schema cs = .ok (v, rest) → Passed cs rest
  list {depth : Nat} {item : Schema} {first : Bool} {done : List Value} {v : Value}
    {cs rest : List Char} :
    Schema.readList fuel depth item first done cs = .ok (v, rest) → Closed .array (!first) cs rest
  items {depth total : Nat} {owner : String} {fields : List (String × Schema × Option Value)}
    {first : Bool} {done : List (String × Value)} {v : Value} {cs rest : List Char} :
    Schema.readItems fuel depth owner total fields first done cs = .ok (v, rest) →
      Closed .array (!first) cs rest
  members {depth : Nat} {fields : List (String × Schema × Option Value)} {first : Bool}
    {found : List (String × Value)} {v : Value} {cs rest : List Char} :
    Schema.readMembers fuel depth fields first found cs = .ok (v, rest) →
      Closed .object (!first) cs rest

/-- A value that a schema reads is passed over, by the way in which it is read. -/
theorem ReadsPassed.value_succ {fuel : Nat} (ih : ReadsPassed fuel) {depth : Nat} {schema : Schema}
    {v : Value} {cs rest : List Char}
    (h : Schema.readFrom (fuel + 1) depth schema cs = .ok (v, rest)) : Passed cs rest := by
  have hlist {after : List Char} (hspace : skipSpace cs = '[' :: after) :
      skipScalar cs = .ok (some .array, after) := by
    simp [skipScalar, hspace]
  cases valueStep_of_readFrom h with
  | text h => exact passed_of_readText h
  | flag h => exact passed_of_readFlag h
  | integer h => exact passed_of_readInteger h
  | choice h => exact passed_of_readChoice h
  | null hspace hword =>
    apply passed_of_skipScalar
    simp [skipScalar, hspace, hword, Except.map]
  | present h => exact ih.value h
  | list hspace h => exact passed_of_opened (hlist hspace) (ih.list h)
  | array hspace h => exact passed_of_opened (hlist hspace) (ih.items h)
  | @object _ _ _ _ _ after _ hspace h =>
    have hopened : skipScalar cs = .ok (some .object, after) := by simp [skipScalar, hspace]
    exact passed_of_opened hopened (ih.members h)

theorem readsPassed (fuel : Nat) : ReadsPassed fuel := by
  induction fuel with
  | zero =>
    constructor <;> intros <;>
      simp_all [Schema.readFrom, Schema.readList, Schema.readItems, Schema.readMembers]
  | succ fuel ih =>
    constructor
    case value => exact ih.value_succ
    case list =>
      intro depth item first done v cs rest h
      cases listStep_of_readList h with
      | close hnext => exact closed_of_closer (nextItem_eq_none hnext) _
      | item hnext hread h => exact .item hnext (ih.value hread) (ih.list h)
    case items =>
      intro depth total owner fields first done v cs rest h
      cases itemsStep_of_readItems h with
      | close hspace => exact closed_of_closer hspace _
      -- An absent field takes nothing of the text.
      | absent _ h => exact ih.items h
      | field hnext hread h => exact .item hnext (ih.value hread) (ih.items h)
    case members =>
      intro depth fields first found v cs rest h
      cases membersStep_of_readMembers h with
      | close hnext => exact closed_of_closer (nextKey_eq_none hnext) _
      | unknown hnext hkey hcolon _ hskip h =>
        exact .member hnext hkey hcolon (passed_of_skipValue hskip) (ih.members h)
      | field hnext hkey hcolon _ _ hread h =>
        exact .member hnext hkey hcolon (ih.value hread) (ih.members h)

theorem skipValue_of_readFrom {fuel depth : Nat} {schema : Schema} {v : Value} {cs rest : List Char}
    (h : Schema.readFrom fuel depth schema cs = .ok (v, rest)) : skipValue cs = .ok rest :=
  ((readsPassed fuel).value h).skipValue

end Schema

end QueryPlayground.Json
