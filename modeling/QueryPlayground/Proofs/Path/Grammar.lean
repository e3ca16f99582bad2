import Mathlib.Data.List.Induction
import Mathlib.Data.List.TakeWhile
import Mathlib.Data.Nat.Digits.Defs
import QueryPlayground.Path.Parser

/-!
# The grammar of queries

What a query may be, said without a word about how it is read: each rule says which text stands for
which segments, and nothing in it looks ahead or goes from left to right. The parser accepts exactly
the texts of the grammar, and reads out of each the path that its derivation denotes. In particular a
name that is read to its longest extent is never cut short by the grammar, as what may follow a name
is no part of one.

Main statement: `parse_iff_writes`.
-/

namespace QueryPlayground.Path

open QueryPlayground.Text

/-! ## §1 Rules -/

/-- A name: a letter or an underscore, and then letters, numbers, underscores and hyphens. -/
def IsName (cs : List Char) : Prop :=
  ∃ c rest, cs = c :: rest ∧ (isAlphabetic c = true ∨ c = '_') ∧
    ∀ d ∈ rest, isAlphanumeric d = true ∨ d = '_' ∨ d = '-'

/-- What stands between quotes, and the name that it stands for. -/
inductive Quotes : List Char → List Char → Prop where
  | nil : Quotes [] []
  /-- Other characters stand for themselves. -/
  | plain {c : Char} {cs name : List Char} :
      c ≠ '"' → c ≠ '\\' → Quotes cs name → Quotes (c :: cs) (c :: name)
  /-- A backslash makes the next character literal. -/
  | escaped (c : Char) {cs name : List Char} :
      Quotes cs name → Quotes ('\\' :: c :: cs) (c :: name)

/-- The number that decimal digits write, the last digit being that of the ones. -/
def decimal (digits : List Char) : Nat :=
  Nat.ofDigits 10 (digits.map fun d => d.toNat - '0'.toNat).reverse

/-- Decimal digits, at least one. -/
def IsDigits (cs : List Char) : Prop :=
  cs ≠ [] ∧ ∀ c ∈ cs, c.isDigit = true

/-- A position: digits with or without a sign, whose value is a machine integer. -/
inductive Numeral : List Char → Int → Prop where
  | unsigned {ds : List Char} :
      IsDigits ds → (decimal ds : Int) ≤ MachineWord.maxSigned → Numeral ds (decimal ds)
  | negative {ds : List Char} :
      IsDigits ds → MachineWord.minSigned ≤ -(decimal ds : Int) →
      Numeral ('-' :: ds) (-(decimal ds : Int))

/-- A segment in brackets, with nothing between it and them. -/
inductive Bracketed : List Char → Segment → Prop where
  | quoted {cs name : List Char} :
      Quotes cs name → Bracketed (['[', '"'] ++ cs ++ ['"', ']']) (.field (String.ofList name))
  | position {cs : List Char} {i : Int} :
      Numeral cs i → Bracketed (['['] ++ cs ++ [']']) (.index i)

/-- A segment: a name, or one in brackets. -/
inductive Piece : List Char → Segment → Prop where
  | name {cs : List Char} : IsName cs → Piece cs (.field (String.ofList cs))
  | bracketed {cs : List Char} {s : Segment} : Bracketed cs s → Piece cs s

/-- Segments after the first one: any of them after a point, or brackets without one. -/
inductive Continues : List Char → List Segment → Prop where
  | nil : Continues [] []
  | pointed {cs rest : List Char} {s : Segment} {path : List Segment} :
      Piece cs s → Continues rest path → Continues ('.' :: cs ++ rest) (s :: path)
  | bracketed {cs rest : List Char} {s : Segment} {path : List Segment} :
      Bracketed cs s → Continues rest path → Continues (cs ++ rest) (s :: path)

/-- A query without blanks around it, and its path. -/
inductive Writes : List Char → List Segment → Prop where
  | blank : Writes [] []
  | point : Writes ['.'] []
  | path {cs rest : List Char} {s : Segment} {path : List Segment} :
      Piece cs s → Continues rest path → Writes (cs ++ rest) (s :: path)
  | pointed {cs rest : List Char} {s : Segment} {path : List Segment} :
      Piece cs s → Continues rest path → Writes ('.' :: cs ++ rest) (s :: path)

/-! ## §2 Names -/

theorem isNameStart_iff {c : Char} : isNameStart c = true ↔ isAlphabetic c = true ∨ c = '_' := by
  simp [isNameStart]

theorem isNameChar_iff {c : Char} :
    isNameChar c = true ↔ isAlphanumeric c = true ∨ c = '_' ∨ c = '-' := by
  simp [isNameChar, or_assoc]

/-- What can start a name can go on in one. -/
theorem isNameChar_of_isNameStart {c : Char} (h : isNameStart c = true) : isNameChar c = true := by
  rw [isNameStart_iff] at h
  rw [isNameChar_iff, isAlphanumeric]
  rcases h with h | h <;> simp [h]

/-- A name is made of the characters that can go on in one, and starts with one that can start. -/
theorem isName_iff {c : Char} {rest : List Char} :
    IsName (c :: rest) ↔ isNameStart c = true ∧ ∀ d ∈ rest, isNameChar d = true := by
  simp [IsName, isNameStart_iff, isNameChar_iff]

/-! ## §3 Quoted names -/

/-- A quoted name is read up to the first quote that no backslash makes literal. -/
theorem quotedFrom_eq_some_iff {done cs rest : List Char} {name : String} :
    quotedFrom done cs = some (name, rest) ↔
      ∃ body content, cs = body ++ '"' :: rest ∧ Quotes body content ∧
        name = String.ofList (done.reverse ++ content) := by
  constructor
  -- One case for each way to read a character, as in the function.
  · intro h
    fun_induction quotedFrom done cs with
    | case1 => cases h
    | case2 done tail =>
      obtain ⟨rfl, rfl⟩ := Prod.mk.inj (Option.some.inj h)
      exact ⟨[], [], rfl, .nil, by simp⟩
    | case3 => cases h
    | case4 done c tail ih =>
      obtain ⟨body, content, rfl, hquotes, rfl⟩ := ih h
      exact ⟨'\\' :: c :: body, c :: content, rfl, .escaped c hquotes, by simp⟩
    | case5 done c tail hquote hlone hslash ih =>
      obtain ⟨body, content, rfl, hquotes, rfl⟩ := ih h
      -- A backslash would have made the next character literal, and there is one.
      have hplain : c ≠ '\\' := by
        intro hc
        cases body with
        | nil => exact hslash _ _ hc rfl
        | cons d body => exact hslash _ _ hc rfl
      exact ⟨c :: body, c :: content, rfl, .plain hquote hplain hquotes, by simp⟩
  · rintro ⟨body, content, rfl, hquotes, rfl⟩
    induction hquotes generalizing done with
    | nil => simp [quotedFrom]
    -- A character that is neither a quote nor a backslash is read as it is.
    | @plain c cs name hquote hslash _ ih =>
      have hread : quotedFrom done (c :: (cs ++ '"' :: rest)) =
          quotedFrom (c :: done) (cs ++ '"' :: rest) := by
        rw [quotedFrom] <;> simp_all
      rw [List.cons_append, hread, ih]
      simp
    | escaped c _ ih =>
      rw [List.cons_append, List.cons_append, quotedFrom, ih]
      simp

/-! ## §4 Positions -/

/-- The digits of a number are counted from the front or from the back. -/
theorem digitsValue_eq_decimal (digits : List Char) : digitsValue digits = decimal digits := by
  induction digits using List.reverseRecOn with
  | nil => rfl
  | append_singleton digits d ih =>
    have hlast : decimal (digits ++ [d]) = (d.toNat - 48) + 10 * decimal digits := by
      simp [decimal, Nat.ofDigits_cons]
    rw [hlast, ← ih]
    simp only [digitsValue, List.foldl_append, List.foldl_cons, List.foldl_nil]
    omega

/-- A value is found just where there are digits and the number is in range. -/
theorem indexValue?_eq_some_iff {negative : Bool} {digits : List Char} {i : Int} :
    indexValue? negative digits = some i ↔
      digits ≠ [] ∧
        (if negative then
          MachineWord.minSigned ≤ -(decimal digits : Int) ∧ i = -(decimal digits : Int)
        else (decimal digits : Int) ≤ MachineWord.maxSigned ∧ i = decimal digits) := by
  simp only [indexValue?, digitsValue_eq_decimal, MachineWord.minSigned, MachineWord.maxSigned]
  cases digits with
  | nil => simp
  | cons d digits =>
    cases negative <;> simp <;> omega

theorem head?_ne_hyphen {digits : List Char} (h : IsDigits digits) (rest : List Char) :
    (digits ++ rest).head? ≠ some '-' := by
  obtain ⟨d, digits, rfl⟩ := List.exists_cons_of_ne_nil h.1
  have hd := h.2 d List.mem_cons_self
  intro hhead
  obtain rfl : d = '-' := by simpa using hhead
  revert hd
  decide

/-- The digits of a number end before what is no digit. -/
theorem digits_append_cons {digits : List Char} (h : IsDigits digits) {c : Char}
    (hc : c.isDigit = false) (rest : List Char) :
    (digits ++ c :: rest).takeWhile Char.isDigit = digits ∧
      (digits ++ c :: rest).dropWhile Char.isDigit = c :: rest := by
  rw [List.takeWhile_append_of_pos h.2, List.dropWhile_append_of_pos h.2]
  simp [hc]

theorem digits_append {digits : List Char} (h : IsDigits digits) (rest : List Char) :
    (digits ++ ']' :: rest).takeWhile Char.isDigit = digits ∧
      (digits ++ ']' :: rest).dropWhile Char.isDigit = ']' :: rest :=
  digits_append_cons h (by decide) rest

/-- What is closed is closed by a bracket, which is read away. -/
theorem close_eq_ok_iff {s s' : Segment} {cs rest : List Char} :
    close s cs = .ok (s', rest) ↔ s' = s ∧ cs = ']' :: rest := by
  unfold close
  split
  next => simp
  next => simp [eq_comm]
  next c tail hne => simp_all

/-- The text of a sign. -/
def sign (negative : Bool) : List Char :=
  if negative then ['-'] else []

/-- Every text begins with a sign or without one. -/
theorem exists_sign (cs : List Char) :
    ∃ negative tail, cs = sign negative ++ tail ∧ (negative = false → tail.head? ≠ some '-') := by
  by_cases hhead : cs.head? = some '-'
  · obtain ⟨tail, rfl⟩ := List.head?_eq_some_iff.mp hhead
    exact ⟨true, tail, rfl, by simp⟩
  · exact ⟨false, cs, rfl, fun _ => hhead⟩

/-- Behind the sign, the digits are taken to the last one. -/
theorem position_sign (negative : Bool) (cs : List Char)
    (hsign : negative = false → cs.head? ≠ some '-') :
    position (sign negative ++ cs) =
      (indexValue? negative (cs.takeWhile Char.isDigit)).elim
        (.error ⟨.invalidIndex (String.ofList (sign negative ++ cs.takeWhile Char.isDigit)),
          sign negative ++ cs⟩)
        fun i => close (.index i) (cs.dropWhile Char.isDigit) := by
  cases negative with
  | true =>
    cases hvalue : indexValue? true (cs.takeWhile Char.isDigit) <;>
      simp [position, sign, hvalue]
  | false =>
    have hhead : (cs.head? == some '-') = false := by simpa using hsign rfl
    cases hvalue : indexValue? false (cs.takeWhile Char.isDigit) <;>
      simp [position, sign, hhead, hvalue]

/-- The bracket has to follow the digits. -/
theorem position_sign_eq_ok_iff (negative : Bool) (cs : List Char) {rest : List Char} {s : Segment}
    (hsign : negative = false → cs.head? ≠ some '-') :
    position (sign negative ++ cs) = .ok (s, rest) ↔
      ∃ i, indexValue? negative (cs.takeWhile Char.isDigit) = some i ∧ s = .index i ∧
        cs.dropWhile Char.isDigit = ']' :: rest := by
  rw [position_sign negative cs hsign]
  cases indexValue? negative (cs.takeWhile Char.isDigit) with
  | none => simp
  | some i => simp [close_eq_ok_iff]

/-- What is read as a position is a numeral up to the closing bracket. -/
theorem position_eq_ok_iff {cs rest : List Char} {s : Segment} :
    position cs = .ok (s, rest) ↔
      ∃ body i, cs = body ++ ']' :: rest ∧ Numeral body i ∧ s = .index i := by
  constructor
  · intro h
    -- The sign is split off first, and then the digits that are taken.
    obtain ⟨negative, tail, rfl, hsign⟩ := exists_sign cs
    obtain ⟨i, hvalue, rfl, hrest⟩ := (position_sign_eq_ok_iff negative tail hsign).mp h
    obtain ⟨hne, hbounds⟩ := indexValue?_eq_some_iff.mp hvalue
    have hdigits : IsDigits (tail.takeWhile Char.isDigit) :=
      ⟨hne, fun c hc => List.mem_takeWhile_imp hc⟩
    have hsplit : tail = tail.takeWhile Char.isDigit ++ ']' :: rest := by
      rw [← hrest, List.takeWhile_append_dropWhile]
    refine ⟨sign negative ++ tail.takeWhile Char.isDigit, i, ?_, ?_, rfl⟩
    · rw [List.append_assoc, ← hsplit]
    · cases negative with
      | false =>
        obtain ⟨hle, rfl⟩ := hbounds
        exact .unsigned hdigits hle
      | true =>
        obtain ⟨hle, rfl⟩ := hbounds
        exact .negative hdigits hle
  · rintro ⟨body, i, rfl, hnumeral, rfl⟩
    cases hnumeral with
    -- The digits end at the bracket, so they are taken whole.
    | unsigned hdigits hle =>
      obtain ⟨htake, hdrop⟩ := digits_append hdigits rest
      refine (position_sign_eq_ok_iff false (body ++ ']' :: rest) ?_).mpr ⟨_, ?_, rfl, hdrop⟩
      · intro _
        exact head?_ne_hyphen hdigits _
      · rw [htake]
        exact indexValue?_eq_some_iff.mpr ⟨hdigits.1, hle, rfl⟩
    | @negative ds hdigits hle =>
      obtain ⟨htake, hdrop⟩ := digits_append hdigits rest
      refine (position_sign_eq_ok_iff true (ds ++ ']' :: rest) (by simp)).mpr ⟨_, ?_, rfl, hdrop⟩
      rw [htake]
      exact indexValue?_eq_some_iff.mpr ⟨hdigits.1, hle, rfl⟩

/-! ## §5 Segments -/

/-- What starts a numeral starts no quoted name. -/
theorem Numeral.head {cs : List Char} {i : Int} (h : Numeral cs i) :
    ∃ c rest, cs = c :: rest ∧ (c = '-' ∨ c.isDigit = true) := by
  cases h with
  | unsigned hdigits _ =>
    obtain ⟨c, rest, rfl⟩ := List.exists_cons_of_ne_nil hdigits.1
    exact ⟨c, rest, rfl, .inr (hdigits.2 c List.mem_cons_self)⟩
  | negative _ _ => exact ⟨'-', _, rfl, .inl rfl⟩

theorem bracket_quote (cs : List Char) :
    bracket ('"' :: cs) =
      match quotedFrom [] cs with
      | some (name, rest) => close (.field name) rest
      | none => .error ⟨.unterminatedString, '"' :: cs⟩ :=
  rfl

/-- Between brackets there is a quoted name or a position, as the first character tells. -/
theorem bracket_of_ne_quote {c : Char} {cs : List Char} (hc : c ≠ '"') :
    bracket (c :: cs) =
      if c = '-' || c.isDigit then position (c :: cs)
      else .error ⟨.unexpectedInBrackets c, c :: cs⟩ := by
  unfold bracket
  split <;> simp_all

/-- What is read after an opening bracket is a segment in brackets. -/
theorem bracket_eq_ok_iff {cs rest : List Char} {s : Segment} :
    bracket cs = .ok (s, rest) ↔ ∃ body, '[' :: cs = body ++ rest ∧ Bracketed body s := by
  constructor
  · intro h
    cases cs with
    | nil => cases h
    | cons c cs =>
      by_cases hc : c = '"'
      · subst hc
        rw [bracket_quote] at h
        cases hquoted : quotedFrom [] cs with
        | none => simp [hquoted] at h
        | some found =>
          obtain ⟨name, tail⟩ := found
          obtain ⟨body, content, rfl, hquotes, rfl⟩ := quotedFrom_eq_some_iff.mp hquoted
          simp only [hquoted] at h
          obtain ⟨rfl, rfl⟩ := close_eq_ok_iff.mp h
          exact ⟨_, by simp, .quoted hquotes⟩
      · rw [bracket_of_ne_quote hc] at h
        split at h
        next =>
          obtain ⟨body, i, hbody, hnumeral, rfl⟩ := position_eq_ok_iff.mp h
          exact ⟨_, by simp [hbody], .position hnumeral⟩
        next => cases h
  · rintro ⟨body, hbody, hbracketed⟩
    cases hbracketed with
    | @quoted body name hquotes =>
      obtain rfl : cs = '"' :: (body ++ '"' :: ']' :: rest) := by simpa using hbody
      have hquoted : quotedFrom [] (body ++ '"' :: ']' :: rest) =
          some (String.ofList name, ']' :: rest) :=
        quotedFrom_eq_some_iff.mpr ⟨body, name, rfl, hquotes, rfl⟩
      rw [bracket_quote, hquoted]
      exact close_eq_ok_iff.mpr ⟨rfl, rfl⟩
    | @position body i hnumeral =>
      obtain rfl : cs = body ++ ']' :: rest := by simpa using hbody
      obtain ⟨c, tail, rfl, hc⟩ := hnumeral.head
      -- No digit and no hyphen is a quote.
      have hquote : c ≠ '"' := by
        rintro rfl
        revert hc
        decide
      rw [List.cons_append, bracket_of_ne_quote hquote, if_pos (by simpa using hc)]
      exact position_eq_ok_iff.mpr ⟨_, i, rfl, hnumeral, rfl⟩

/-- No character of a name follows, so that a name is read no further. -/
def EndsName (cs : List Char) : Prop :=
  ∀ c, cs.head? = some c → isNameChar c = false

theorem bracketed_head {cs : List Char} {s : Segment} (h : Bracketed cs s) :
    ∃ body, cs = '[' :: body := by
  cases h with
  | quoted _ => exact ⟨_, rfl⟩
  | position _ => exact ⟨_, rfl⟩

theorem isNameStart_bracket : isNameStart '[' = false := by decide

theorem isNameChar_bracket : isNameChar '[' = false := by decide

theorem isNameChar_point : isNameChar '.' = false := by decide

theorem segment_bracket (cs : List Char) : segment ('[' :: cs) = bracket cs := rfl

/-- A name is taken to its longest extent. -/
theorem segment_of_isNameStart {c : Char} (hc : isNameStart c = true) (cs : List Char) :
    segment (c :: cs) =
      .ok (.field (String.ofList ((c :: cs).takeWhile isNameChar)),
        (c :: cs).dropWhile isNameChar) := by
  have hne : c ≠ '[' := by
    rintro rfl
    rw [isNameStart_bracket] at hc
    cases hc
  unfold segment
  split <;> simp_all

/-- What is read as a segment is one. -/
theorem piece_of_segment {cs rest : List Char} {s : Segment} (h : segment cs = .ok (s, rest)) :
    ∃ body, cs = body ++ rest ∧ Piece body s := by
  cases cs with
  | nil => cases h
  | cons c cs =>
    by_cases hbracket : c = '['
    · subst hbracket
      obtain ⟨body, hbody, hbracketed⟩ := bracket_eq_ok_iff.mp h
      exact ⟨body, hbody, .bracketed hbracketed⟩
    · cases hstart : isNameStart c with
      | false =>
        have hrefuse : segment (c :: cs) = .error ⟨.unexpected c, c :: cs⟩ := by
          unfold segment
          split <;> simp_all
        rw [hrefuse] at h
        cases h
      | true =>
        rw [segment_of_isNameStart hstart] at h
        obtain ⟨rfl, rfl⟩ := Prod.mk.inj (Except.ok.inj h)
        refine ⟨(c :: cs).takeWhile isNameChar, List.takeWhile_append_dropWhile.symm, .name ?_⟩
        have hchar := isNameChar_of_isNameStart hstart
        rw [List.takeWhile_cons_of_pos hchar, isName_iff]
        exact ⟨hstart, fun d hd => List.mem_takeWhile_imp hd⟩

/-- A segment is read as such where nothing follows that could belong to its name. -/
theorem segment_of_piece {body rest : List Char} {s : Segment} (h : Piece body s)
    (hrest : EndsName rest) : segment (body ++ rest) = .ok (s, rest) := by
  cases h with
  | bracketed hbracketed =>
    obtain ⟨tail, rfl⟩ := bracketed_head hbracketed
    rw [List.cons_append, segment_bracket]
    exact bracket_eq_ok_iff.mpr ⟨_, rfl, hbracketed⟩
  | name hname =>
    obtain ⟨c, tail, rfl, -⟩ := id hname
    obtain ⟨hstart, htail⟩ := isName_iff.mp hname
    have hall : ∀ d ∈ c :: tail, isNameChar d = true := by
      simpa using ⟨isNameChar_of_isNameStart hstart, htail⟩
    -- The name goes as far as the rest, of which nothing belongs to it.
    have hstop : rest.takeWhile isNameChar = [] ∧ rest.dropWhile isNameChar = rest := by
      cases rest with
      | nil => exact ⟨rfl, rfl⟩
      | cons d rest => simp [hrest d rfl]
    rw [List.cons_append, segment_of_isNameStart hstart, ← List.cons_append,
      List.takeWhile_append_of_pos hall, List.dropWhile_append_of_pos hall, hstop.1, hstop.2,
      List.append_nil]

/-! ## §6 Paths -/

/-- Nothing that continues a path could belong to a name. -/
theorem Continues.endsName {cs : List Char} {path : List Segment} (h : Continues cs path) :
    EndsName cs := by
  intro c hc
  cases h with
  | nil => cases hc
  | pointed _ _ =>
    obtain rfl := Option.some.inj hc
    exact isNameChar_point
  | bracketed hbracketed _ =>
    obtain ⟨body, rfl⟩ := bracketed_head hbracketed
    obtain rfl := Option.some.inj hc
    exact isNameChar_bracket

theorem piece_ne_nil {cs : List Char} {s : Segment} (h : Piece cs s) : cs ≠ [] := by
  cases h with
  | name hname =>
    obtain ⟨c, rest, rfl, -⟩ := hname
    exact List.cons_ne_nil _ _
  | bracketed hbracketed =>
    obtain ⟨body, rfl⟩ := bracketed_head hbracketed
    exact List.cons_ne_nil _ _

theorem segmentsFrom_point (fuel : Nat) (done : List Segment) (cs : List Char) :
    segmentsFrom (fuel + 1) done ('.' :: cs) =
      match segment cs with
      | .ok (s, rest) => segmentsFrom fuel (s :: done) rest
      | .error e => .error e :=
  rfl

theorem segmentsFrom_bracket (fuel : Nat) (done : List Segment) (cs : List Char) :
    segmentsFrom (fuel + 1) done ('[' :: cs) =
      match bracket cs with
      | .ok (s, rest) => segmentsFrom fuel (s :: done) rest
      | .error e => .error e :=
  rfl

/-- What is read as further segments continues a path. Every segment takes up some of the text, so
the fuel for all of the text is enough. -/
theorem continues_of_segmentsFrom {fuel : Nat} {done path : List Segment} {cs : List Char}
    (hfuel : cs.length < fuel) (h : segmentsFrom fuel done cs = .ok path) :
    ∃ more, path = done.reverse ++ more ∧ Continues cs more := by
  induction fuel generalizing done cs with
  | zero => exact absurd hfuel (Nat.not_lt_zero _)
  | succ fuel ih =>
    cases cs with
    | nil =>
      obtain rfl := Except.ok.inj h
      exact ⟨[], by simp, .nil⟩
    | cons c cs =>
      -- A point has to be followed by a segment, and a bracket begins one.
      by_cases hpoint : c = '.'
      · subst hpoint
        rw [segmentsFrom_point] at h
        cases hsegment : segment cs with
        | error e => simp [hsegment] at h
        | ok found =>
          obtain ⟨s, rest⟩ := found
          simp only [hsegment] at h
          obtain ⟨body, rfl, hpiece⟩ := piece_of_segment hsegment
          -- The segment and its point are gone from the text that is left.
          have hrest : rest.length < fuel := by
            simp only [List.length_cons, List.length_append] at hfuel
            omega
          obtain ⟨more, rfl, hmore⟩ := ih hrest h
          exact ⟨s :: more, by simp, .pointed hpiece hmore⟩
      by_cases hbracket : c = '['
      · subst hbracket
        rw [segmentsFrom_bracket] at h
        cases hsegment : bracket cs with
        | error e => simp [hsegment] at h
        | ok found =>
          obtain ⟨s, rest⟩ := found
          simp only [hsegment] at h
          obtain ⟨body, hbody, hbracketed⟩ := bracket_eq_ok_iff.mp hsegment
          have hlength := congrArg List.length hbody
          have hpos : 0 < body.length := by
            obtain ⟨tail, rfl⟩ := bracketed_head hbracketed
            simp
          have hrest : rest.length < fuel := by
            simp only [List.length_cons, List.length_append] at hfuel hlength
            omega
          obtain ⟨more, rfl, hmore⟩ := ih hrest h
          exact ⟨s :: more, by simp, hbody ▸ .bracketed hbracketed hmore⟩
      · -- Anything else ends the reading with a refusal.
        simp [segmentsFrom] at h

/-- What continues a path is read as further segments. -/
theorem segmentsFrom_of_continues {fuel : Nat} {done path : List Segment} {cs : List Char}
    (hfuel : cs.length < fuel) (h : Continues cs path) :
    segmentsFrom fuel done cs = .ok (done.reverse ++ path) := by
  induction h generalizing fuel done with
  -- The fuel is for one more character than there is.
  | nil =>
    obtain ⟨fuel, rfl⟩ := Nat.exists_eq_add_of_lt hfuel
    simp [segmentsFrom]
  | @pointed body rest s path hpiece hmore ih =>
    obtain ⟨fuel, rfl⟩ : ∃ n, fuel = n + 1 := ⟨fuel - 1, by omega⟩
    -- The segment is read no further than it goes, as what follows ends a name.
    rw [List.cons_append, segmentsFrom_point, segment_of_piece hpiece hmore.endsName]
    dsimp only
    rw [ih (by simp at hfuel; omega)]
    simp
  | @bracketed body rest s path hbracketed hmore ih =>
    obtain ⟨fuel, rfl⟩ : ∃ n, fuel = n + 1 := ⟨fuel - 1, by omega⟩
    obtain ⟨tail, rfl⟩ := bracketed_head hbracketed
    have hread : bracket (tail ++ rest) = .ok (s, rest) :=
      bracket_eq_ok_iff.mpr ⟨_, rfl, hbracketed⟩
    rw [List.cons_append, segmentsFrom_bracket, hread]
    dsimp only
    rw [ih (by simp at hfuel; omega)]
    simp

/-- A path has at least one segment. -/
theorem segments_eq_ok_iff {cs : List Char} {path : List Segment} :
    segments cs = .ok path ↔
      ∃ body rest s more, cs = body ++ rest ∧ path = s :: more ∧ Piece body s ∧
        Continues rest more := by
  constructor
  · intro h
    unfold segments at h
    cases hsegment : segment cs with
    | error e => simp [hsegment] at h
    | ok found =>
      obtain ⟨s, rest⟩ := found
      simp only [hsegment] at h
      obtain ⟨body, rfl, hpiece⟩ := piece_of_segment hsegment
      obtain ⟨more, rfl, hmore⟩ := continues_of_segmentsFrom (Nat.lt_succ_self _) h
      exact ⟨body, rest, s, more, rfl, rfl, hpiece, hmore⟩
  · rintro ⟨body, rest, s, more, rfl, rfl, hpiece, hmore⟩
    simp only [segments, segment_of_piece hpiece hmore.endsName]
    exact segmentsFrom_of_continues (Nat.lt_succ_self _) hmore

/-- No segment starts with a point. -/
theorem piece_head_ne_point {cs : List Char} {s : Segment} (h : Piece cs s) (rest : List Char) :
    (cs ++ rest).head? ≠ some '.' := by
  cases h with
  | name hname =>
    obtain ⟨c, tail, rfl, hstart, -⟩ := hname
    intro hhead
    obtain rfl : c = '.' := by simpa using hhead
    revert hstart
    decide
  | bracketed hbracketed =>
    obtain ⟨body, rfl⟩ := bracketed_head hbracketed
    simp

/-- What is read as a trimmed query is one. -/
theorem parseTrimmed_eq_ok_iff {cs : List Char} {path : List Segment} :
    parseTrimmed cs = .ok path ↔ Writes cs path := by
  constructor
  · intro h
    -- The four ways to begin a query: with nothing, with a lone point, with a point, and with a
    -- segment.
    unfold parseTrimmed at h
    split at h
    next =>
      obtain rfl := Except.ok.inj h
      exact .blank
    next =>
      obtain rfl := Except.ok.inj h
      exact .point
    next =>
      obtain ⟨body, rest, s, more, rfl, rfl, hpiece, hmore⟩ := segments_eq_ok_iff.mp h
      exact .pointed hpiece hmore
    next =>
      obtain ⟨body, rest, s, more, rfl, rfl, hpiece, hmore⟩ := segments_eq_ok_iff.mp h
      exact .path hpiece hmore
  · intro h
    cases h with
    | blank => rfl
    | point => rfl
    | @path body rest s more hpiece hmore =>
      -- A query that begins with a segment does not begin with a point.
      have hread : parseTrimmed (body ++ rest) = segments (body ++ rest) := by
        have hhead := piece_head_ne_point hpiece rest
        have hne : body ++ rest ≠ [] := by simp [piece_ne_nil hpiece]
        unfold parseTrimmed
        split <;> simp_all
      rw [hread]
      exact segments_eq_ok_iff.mpr ⟨body, rest, s, more, rfl, rfl, hpiece, hmore⟩
    | @pointed body rest s more hpiece hmore =>
      have hread : parseTrimmed ('.' :: (body ++ rest)) = segments (body ++ rest) := by
        have hne : body ++ rest ≠ [] := by simp [piece_ne_nil hpiece]
        unfold parseTrimmed
        split <;> simp_all
      rw [List.cons_append, hread]
      exact segments_eq_ok_iff.mpr ⟨body, rest, s, more, rfl, rfl, hpiece, hmore⟩

/-! ## §7 Queries -/

/-- A query is accepted exactly if the grammar has it once the blanks around it are gone, and then it
is read as the path that the grammar gives it. Any other query is refused with a fault. -/
theorem parse_iff_writes (query : String) :
    ∃ t, (∀ t', Trims query.toList t' ↔ t' = t) ∧
      (∀ path, parse query = .ok path ↔ Writes t path) ∧
      ((∃ path, parse query = .ok path) ∨
        (∃ fault position, parse query = .error (fault, position)) ∧ ∀ path, ¬ Writes t path) := by
  have hiff : ∀ path, parse query = .ok path ↔ Writes (trimBlanks query.toList) path := by
    intro path
    rw [← parseTrimmed_eq_ok_iff, parse]
    cases parseTrimmed (trimBlanks query.toList) <;> simp [Except.mapError]
  refine ⟨trimBlanks query.toList, fun _ => trims_iff, hiff, ?_⟩
  -- The text either has a path, or is refused; what is refused has no derivation.
  cases hparse : parse query with
  | ok path => exact .inl ⟨path, rfl⟩
  | error e =>
    refine .inr ⟨⟨e.1, e.2, rfl⟩, ?_⟩
    intro path hwrites
    have hok := (hiff path).mpr hwrites
    rw [hparse] at hok
    cases hok

example :
    parse " .a[-1][\"b \\\" c\"].d " =
      .ok [.field "a", .index (-1), .field "b \" c", .field "d"] := by
  decide

end QueryPlayground.Path
