import QueryPlayground.Proofs.Path.Grammar

/-!
# Where a query goes wrong

A refused query is refused at a place. What stands before the place is the beginning of a query that
the parser accepts, and what stands there cannot follow: no accepted query begins with both. Two
faults are blamed on a whole token instead: a quoted name that does not end on its opening quote, and
a number that is no position on its first character.

Main statement: `blamed_of_parse_error`.
-/

namespace QueryPlayground.Path

open QueryPlayground.Text

/-! ## §1 Blame -/

/-- The parser accepts a text, which has no blanks at its ends. -/
def Accepts (cs : List Char) : Prop :=
  ∃ path, parseTrimmed cs = .ok path

/-- What a fault says about its place between two parts of a text, where some texts are `opened`, that
is, accepted or with an accepted beginning. -/
def Blamed (opened : List Char → Prop) (before after : List Char) : Fault → Prop
  | .unterminatedString => ∃ front rest, before = front ++ ['['] ∧ after = '"' :: rest
  | .invalidIndex digits =>
    ∃ front rest, before = front ++ ['['] ∧ after = digits.toList ++ rest ∧ digits.toList ≠ []
  | _ => ∀ c, after.head? = some c → ∀ more, ¬ opened (before ++ c :: more)

/-- A refusal stands behind the beginning of a whole text, at what cannot follow. -/
structure Blames (whole opened : List Char → Prop) (before : List Char) (r : Refusal) : Prop where
  viable : ∃ more, whole (before ++ more)
  blamed : Blamed opened before r.rest r.fault

variable {whole whole' opened opened' : List Char → Prop} {before cs rest : List Char} {r : Refusal}
  {s : Segment}

/-- With a text in front, a refusal stands as it stood without. -/
theorem Blames.prepend (h : Blames whole opened before r) (front : List Char)
    (hwhole : ∀ more, whole (before ++ more) → whole' (front ++ (before ++ more)))
    (hopened : ∀ c more, r.rest.head? = some c → opened' (front ++ (before ++ c :: more)) →
      opened (before ++ c :: more)) :
    Blames whole' opened' (front ++ before) r := by
  obtain ⟨⟨more, hmore⟩, hblamed⟩ := h
  constructor
  · refine ⟨more, ?_⟩
    rw [List.append_assoc]
    exact hwhole _ hmore
  -- The two faults that are blamed on a token speak of what stands between the texts, the others of
  -- texts that go on.
  · obtain ⟨fault, rest⟩ := r
    cases fault with
    | unterminatedString =>
      obtain ⟨start, rest, rfl, hrest⟩ := hblamed
      exact ⟨front ++ start, rest, by simp, hrest⟩
    | invalidIndex digits =>
      obtain ⟨start, rest, rfl, hrest⟩ := hblamed
      exact ⟨front ++ start, rest, by simp, hrest⟩
    | _ =>
      intro c hc more hopen
      rw [List.append_assoc] at hopen
      exact hblamed c hc more (hopened c more hc hopen)

/-! ## §2 Segments in brackets -/

/-- What does not close a segment is blamed on the character there, or on the end of the text. -/
theorem close_eq_error (opened : List Char → Prop) (h : close s cs = .error r) :
    r.rest = cs ∧ cs.head? ≠ some ']' ∧ ∀ before,
      Blamed opened before cs r.fault =
        ∀ c, cs.head? = some c → ∀ more, ¬ opened (before ++ c :: more) := by
  unfold close at h
  split at h
  next =>
    cases h
    exact ⟨rfl, by simp, fun _ => rfl⟩
  next => cases h
  next c tail hne =>
    cases h
    exact ⟨rfl, by simpa using hne, fun _ => rfl⟩

/-- Where no bracket closes a segment, none that closes it can come later. -/
theorem not_close_cons {c : Char} (hc : c ≠ ']') (more : List Char) (p : Segment × List Char) :
    close s (c :: more) ≠ .ok p := by
  intro h
  obtain ⟨s', rest⟩ := p
  obtain ⟨-, hcons⟩ := close_eq_ok_iff.mp h
  exact hc (List.cons.inj hcons).1

/-- The texts that begin with a segment. -/
def Starts (cs : List Char) : Prop :=
  ∃ s rest, segment cs = .ok (s, rest)

/-- The texts that are a segment. -/
def IsPiece (cs : List Char) : Prop :=
  ∃ s, Piece cs s

/-- The texts that are a segment in brackets. -/
def IsBracketed (cs : List Char) : Prop :=
  ∃ s, Bracketed cs s

/-- What is read in brackets to the end of a text is a segment in brackets. -/
theorem isBracketed_of_bracket {body : List Char} (h : bracket body = .ok (s, [])) :
    IsBracketed ('[' :: body) := by
  obtain ⟨text, htext, hbracketed⟩ := bracket_eq_ok_iff.mp h
  rw [List.append_nil] at htext
  exact ⟨s, htext ▸ hbracketed⟩

/-- There is such a segment. -/
theorem isBracketed_zero : IsBracketed ['[', '0', ']'] :=
  isBracketed_of_bracket (s := .index 0) rfl

/-- A fault in a quoted name or behind it. -/
theorem blames_of_quoted (h : bracket ('"' :: cs) = .error r) :
    ∃ before, '"' :: cs = before ++ r.rest ∧ Blames IsBracketed Starts ('[' :: before) r := by
  rw [bracket_quote] at h
  cases hquoted : quotedFrom [] cs with
  | none =>
    -- The name does not end, and its opening quote is blamed.
    simp only [hquoted] at h
    cases h
    exact ⟨[], rfl, ⟨_, isBracketed_zero⟩, [], cs, rfl, rfl⟩
  | some found =>
    obtain ⟨name, after⟩ := found
    simp only [hquoted] at h
    obtain ⟨body, content, rfl, hquotes, rfl⟩ := quotedFrom_eq_some_iff.mp hquoted
    obtain ⟨hrest, hhead, hblamed⟩ := close_eq_error Starts h
    -- Whatever follows the closing quote, the name is read as before.
    have hread (rest : List Char) : bracket ('"' :: (body ++ '"' :: rest)) =
        close (.field (String.ofList ([].reverse ++ content))) rest := by
      rw [bracket_quote, quotedFrom_eq_some_iff.mpr ⟨body, content, rfl, hquotes, rfl⟩]
    refine ⟨'"' :: (body ++ ['"']), by simp [hrest], ⟨[']'], ?_⟩, ?_⟩
    · rw [List.cons_append, List.cons_append, List.append_assoc]
      exact isBracketed_of_bracket (hread [']'])
    · rw [hrest, hblamed]
      rintro c hc more ⟨s, rest, hsegment⟩
      rw [List.cons_append, List.cons_append, List.append_assoc, segment_bracket] at hsegment
      refine not_close_cons ?_ more _ ((hread (c :: more)).symm.trans hsegment)
      rintro rfl
      exact hhead hc

/-- A minus or a digit begins a number. -/
theorem bracket_of_number {c : Char} (hc : c = '-' ∨ c.isDigit = true) (cs : List Char) :
    bracket (c :: cs) = position (c :: cs) := by
  have hquote : c ≠ '"' := by
    rintro rfl
    revert hc
    decide
  rw [bracket_of_ne_quote hquote, if_pos (by simpa using hc)]

/-- A fault in a number or behind it. -/
theorem blames_of_number {c : Char} (hc : c = '-' ∨ c.isDigit = true)
    (h : bracket (c :: cs) = .error r) :
    ∃ before, c :: cs = before ++ r.rest ∧ Blames IsBracketed Starts ('[' :: before) r := by
  obtain ⟨negative, tail, hsplit, hsign⟩ := exists_sign (c :: cs)
  -- The number is its sign and the digits behind it, and there is one or the other.
  obtain ⟨number, hnumber⟩ : ∃ number,
      sign negative ++ tail.takeWhile Char.isDigit = c :: number := by
    cases negative with
    | true =>
      obtain ⟨rfl, -⟩ := List.cons.inj hsplit
      exact ⟨_, rfl⟩
    -- Without a minus the first character is a digit.
    | false =>
      obtain rfl : c :: cs = tail := hsplit
      have hdigit : c.isDigit = true := by
        rcases hc with rfl | hdigit
        · exact absurd rfl (hsign rfl)
        · exact hdigit
      exact ⟨_, by rw [List.takeWhile_cons_of_pos hdigit]; rfl⟩
  have htext : c :: cs = c :: number ++ tail.dropWhile Char.isDigit := by
    rw [hsplit, ← hnumber, List.append_assoc, List.takeWhile_append_dropWhile]
  rw [bracket_of_number hc, hsplit, position_sign negative tail hsign] at h
  cases hvalue : indexValue? negative (tail.takeWhile Char.isDigit) with
  | none =>
    -- The number is no position, and its first character is blamed.
    simp only [hvalue, Option.elim_none] at h
    cases h
    refine ⟨[], hsplit, ⟨_, isBracketed_zero⟩, [], tail.dropWhile Char.isDigit, rfl, ?_, ?_⟩
    · simp
    · simp [hnumber]
  | some i =>
    simp only [hvalue, Option.elim_some] at h
    obtain ⟨hrest, hhead, hblamed⟩ := close_eq_error Starts h
    have hdigits : IsDigits (tail.takeWhile Char.isDigit) :=
      ⟨(indexValue?_eq_some_iff.mp hvalue).1, fun d hd => List.mem_takeWhile_imp hd⟩
    -- Whatever follows the digits, if it is none itself, the number is read as before.
    have hread {d : Char} (hd : d.isDigit = false) (rest : List Char) :
        bracket (c :: (number ++ d :: rest)) = close (.index i) (d :: rest) := by
      obtain ⟨htake, hdrop⟩ := digits_append_cons hdigits hd rest
      have hsign' : negative = false → (tail.takeWhile Char.isDigit ++ d :: rest).head? ≠ some '-' :=
        fun _ => head?_ne_hyphen hdigits _
      rw [bracket_of_number hc, ← List.cons_append, ← hnumber, List.append_assoc,
        position_sign negative _ hsign', htake, hdrop, hvalue]
      rfl
    refine ⟨c :: number, hrest ▸ htext, ⟨[']'], ?_⟩, ?_⟩
    · exact isBracketed_of_bracket (hread (by decide) [])
    · rw [hrest, hblamed]
      rintro d hd more ⟨s, rest, hsegment⟩
      -- What stops the digits is none.
      have hdigit : d.isDigit = false := by
        have hnot := List.head?_dropWhile_not Char.isDigit tail
        rw [hd] at hnot
        simpa using hnot
      rw [List.cons_append, List.cons_append, segment_bracket] at hsegment
      refine not_close_cons ?_ more _ ((hread hdigit more).symm.trans hsegment)
      rintro rfl
      exact hhead hd

/-- A fault in brackets is one of a name, of a number, or of what is neither. -/
theorem blames_of_bracket (h : bracket cs = .error r) :
    ∃ before, cs = before ++ r.rest ∧ Blames IsBracketed Starts ('[' :: before) r := by
  cases cs with
  | nil =>
    cases h
    exact ⟨[], rfl, ⟨_, isBracketed_zero⟩, by simp [Blamed]⟩
  | cons c cs =>
    by_cases hquote : c = '"'
    · subst hquote
      exact blames_of_quoted h
    by_cases hnumber : c = '-' ∨ c.isDigit = true
    · exact blames_of_number hnumber h
    · -- Neither a quote nor a number begins here.
      have hrefuse (more : List Char) :
          bracket (c :: more) = .error ⟨.unexpectedInBrackets c, c :: more⟩ := by
        rw [bracket_of_ne_quote hquote, if_neg (by simpa using hnumber)]
      rw [hrefuse] at h
      cases h
      refine ⟨[], rfl, ⟨_, isBracketed_zero⟩, ?_⟩
      rintro d hd more ⟨s, rest, hsegment⟩
      obtain rfl : c = d := by simpa using hd
      rw [List.singleton_append, segment_bracket, hrefuse] at hsegment
      cases hsegment

/-! ## §3 Segments -/

/-- A fault in a segment stands behind the beginning of one, and behind the bracket if there is one. -/
theorem blames_of_segment (h : segment cs = .error r) :
    ∃ before, cs = before ++ r.rest ∧ Blames IsPiece Starts before r ∧
      (cs.head? = some '[' → before ≠ []) := by
  -- Where nothing was read yet, a name can follow.
  have hname : IsPiece ['a'] := ⟨_, .name ⟨'a', [], rfl, by decide, by simp⟩⟩
  cases cs with
  | nil =>
    cases h
    exact ⟨[], rfl, ⟨⟨_, hname⟩, by simp [Blamed]⟩, by simp⟩
  | cons c cs =>
    by_cases hbracket : c = '['
    · subst hbracket
      -- A fault in brackets stands as it stood there.
      obtain ⟨before, rfl, hblames⟩ := blames_of_bracket h
      refine ⟨'[' :: before, rfl, ?_, fun _ => List.cons_ne_nil _ _⟩
      exact hblames.prepend [] (fun _ hwhole => hwhole.imp fun _ => .bracketed)
        fun _ _ _ hopened => hopened
    cases hstart : isNameStart c with
    | true =>
      -- A name is read from any character that begins one.
      rw [segment_of_isNameStart hstart] at h
      cases h
    | false =>
      have hrefuse (more : List Char) : segment (c :: more) = .error ⟨.unexpected c, c :: more⟩ := by
        unfold segment
        split <;> simp_all
      rw [hrefuse] at h
      cases h
      refine ⟨[], rfl, ⟨⟨_, hname⟩, ?_⟩, by simp [hbracket]⟩
      rintro d hd more ⟨s, rest, hsegment⟩
      obtain rfl : c = d := by simpa using hd
      rw [List.nil_append, hrefuse] at hsegment
      cases hsegment

/-- A segment that was read is read again where the text behind it begins alike. -/
theorem segment_append_of_head? (h : segment cs = .ok (s, rest)) :
    ∃ body, cs = body ++ rest ∧ Piece body s ∧
      ∀ rest' : List Char, rest'.head? = rest.head? → segment (body ++ rest') = .ok (s, rest') := by
  obtain ⟨body, rfl, hpiece⟩ := piece_of_segment h
  refine ⟨body, rfl, hpiece, fun rest' hhead => ?_⟩
  cases id hpiece with
  | bracketed hbracketed =>
    obtain ⟨tail, rfl⟩ := bracketed_head hbracketed
    rw [List.cons_append, segment_bracket]
    exact bracket_eq_ok_iff.mpr ⟨_, rfl, hbracketed⟩
  | name hname =>
    -- The name was read to its end, so no character of a name follows it.
    apply segment_of_piece hpiece
    intro c hc
    rw [hhead] at hc
    obtain ⟨d, tail, rfl, -⟩ := id hname
    obtain ⟨hstart, -⟩ := isName_iff.mp hname
    rw [List.cons_append, segment_of_isNameStart hstart] at h
    obtain ⟨-, hdrop⟩ := Prod.mk.inj (Except.ok.inj h)
    have hnot := List.head?_dropWhile_not isNameChar (d :: (tail ++ rest))
    rw [hdrop, hc] at hnot
    simpa using hnot

/-! ## §4 Paths -/

/-- The texts that continue a path. -/
def IsTail (cs : List Char) : Prop :=
  ∃ path, Continues cs path

/-- Behind some text a segment is due in the texts of a language, maybe one in brackets, and then
what continues a path. -/
structure Due (language : List Char → Prop) (front : List Char) (bracketed : Bool) : Prop where
  whole : ∀ body s more, Piece body s → (bracketed = true → body.head? = some '[') → IsTail more →
    language (front ++ (body ++ more))
  opened : ∀ cs, (bracketed = true → cs.head? = some '[') → language (front ++ cs) →
    ∃ s rest, segment cs = .ok (s, rest) ∧ IsTail rest

/-- A fault in the segment, or behind it, is a fault of the whole text. -/
theorem Due.blames {language : List Char → Prop} {front : List Char} {bracketed : Bool}
    (hdue : Due language front bracketed) (hcs : bracketed = true → cs.head? = some '[')
    (h : segment cs = .error r ∨ ∃ s rest, segment cs = .ok (s, rest) ∧
      ∃ before, rest = before ++ r.rest ∧ Blames IsTail IsTail before r) :
    ∃ before, front ++ cs = before ++ r.rest ∧ Blames language language before r := by
  rcases h with herror | ⟨s, rest, hread, before, rfl, hblames⟩
  · -- The fault is in the segment, which can end in a way that the language goes on with.
    obtain ⟨before, rfl, hblames, hne⟩ := blames_of_segment herror
    -- A text with the same beginning has a bracket in front if one is due.
    have hhead (more : List Char) (hb : bracketed = true) : (before ++ more).head? = some '[' := by
      obtain ⟨c, tail, rfl⟩ := List.exists_cons_of_ne_nil (hne (hcs hb))
      exact hcs hb
    refine ⟨front ++ before, by simp, hblames.prepend front (fun more hwhole => ?_) ?_⟩
    · obtain ⟨s, hpiece⟩ := hwhole
      have htext := hdue.whole _ s [] hpiece (hhead more) ⟨[], .nil⟩
      rwa [List.append_nil] at htext
    · intro c more _ hopened
      obtain ⟨s, rest, hsegment, -⟩ := hdue.opened _ (hhead _) hopened
      exact ⟨s, rest, hsegment⟩
  · -- The fault is behind the segment.
    obtain ⟨body, rfl, hpiece, hagain⟩ := segment_append_of_head? hread
    obtain ⟨d, tail, rfl⟩ := List.exists_cons_of_ne_nil (piece_ne_nil hpiece)
    refine ⟨front ++ (d :: tail) ++ before, by simp, hblames.prepend _ (fun more htail => ?_) ?_⟩
    · rw [List.append_assoc]
      exact hdue.whole _ s _ hpiece hcs htail
    · intro c more hc hopened
      rw [List.append_assoc] at hopened
      obtain ⟨s', rest', hsegment, htail⟩ :=
        hdue.opened (d :: tail ++ (before ++ c :: more)) hcs hopened
      -- The segment is the one that was read before, as what follows it begins alike.
      have hhead : (before ++ c :: more).head? = (before ++ r.rest).head? := by
        rw [List.head?_append, List.head?_append, hc, List.head?_cons]
      rw [hagain _ hhead] at hsegment
      obtain ⟨-, rfl⟩ := Prod.mk.inj (Except.ok.inj hsegment)
      exact htail

/-- What reads a segment and goes on fails in the segment or behind it. -/
theorem fails_of_segment {more : Segment → List Char → Except Refusal (List Segment)}
    (h : (match segment cs with
      | .ok (s, rest) => more s rest
      | .error e => .error e) = .error r) :
    segment cs = .error r ∨ ∃ s rest, segment cs = .ok (s, rest) ∧ more s rest = .error r := by
  cases hsegment : segment cs with
  | error e =>
    simp only [hsegment] at h
    exact .inl (congrArg _ (Except.error.inj h))
  | ok found =>
    simp only [hsegment] at h
    exact .inr ⟨found.1, found.2, rfl, h⟩

/-- Behind a point a segment is due, whichever it is. -/
theorem due_point : Due IsTail ['.'] false := by
  constructor
  · rintro body s more hpiece - ⟨path, hmore⟩
    exact ⟨s :: path, @Continues.pointed body _ _ _ hpiece hmore⟩
  · rintro cs - ⟨path, hcontinues⟩
    generalize htext : ['.'] ++ cs = text at hcontinues
    cases hcontinues with
    | nil => cases htext
    | pointed hpiece hmore =>
      obtain rfl := (List.cons.inj htext).2
      exact ⟨_, _, segment_of_piece hpiece hmore.endsName, _, hmore⟩
    | bracketed hbracketed hmore =>
      obtain ⟨body, rfl⟩ := bracketed_head hbracketed
      cases (List.cons.inj htext).1

/-- Without a point a segment in brackets is due. -/
theorem due_bracket : Due IsTail [] true := by
  constructor
  · rintro body s more hpiece hhead ⟨path, hmore⟩
    cases hpiece with
    | bracketed hbracketed => exact ⟨s :: path, @Continues.bracketed body _ _ _ hbracketed hmore⟩
    | name hname =>
      -- No name begins with a bracket.
      obtain ⟨c, tail, rfl, -⟩ := id hname
      obtain rfl : c = '[' := by simpa using hhead rfl
      have hstart := (isName_iff.mp hname).1
      rw [isNameStart_bracket] at hstart
      cases hstart
  · rintro cs hhead ⟨path, hcontinues⟩
    rw [List.nil_append] at hcontinues
    cases hcontinues with
    | nil => cases hhead rfl
    | pointed => cases hhead rfl
    | bracketed hbracketed hmore =>
      exact ⟨_, _, segment_of_piece (.bracketed hbracketed) hmore.endsName, _, hmore⟩

/-- A fault in what continues a path is one of its segments, or stands where none begins. -/
theorem blames_of_segmentsFrom {fuel : Nat} {done : List Segment}
    (h : segmentsFrom fuel done cs = .error r) :
    ∃ before, cs = before ++ r.rest ∧ Blames IsTail IsTail before r := by
  -- By induction on the fuel, which the text does not exhaust: the segment in front is read, and
  -- the rest of it fails as the induction says.
  induction fuel generalizing done cs with
  | zero => cases h
  | succ fuel ih =>
    cases cs with
    | nil => cases h
    | cons c cs =>
      by_cases hpoint : c = '.'
      · subst hpoint
        rw [segmentsFrom_point] at h
        apply due_point.blames (by simp)
        exact (fails_of_segment h).imp_right fun ⟨s, rest, hread, h⟩ => ⟨s, rest, hread, ih h⟩
      by_cases hbracket : c = '['
      · subst hbracket
        rw [segmentsFrom_bracket, ← segment_bracket] at h
        apply due_bracket.blames (by simp)
        exact (fails_of_segment h).imp_right fun ⟨s, rest, hread, h⟩ => ⟨s, rest, hread, ih h⟩
      · -- A path may end here, and goes on with a point or a bracket only.
        simp [segmentsFrom] at h
        subst h
        refine ⟨[], rfl, ⟨[], [], .nil⟩, ?_⟩
        rintro d hd more ⟨path, hcontinues⟩
        obtain rfl : c = d := by simpa using hd
        generalize htext : [] ++ c :: more = text at hcontinues
        cases hcontinues with
        | nil => cases htext
        | pointed => exact hpoint (List.cons.inj htext).1
        | bracketed hbracketed _ =>
          obtain ⟨body, rfl⟩ := bracketed_head hbracketed
          exact hbracket (List.cons.inj htext).1

/-- The texts of a segment and those that follow it. -/
def IsPath (cs : List Char) : Prop :=
  ∃ path, segments cs = .ok path

/-- A path is a segment and what continues it. -/
theorem isPath_iff : IsPath cs ↔ ∃ body rest s, cs = body ++ rest ∧ Piece body s ∧ IsTail rest := by
  constructor
  · rintro ⟨path, hpath⟩
    obtain ⟨body, rest, s, more, rfl, -, hpiece, hmore⟩ := segments_eq_ok_iff.mp hpath
    exact ⟨body, rest, s, rfl, hpiece, more, hmore⟩
  · rintro ⟨body, rest, s, rfl, hpiece, more, hmore⟩
    exact ⟨s :: more, segments_eq_ok_iff.mpr ⟨body, rest, s, more, rfl, rfl, hpiece, hmore⟩⟩

/-- In the beginning a segment is due, whichever it is. -/
theorem due_first : Due IsPath [] false := by
  constructor
  · intro body s more hpiece _ hmore
    exact isPath_iff.mpr ⟨body, more, s, rfl, hpiece, hmore⟩
  · intro cs _ hpath
    obtain ⟨body, rest, s, rfl, hpiece, htail⟩ := isPath_iff.mp hpath
    obtain ⟨path, hmore⟩ := htail
    exact ⟨s, rest, segment_of_piece hpiece hmore.endsName, path, hmore⟩

/-- A fault in a path is one of its segments. -/
theorem blames_of_segments (h : segments cs = .error r) :
    ∃ before, cs = before ++ r.rest ∧ Blames IsPath IsPath before r := by
  apply due_first.blames (by simp)
  unfold segments at h
  exact (fails_of_segment h).imp_right fun ⟨s, rest, hread, h⟩ =>
    ⟨s, rest, hread, blames_of_segmentsFrom h⟩

/-! ## §5 Queries -/

/-- A text is accepted if the grammar writes a query so. -/
theorem accepts_iff : Accepts cs ↔ ∃ path, Writes cs path :=
  exists_congr fun _ => parseTrimmed_eq_ok_iff

/-- A path is a query, and so is one behind a point. -/
theorem accepts_of_isPath (h : IsPath cs) : Accepts cs ∧ Accepts ('.' :: cs) := by
  obtain ⟨body, rest, s, rfl, hpiece, path, hmore⟩ := isPath_iff.mp h
  exact ⟨accepts_iff.mpr ⟨_, .path hpiece hmore⟩, accepts_iff.mpr ⟨_, .pointed hpiece hmore⟩⟩

/-- Behind a point a query goes on with a path, if it goes on. -/
theorem isPath_of_accepts_point (hne : cs ≠ []) (h : Accepts ('.' :: cs)) : IsPath cs := by
  obtain ⟨path, hwrites⟩ := accepts_iff.mp h
  -- Of the forms of a query only one has a point in front and something behind it.
  generalize htext : '.' :: cs = text at hwrites
  cases hwrites with
  | blank => cases htext
  | point => exact absurd (List.cons.inj htext).2 hne
  | @path body rest s path hpiece hmore =>
    exact absurd (htext ▸ rfl) (piece_head_ne_point hpiece rest)
  | pointed hpiece hmore =>
    exact isPath_iff.mpr ⟨_, _, _, (List.cons.inj htext).2, hpiece, _, hmore⟩

/-- A query that does not begin with a point is a path, unless it is empty. -/
theorem isPath_of_accepts (hne : cs ≠ []) (hpoint : cs.head? ≠ some '.') (h : Accepts cs) :
    IsPath cs := by
  obtain ⟨path, hwrites⟩ := accepts_iff.mp h
  cases hwrites with
  | blank => exact absurd rfl hne
  | point => exact absurd rfl hpoint
  | path hpiece hmore => exact isPath_iff.mpr ⟨_, _, _, rfl, hpiece, _, hmore⟩
  | pointed => exact absurd rfl hpoint

/-- A fault in a query stands where no query that begins so goes on. -/
theorem blames_of_parseTrimmed (h : parseTrimmed cs = .error r) :
    ∃ before, cs = before ++ r.rest ∧ Blames Accepts Accepts before r := by
  unfold parseTrimmed at h
  split at h
  next => cases h
  next => cases h
  next rest _ =>
    -- The point in front of a path opens nothing by itself.
    obtain ⟨before, rfl, hblames⟩ := blames_of_segments h
    refine ⟨'.' :: before, rfl, hblames.prepend ['.'] ?_ ?_⟩
    · exact fun more hpath => (accepts_of_isPath hpath).2
    · exact fun c more _ haccepts => isPath_of_accepts_point (by simp) haccepts
  next hnil _ hpoint =>
    obtain ⟨before, rfl, hblames⟩ := blames_of_segments h
    refine ⟨before, rfl, hblames.prepend [] ?_ ?_⟩
    · exact fun more hpath => (accepts_of_isPath hpath).1
    · intro c more hc haccepts
      refine isPath_of_accepts (by simp) ?_ haccepts
      -- The text begins as the query does, which does not begin with a point.
      intro hhead
      obtain ⟨tail, htail⟩ : ∃ tail, before ++ r.rest = '.' :: tail := by
        apply List.head?_eq_some_iff.mp
        rw [List.head?_append, hc, ← hhead, List.head?_append, List.head?_cons]
      exact hpoint tail htail

/-- The bytes of two texts are those of both. -/
theorem byteCount_append (cs rest : List Char) :
    Json.Failure.byteCount (cs ++ rest) = Json.Failure.byteCount cs + Json.Failure.byteCount rest := by
  have hfrom (n : Nat) : rest.foldl (fun n c => n + c.utf8Size) n =
      n + rest.foldl (fun n c => n + c.utf8Size) 0 := by
    induction rest generalizing n with
    | nil => rfl
    | cons c rest ih =>
      rw [List.foldl_cons, List.foldl_cons, ih (n + c.utf8Size), ih (0 + c.utf8Size)]
      omega
  rw [Json.Failure.byteCount, List.foldl_append, hfrom]
  rfl

/-- The trimmed texts of queries that are read are those that the parser accepts. -/
theorem accepts_trimBlanks_iff (query : String) :
    Accepts (trimBlanks query.toList) ↔ ∃ path, parse query = .ok path := by
  unfold Accepts parse
  cases h : parseTrimmed (trimBlanks query.toList) <;> simp [h, Except.mapError]

/-- The position of a fault splits the trimmed query between two characters: what stands before it can
go on to a text that the parser accepts, and the fault says what is wrong behind it. -/
theorem blamed_of_parse_error {query : String} {fault : Fault} {position : Nat}
    (h : parse query = .error (fault, position)) :
    ∃ before after, trimBlanks query.toList = before ++ after ∧
      position = Json.Failure.byteCount before ∧ (∃ more, Accepts (before ++ more)) ∧
      Blamed Accepts before after fault := by
  unfold parse at h
  cases hread : parseTrimmed (trimBlanks query.toList) with
  | ok path => simp [hread, Except.mapError] at h
  | error r =>
    obtain ⟨before, hsplit, hviable, hblamed⟩ := blames_of_parseTrimmed hread
    simp only [hread, Except.mapError, Except.error.injEq, Prod.mk.injEq] at h
    obtain ⟨rfl, rfl⟩ := h
    refine ⟨before, r.rest, hsplit, ?_, hviable, hblamed⟩
    rw [Refusal.position, hsplit, byteCount_append, Nat.add_sub_cancel]

/-- A letter of two bytes in a quoted name, behind which a bracket is missing. -/
theorem blamed_of_parse_error_missing_bracket :
    parse " a[\"é\"b] " = .error (.expectedClose 'b', 6) ∧
      ∃ before after, trimBlanks " a[\"é\"b] ".toList = before ++ after ∧
        6 = Json.Failure.byteCount before ∧ (∃ more, Accepts (before ++ more)) ∧
        Blamed Accepts before after (.expectedClose 'b') := by
  have hparse : parse " a[\"é\"b] " = .error (.expectedClose 'b', 6) := by decide
  exact ⟨hparse, blamed_of_parse_error hparse⟩

end QueryPlayground.Path
