import QueryPlayground.Proofs.Yaml.Quoted
import QueryPlayground.Proofs.Yaml.Scan

/-!
# Plain scalars

A string that is fit to be plain is read back, whether a colon, a line break or the end of the text comes
behind it.

Main statements: `plainScalar_of_colon` and `plainScalar_of_closes`.
-/

namespace QueryPlayground.Yaml

open Scanner (Tail Ended)

/-! ## §1 Words and the space between them -/

section

variable (start : Mark) (indent : Int) (size : Nat)

/-- The rest of a plain scalar behind the space in front of a word. -/
def plainRest (fuel m : Nat) (content : List Char) (gap : Gap) (c : Cursor) :
    Except Failure (List Char × Bool × Cursor) :=
  match plainRun start false m content gap c with
  | .error f => .error f
  | .ok (content, gap, c) =>
    if c.rest.isEmpty || !atBlankOrEnd c.rest then .ok (content, gap.broken, c)
    else
      match plainGap start indent size gap c with
      | .error f => .error f
      | .ok (gap, c) =>
        if c.column < indent then .ok (content, gap.broken, c)
        else plainWords start false indent size fuel content gap c

/-- The rest of a plain scalar inside the space between words. -/
def plainSpace (fuel m : Nat) (content : List Char) (g : Gap) (c : Cursor) :
    Except Failure (List Char × Bool × Cursor) :=
  match plainGap start indent m g c with
  | .error f => .error f
  | .ok (gap, c) =>
    if c.column < indent then .ok (content, gap.broken, c)
    else plainWords start false indent size fuel content gap c

variable {start indent size}

theorem plainWords_eq_rest {c : Cursor} (hindicator : c.atDocumentIndicator = false)
    (hcomment : startsWith '#' c.rest = false) (fuel : Nat) (content : List Char) (gap : Gap) :
    plainWords start false indent size (fuel + 1) content gap c =
      plainRest start indent size fuel size content gap c := by
  rw [plainWords, hindicator, hcomment, plainRest]
  simp only [Bool.not_false, Bool.true_and, decide_eq_true_eq]
  rfl

theorem plainRest_char {c : Cursor} {d : Char} {text : List Char} (hc : c.rest = d :: text)
    (hd : (isBlankChar d || isBreakChar d) = false) (hcolon : d = ':' → atBlankOrEnd text = false)
    (fuel m : Nat) (content : List Char) (gap : Gap) :
    plainRest start indent size fuel (m + 1) content gap c =
      plainRest start indent size fuel m (d :: (gap.content ++ content)) .none (c.skip 1) := by
  have hends : endsPlain false (d :: text) = false := by
    simpa [endsPlain] using hcolon
  simp [plainRest, plainRun, hc, atBlankOrEnd, hd, hends]

/-- A word ends where space begins. -/
theorem plainRest_eq_space {c : Cursor} {d : Char} {text : List Char} (hc : c.rest = d :: text)
    (hd : (isBlankChar d || isBreakChar d) = true) (fuel m : Nat) (content : List Char) (gap : Gap) :
    plainRest start indent size fuel m content gap c =
      plainSpace start indent size fuel size content gap c := by
  have hrun : plainRun start false m content gap c = .ok (content, gap, c) := by
    cases m <;> simp [plainRun, hc, atBlankOrEnd, hd]
  simp [plainRest, hrun, hc, atBlankOrEnd, hd, plainSpace]

theorem plainSpace_blank {c : Cursor} {text : List Char} (hc : c.rest = ' ' :: text) (fuel m : Nat)
    (content : List Char) (g : Gap) :
    plainSpace start indent size fuel (m + 1) content g c =
      plainSpace start indent size fuel m content (g.addBlank ' ') (c.skip 1) := by
  simp [plainSpace, plainGap, hc, isBlankChar]

theorem plainSpace_break {c : Cursor} {text : List Char} (hc : c.rest = '\n' :: text) (fuel m : Nat)
    (content : List Char) (g : Gap) :
    plainSpace start indent size fuel (m + 1) content g c =
      plainSpace start indent size fuel m content (g.addBreak ['\n']) c.skipBreak := by
  simp [plainSpace, plainGap, hc, isBlankChar, isBreakChar, Cursor.breakContent, breakText]

/-- The end of the text ends a word. -/
theorem plainRest_of_end {c : Cursor} (hc : c.rest = []) (fuel m : Nat) (content : List Char) (gap : Gap) :
    plainRest start indent size fuel m content gap c = .ok (content, gap.broken, c) := by
  have hrun : plainRun start false m content gap c = .ok (content, gap, c) := by
    cases m <;> simp [plainRun, hc, atBlankOrEnd]
  simp [plainRest, hrun, hc]

/-- Behind a line break blanks do not count. -/
theorem plainSpace_indentation {g : Gap} (hg : g.broken = true) (n : Nat) :
    ∀ {c : Cursor} {text : List Char}, c.rest = List.replicate n ' ' ++ text → ∀ (fuel m : Nat)
      (content : List Char), plainSpace start indent size fuel (m + n) content g c =
        plainSpace start indent size fuel m content g (c.skip n) := by
  induction n with
  | zero => exact fun _ _ _ _ => rfl
  | succ n ih =>
    intro c text hc fuel m content
    have hspace : c.rest = ' ' :: (List.replicate n ' ' ++ text) := by simpa [List.replicate_succ] using hc
    have hrest : (c.skip 1).rest = List.replicate n ' ' ++ text :=
      Cursor.rest_skip_append (a := [' ']) hspace
    rw [← Nat.add_assoc, plainSpace_blank hspace, Gap.addBlank, if_pos hg, ih hrest, Cursor.skip_skip,
      Nat.add_comm 1 n]

/-- The space ends where a word begins, or where the text ends. -/
theorem plainSpace_token {c : Cursor} (hc : ∀ d ∈ c.rest.head?, (isBlankChar d || isBreakChar d) = false)
    (fuel m : Nat) (content : List Char) (g : Gap) :
    plainSpace start indent size fuel m content g c =
      if c.column < indent then .ok (content, g.broken, c)
      else plainWords start false indent size fuel content g c := by
  have hgap : plainGap start indent m g c = .ok (g, c) := by
    cases m with
    | zero => rfl
    | succ m =>
      cases hrest : c.rest with
      | nil => simp [plainGap, hrest]
      | cons d text =>
        have hd := hc d (by simp [hrest])
        simp only [Bool.or_eq_false_iff] at hd
        simp [plainGap, hrest, hd]
  simp [plainSpace, hgap]

end

/-! ## §2 What is read -/

/-- The rest of a plain text: spaces stand between words, no word ends with a colon or begins with a
number sign. -/
structure PlainBody (afterGap : Bool) (cs : List Char) : Prop where
  chars : ∀ c ∈ cs, c = ' ' ∨ (isBlankChar c || isBreakChar c) = false
  indicators : holdsIndicator afterGap cs = false
  last : cs.getLast? ≠ some ' '

theorem PlainBody.tail {afterGap : Bool} {c : Char} {cs : List Char} (h : PlainBody afterGap (c :: cs)) :
    PlainBody (isGap c) cs where
  chars d hd := h.chars d (List.mem_cons_of_mem _ hd)
  indicators := by
    have := h.indicators
    simp only [holdsIndicator, Bool.or_eq_false_iff] at this
    exact this.2
  last := by
    have := h.last
    cases cs with
    | nil => simp
    | cons d cs => simpa [List.getLast?_cons_cons] using this

theorem PlainBody.weaken {afterGap : Bool} {cs : List Char} (h : PlainBody afterGap cs) :
    PlainBody false cs where
  chars := h.chars
  indicators := by
    have := h.indicators
    cases cs with
    | nil => rfl
    | cons c cs =>
      simp only [holdsIndicator, Bool.or_eq_false_iff] at this
      simp [holdsIndicator, this.1.1, this.2]
  last := h.last

/-- No word ends with a colon. -/
theorem PlainBody.colon {afterGap : Bool} {cs : List Char} (h : PlainBody afterGap (':' :: cs))
    (rest : List Char) : atBlankOrEnd (cs ++ rest) = false := by
  have hgap : atGap cs = false := by
    have := h.indicators
    simp only [holdsIndicator, Bool.or_eq_false_iff, Bool.and_eq_false_imp] at this
    exact this.1.1 (by simp)
  cases cs with
  | nil => simp [atGap] at hgap
  | cons d cs =>
    simp only [atGap, isGap, Bool.or_eq_false_iff] at hgap
    simp [atBlankOrEnd, hgap]

section

variable {start : Mark} {indent : Int} {size : Nat} {cs rest : List Char} {broken : Bool}
  {last after : Cursor}

/-- What the reader makes of the rest of a plain scalar, in front of a word and inside the space in front
of one. -/
structure ReadsPlain (start : Mark) (indent : Int) (size : Nat) (rest cs : List Char) (broken : Bool)
    (last after : Cursor) : Prop where
  words (fuel m : Nat) (content : List Char) (c : Cursor) : c.rest = cs ++ rest → c.skip cs.length = last →
    cs.length ≤ min (fuel + 1) (min m size) → indent ≤ c.column + 1 → PlainBody false cs →
    plainRest start indent size (fuel + 1) m content .none c = .ok (cs.reverse ++ content, broken, after)
  space (fuel m : Nat) (content : List Char) (g : Gap) (c : Cursor) : c.rest = cs ++ rest →
    c.skip cs.length = last → cs.length ≤ min fuel (min m size) → indent ≤ c.column → c.column ≠ 0 →
    g.broken = false → cs ≠ [] → PlainBody true cs →
    plainSpace start indent size (fuel + 1) m content g c =
      .ok (cs.reverse ++ (g.blanks ++ content), broken, after)

/-- At the end of the text nothing is read any more but what stands behind it. -/
theorem ReadsPlain.nil
    (hend : ∀ fuel m content, plainRest start indent size (fuel + 1) m content .none last =
      .ok (content, broken, after)) : ReadsPlain start indent size rest [] broken last after where
  words fuel m content c _ hlast _ _ _ := (show c = last from hlast) ▸ hend fuel m content
  space _ _ _ _ _ _ _ _ _ _ _ hne := absurd rfl hne

/-- A blank is kept in the gap until a character follows, which one does. -/
theorem ReadsPlain.blank (h : ReadsPlain start indent size rest cs broken last after) :
    ReadsPlain start indent size rest (' ' :: cs) broken last after where
  words fuel m content c hc hlast hle hcolumn hbody := by
    have hne : cs ≠ [] := by
      rintro rfl
      exact hbody.last rfl
    simp only [List.length_cons] at hlast hle
    obtain ⟨size, rfl⟩ : ∃ n, size = n + 1 := ⟨size - 1, by omega⟩
    have hspace := h.space fuel size content (Gap.none.addBlank ' ') (c.skip 1)
      (Cursor.rest_skip_append (a := [' ']) hc) (by rw [Cursor.skip_skip, Nat.add_comm, hlast]) (by omega)
      (by simpa [Cursor.skip] using hcolumn) (by simp [Cursor.skip]) rfl hne hbody.tail
    rw [plainRest_eq_space hc rfl, plainSpace_blank hc, hspace]
    simp [Gap.none, Gap.addBlank]
  space fuel m content g c hc hlast hle hcolumn _ hg _ hbody := by
    have hne : cs ≠ [] := by
      rintro rfl
      exact hbody.last rfl
    simp only [List.length_cons] at hlast hle
    obtain ⟨m, rfl⟩ : ∃ n, m = n + 1 := ⟨m - 1, by omega⟩
    have hspace := h.space fuel m content (g.addBlank ' ') (c.skip 1)
      (Cursor.rest_skip_append (a := [' ']) hc) (by rw [Cursor.skip_skip, Nat.add_comm, hlast]) (by omega)
      (by simp only [Cursor.skip]; omega) (by simp [Cursor.skip]) (by simp [Gap.addBlank, hg]) hne
      hbody.tail
    rw [plainSpace_blank hc, hspace]
    simp [Gap.addBlank, hg]

/-- A character is read inside a word, or begins one and puts the gap in front of itself. -/
theorem ReadsPlain.char {d : Char} (hd : (isBlankChar d || isBreakChar d) = false)
    (h : ReadsPlain start indent size rest cs broken last after) :
    ReadsPlain start indent size rest (d :: cs) broken last after := by
  have hword (afterGap : Bool) (fuel m : Nat) (content : List Char) (g : Gap) (c : Cursor)
      (hc : c.rest = d :: cs ++ rest) (hlast : c.skip (cs.length + 1) = last)
      (hle : cs.length ≤ min (fuel + 1) (min m size)) (hcolumn : indent ≤ c.column + 1)
      (hbody : PlainBody afterGap (d :: cs)) :
      plainRest start indent size (fuel + 1) (m + 1) content g c =
        .ok (cs.reverse ++ (d :: (g.content ++ content)), broken, after) := by
    have hcolon : d = ':' → atBlankOrEnd (cs ++ rest) = false := by
      rintro rfl
      exact hbody.colon rest
    rw [plainRest_char hc hd hcolon]
    exact h.words fuel m _ (c.skip 1) (Cursor.rest_skip_append (a := [d]) hc)
      (by rw [Cursor.skip_skip, Nat.add_comm, hlast]) hle (by simp only [Cursor.skip]; omega)
      hbody.tail.weaken
  constructor
  case words =>
    intro fuel m content c hc hlast hle hcolumn hbody
    simp only [List.length_cons] at hlast hle
    obtain ⟨m, rfl⟩ : ∃ n, m = n + 1 := ⟨m - 1, by omega⟩
    rw [hword false fuel m content .none c hc hlast (by omega) hcolumn hbody]
    simp [Gap.content, Gap.none]
  case space =>
    intro fuel m content g c hc hlast hle hcolumn hzero hg _ hbody
    simp only [List.length_cons] at hlast hle
    obtain ⟨fuel, rfl⟩ : ∃ n, fuel = n + 1 := ⟨fuel - 1, by omega⟩
    have hcomment : startsWith '#' c.rest = false := by
      have := hbody.indicators
      simp only [holdsIndicator, Bool.or_eq_false_iff] at this
      simpa [startsWith, hc] using this.1.2
    have hindicator : c.atDocumentIndicator = false := by simp [Cursor.atDocumentIndicator, hzero]
    obtain ⟨size, rfl⟩ : ∃ n, size = n + 1 := ⟨size - 1, by omega⟩
    rw [plainSpace_token (by simpa [hc] using hd), if_neg (by omega),
      plainWords_eq_rest hindicator hcomment,
      hword true fuel size content g c hc hlast (by omega) (by omega) hbody]
    simp [Gap.content, hg]

/-- A plain text is read up to its end. -/
theorem readsPlain (hchars : ∀ c ∈ cs, c = ' ' ∨ (isBlankChar c || isBreakChar c) = false)
    (hend : ∀ fuel m content, plainRest start indent size (fuel + 1) m content .none last =
      .ok (content, broken, after)) : ReadsPlain start indent size rest cs broken last after := by
  induction cs with
  | nil => exact .nil hend
  | cons d cs ih =>
    have ih := ih fun c hc => hchars c (List.mem_cons_of_mem _ hc)
    rcases hchars d List.mem_cons_self with rfl | hd
    · exact ih.blank
    · exact ih.char hd

end

/-! ## §3 What comes behind -/

/-- A string that is fit to be plain. -/
structure PlainText (cs : List Char) : Prop where
  ne_nil : cs ≠ []
  chars : ∀ c ∈ cs, isPrintable c = true ∧ isBreakChar c = false
  head : ∀ c ∈ cs.head?, (isBlankChar c || isBreakChar c) = false
  leads : leadsIndicator cs = false
  document : startsLikeDocument cs = false
  body : PlainBody true cs

/-- A string whose shape the writer takes for plain has no indicator that the scanner would stop at. -/
theorem plainText_of_shape {cs : List Char} (h : (Shape.of cs).plain = true) (hne : cs ≠ []) :
    PlainText cs := by
  obtain ⟨c, cs, rfl⟩ := List.exists_cons_of_ne_nil hne
  simp only [Shape.of, List.isEmpty_cons, Bool.false_eq_true, if_false, Bool.not_eq_true',
    Bool.or_eq_false_iff, List.head?_cons, Option.any_some, List.drop_succ_cons, List.drop_zero,
    List.any_eq_false] at h
  obtain ⟨⟨⟨⟨⟨⟨hhead, hlast⟩, hbreaks⟩, hspecial⟩, -⟩, -⟩, ⟨hleads, hdocument⟩, hindicators⟩ := h
  have hchars : ∀ d ∈ c :: cs, isPrintable d = true ∧ isBreakChar d = false := fun d hd =>
    ⟨by simpa using hspecial d hd, by simpa using hbreaks d hd⟩
  have hword : ∀ d ∈ c :: cs, d = ' ' ∨ (isBlankChar d || isBreakChar d) = false := fun d hd =>
    (Classical.em (d = ' ')).imp_right fun hne =>
      not_gap_of_isPrintable (hchars d hd).1 hne (hchars d hd).2
  have hspace : c ≠ ' ' := by simpa [isSpaceChar] using hhead.1
  refine ⟨hne, hchars, ?_, hleads, hdocument, hword, ?_, ?_⟩
  · simpa using (hword c List.mem_cons_self).resolve_left hspace
  · simp only [leadsIndicator, Bool.or_eq_false_iff, Bool.and_eq_false_imp, Bool.or_eq_true] at hleads
    simp only [holdsIndicator, Bool.or_eq_false_iff, Bool.and_eq_false_imp, decide_eq_true_eq]
    refine ⟨⟨fun h => hleads.2 (.inl (.inr (by simpa using h))), ?_⟩, hindicators⟩
    rintro rfl
    simp at hleads
  · intro h
    simp [h, isSpaceChar] at hlast

/-- A text that does not begin like a document does not with something behind it either, unless that
begins with a dash or a dot. -/
theorem startsWithThree_append {cs rest : List Char} (hne : cs ≠ []) (h : startsLikeDocument cs = false)
    (hrest : ∀ d ∈ rest.head?, d ≠ '-' ∧ d ≠ '.') (e : Char) (he : e = '-' ∨ e = '.') :
    startsWithThree e (cs ++ rest) = false := by
  have hother : ∀ d ∈ rest.head?, d ≠ e := by
    rintro d hd rfl
    exact he.elim (hrest d hd).1 (hrest d hd).2
  match cs, rest with
  | [_], [] | [_], [_] | [_, _], [] => rfl
  | [_], d :: _ :: _ | [_, _], d :: _ => simp [startsWithThree, hother d rfl]
  | a :: b :: c :: cs, rest =>
    simp only [List.cons_append, startsWithThree, Bool.and_eq_false_imp]
    intro habc
    simp only [Bool.and_eq_true, decide_eq_true_eq] at habc
    obtain ⟨⟨rfl, rfl⟩, rfl⟩ := habc
    rcases he with rfl | rfl <;> simp [startsLikeDocument] at h

/-- A plain scalar is read if its end is understood. -/
theorem plainScalar_of_end {cs rest : List Char} {size : Nat} {parent : Int} {c after : Cursor}
    {broken : Bool} (h : PlainText cs) (hc : c.rest = cs ++ rest) (hsize : cs.length ≤ size)
    (hparent : parent ≤ c.column)
    (hrest : ∀ d ∈ rest.head?, d ≠ '-' ∧ d ≠ '.')
    (hend : ∀ fuel m content,
      plainRest c.mark (parent + 1) size (fuel + 1) m content .none (c.skip cs.length) =
        .ok (content, broken, after)) :
    plainScalar size false parent c = .ok (cs, broken, after) := by
  have hne := h.ne_nil
  obtain ⟨d, ds, rfl⟩ := List.exists_cons_of_ne_nil h.ne_nil
  have hindicator : c.atDocumentIndicator = false := by
    have hthree := fun e he => hc ▸ startsWithThree_append hne h.document hrest e he
    simp [Cursor.atDocumentIndicator, hthree]
  have hcomment : startsWith '#' c.rest = false := by
    have hleads := h.leads
    simp only [leadsIndicator, Bool.or_eq_false_iff] at hleads
    rw [hc]
    simp only [startsWith, List.cons_append, decide_eq_false_iff_not]
    rintro rfl
    simp at hleads
  obtain ⟨size, rfl⟩ : ∃ n, size = n + 1 := ⟨size - 1, by simp at hsize; omega⟩
  have hread := (readsPlain h.body.chars hend).words size (size + 1) [] c hc rfl (by omega) (by omega)
    h.body.weaken
  rw [plainScalar, plainWords_eq_rest hindicator hcomment, hread]
  simp [bind, Except.bind, pure, Except.pure]

/-- A colon ends a plain scalar. -/
theorem plainScalar_of_colon {cs rest : List Char} {size : Nat} {parent : Int} {c : Cursor}
    (h : PlainText cs) (hc : c.rest = cs ++ ':' :: rest) (hsize : cs.length ≤ size)
    (hparent : parent ≤ c.column) (hrest : atBlankOrEnd rest = true) :
    plainScalar size false parent c = .ok (cs, false, c.skip cs.length) := by
  refine plainScalar_of_end h hc hsize hparent (by simp) fun fuel m content => ?_
  have hlast := Cursor.rest_skip_append hc
  have hgap : atBlankOrEnd (c.skip cs.length).rest = false := by rw [hlast]; rfl
  have hrun : plainRun c.mark false m content .none (c.skip cs.length) =
      .ok (content, .none, c.skip cs.length) := by
    cases m with
    | zero => rfl
    | succ m =>
      rw [plainRun, hgap]
      simp [hlast, endsPlain, hrest]
  rw [plainRest, hrun]
  simp [hgap, Gap.none]

/-- The end of the line or of the text ends a plain scalar. -/
theorem plainScalar_of_closes {cs rest : List Char} {size : Nat} {parent : Int} {c : Cursor} {tail : Tail}
    (h : PlainText cs) (hc : c.rest = cs ++ rest) (hsize : c.rest.length ≤ size)
    (hparent : parent ≤ c.column) (hrest : rest = '\n' :: tail.text ∨ tail = .done ∧ rest = [])
    (hfits : tail.Fits parent) :
    ∃ broken after, plainScalar size false parent c = .ok (cs, broken, after) ∧
      Ended after broken c.line tail ∧ after.rest.length ≤ rest.length := by
  have hlast := Cursor.rest_skip_append hc
  rw [hc, List.length_append] at hsize
  rcases hrest with rfl | ⟨rfl, rfl⟩
  · simp only [List.length_cons] at hsize
    obtain ⟨size, rfl⟩ : ∃ n, size = n + 1 := ⟨size - 1, by omega⟩
    -- The scalar is over at a line that is indented less, and at the end of the text.
    have hskip : (c.skip cs.length).skipBreak =
        ⟨tail.text, (c.skip cs.length).index + 1, c.line + 1, 0⟩ := Cursor.skipBreak_lineFeed hlast
    cases tail with
    | done =>
      refine ⟨true, (c.skip cs.length).skipBreak, plainScalar_of_end h hc (by omega) hparent (by simp) ?_,
        .inr (.inr ⟨rfl, by rw [hskip]; rfl⟩), by simp [hskip]⟩
      intro fuel m content
      rw [plainRest_eq_space hlast rfl, plainSpace_break hlast,
        plainSpace_token (by simp [hskip, Tail.text])]
      split
      · rfl
      · -- At the top the scalar might go on, but there is no more text.
        rw [plainWords_eq_rest (by simp [hskip, Tail.text, Cursor.atDocumentIndicator, startsWithThree])
          (by simp [hskip, Tail.text, startsWith]), plainRest_of_end (by simp [hskip, Tail.text])]
        rfl
    | line column text =>
      obtain ⟨hcolumn, hne, htoken⟩ := hfits
      have hspaces : (c.skip cs.length).skipBreak.rest = List.replicate column ' ' ++ text := by
        rw [hskip]
        rfl
      have htext := Cursor.rest_skip_spaces hspaces
      have hat : ((c.skip cs.length).skipBreak.skip column).column = column := by
        rw [hskip]
        simp [Cursor.skip]
      have hline : c.line < ((c.skip cs.length).skipBreak.skip column).line := by
        rw [hskip]
        exact Nat.lt_succ_self _
      refine ⟨true, (c.skip cs.length).skipBreak.skip column,
        plainScalar_of_end h hc (by omega) hparent (by simp) ?_,
        .inr (.inl ⟨column, text, rfl, htext, hat, hline, rfl⟩), ?_⟩
      · intro fuel m content
        obtain ⟨size, rfl⟩ : ∃ n, size = n + column := by
          simp only [Tail.text, List.length_append, List.length_replicate] at hsize
          exact ⟨size - column, by omega⟩
        have hhead : ∀ d ∈ text.head?, (isBlankChar d || isBreakChar d) = false := fun d hd => by
          simp [(htoken d hd).1, (htoken d hd).2.1]
        rw [plainRest_eq_space hlast rfl, plainSpace_break hlast,
          plainSpace_indentation rfl column hspaces, plainSpace_token (by rw [htext]; exact hhead), if_pos]
        · rfl
        · rw [hat]
          omega
      · rw [htext]
        simp [Tail.text]
        omega
  · refine ⟨false, c.skip cs.length, plainScalar_of_end h hc (by omega) hparent (by simp) ?_,
      .inr (.inr ⟨rfl, hlast⟩), by simp [hlast]⟩
    exact fun fuel m content => plainRest_of_end hlast (fuel + 1) m content .none

end QueryPlayground.Yaml
