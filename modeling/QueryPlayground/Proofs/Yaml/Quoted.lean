import QueryPlayground.Yaml.Printer
import QueryPlayground.Yaml.ScalarText
import QueryPlayground.Proofs.Yaml.Cursor

/-!
# Quoted scalars

The content of quotes as text: most characters as they are spelled, some line breaks as they are, each
run of these followed by indentation. The reader folds space between words and undoes the spelling; as
no blank stands beside a line break, the folding changes nothing.

Main statements: `quotedScalar_single` and `quotedScalar_double`.
-/

namespace QueryPlayground.Yaml

/-! ## §1 The text of quotes -/

section

variable (spell : Char → List Char) (isRaw : Char → Bool) (indent : Nat)

/-- The content of quotes as text; `broken` says whether it follows a line break. -/
def quotedText : Bool → List Char → List Char
  | broken, [] => if broken then List.replicate indent ' ' else []
  | broken, c :: cs =>
    if c = ' ' then c :: quotedText broken cs
    else if isRaw c then c :: quotedText true cs
    else (if broken then List.replicate indent ' ' else []) ++ (spell c ++ quotedText false cs)

variable {spell isRaw indent}

/-- On one line the content is spelled character by character. -/
theorem quotedText_false {cs : List Char} (hspace : spell ' ' = [' ']) (hraw : ∀ c ∈ cs, isRaw c = false) :
    quotedText spell isRaw indent false cs = cs.flatMap spell := by
  -- By induction on the content: where nothing is raw no line is broken.
  induction cs with
  | nil => rfl
  | cons c cs ih =>
    have ih := ih fun d hd => hraw d (List.mem_cons_of_mem _ hd)
    by_cases hc : c = ' '
    · simp [quotedText, hc, hspace, ih]
    · simp [quotedText, hc, hraw c List.mem_cons_self, ih]

/-- At the beginning of a word the indentation has been written already. -/
theorem quotedText_true {cs : List Char} (h : ∀ c ∈ cs.head?, c ≠ ' ' ∧ isRaw c = false) :
    quotedText spell isRaw indent true cs =
      List.replicate indent ' ' ++ quotedText spell isRaw indent false cs := by
  cases cs with
  | nil => simp [quotedText]
  | cons c cs => simp [quotedText, h c rfl]

end

/-! ## §2 Words and the space between them -/

section

variable (start : Mark) (quote : Char) (size : Nat)

/-- The rest of a quoted scalar behind the space in front of a word. -/
def quotedWords (fuel m : Nat) (content : List Char) (c : Cursor) : Except Failure (List Char × Cursor) :=
  match quotedRun start quote m content c with
  | .error f => .error f
  | .ok (content, broken, c) =>
    if startsWith quote c.rest then .ok (content, c.skip 1)
    else
      let (gap, c) := gapFrom size ⟨broken, [], [], []⟩ c
      quotedLines start quote size fuel (gap.content ++ content) c

/-- The rest of a quoted scalar inside the space between words. -/
def quotedGap (fuel m : Nat) (content : List Char) (g : Gap) (c : Cursor) :
    Except Failure (List Char × Cursor) :=
  let (gap, c) := gapFrom m g c
  quotedLines start quote size fuel (gap.content ++ content) c

variable {start quote size}

/-- A line that is not at the end begins with a word. -/
theorem quotedLines_eq_words {c : Cursor} (hc : c.atDocumentIndicator = false) (hrest : c.rest ≠ [])
    (fuel : Nat) (content : List Char) :
    quotedLines start quote size (fuel + 1) content c =
      quotedWords start quote size fuel size content c := by
  have hempty : c.rest.isEmpty = false := by simpa using hrest
  rw [quotedLines, hc, hempty]
  rfl

/-- A word ends where space begins. -/
theorem quotedWords_eq_gap {c : Cursor} {d : Char} {text : List Char} (hc : c.rest = d :: text)
    (hd : (isBlankChar d || isBreakChar d) = true) (hq : d ≠ quote) (fuel m : Nat) (content : List Char) :
    quotedWords start quote size fuel m content c =
      quotedGap start quote size fuel size content .none c := by
  -- A run of characters is empty in front of space, whatever the fuel.
  have hrun : quotedRun start quote m content c = .ok (content, false, c) := by
    cases m <;> simp [quotedRun, hc, atBlankOrEnd, hd]
  simp [quotedWords, hrun, quotedGap, hc, startsWith, hq, Gap.none]

/-- A blank goes into the space that is read. -/
theorem quotedGap_blank {c : Cursor} {text : List Char} (hc : c.rest = ' ' :: text) (fuel m : Nat)
    (content : List Char) (g : Gap) :
    quotedGap start quote size fuel (m + 1) content g c =
      quotedGap start quote size fuel m content (g.addBlank ' ') (c.skip 1) := by
  simp [quotedGap, gapFrom, hc, isBlankChar]

/-- A line break goes into the space that is read. -/
theorem quotedGap_break {c : Cursor} {d : Char} {text : List Char} (hc : c.rest = d :: text)
    (hd : isBreakChar d = true) (fuel m : Nat) (content : List Char) (g : Gap) :
    quotedGap start quote size fuel (m + 1) content g c =
      quotedGap start quote size fuel m content (g.addBreak [breakText d]) c.skipBreak := by
  -- A line break is no blank, which the reader asks first.
  have hblank : isBlankChar d = false := by
    cases h : isBlankChar d with
    | false => rfl
    | true =>
      simp only [isBlankChar, Bool.or_eq_true, decide_eq_true_eq] at h
      rcases h with rfl | rfl <;> exact absurd hd (by decide)
  simp [quotedGap, gapFrom, hc, hblank, hd, Cursor.breakContent]

/-- Behind a line break blanks do not count. -/
theorem quotedGap_indentation {g : Gap} (hg : g.broken = true) (n : Nat) :
    ∀ {c : Cursor} {text : List Char}, c.rest = List.replicate n ' ' ++ text → ∀ (fuel m : Nat)
      (content : List Char), quotedGap start quote size fuel (m + n) content g c =
        quotedGap start quote size fuel m content g (c.skip n) := by
  induction n with
  | zero => exact fun _ _ _ _ => rfl
  | succ n ih =>
    intro c text hc fuel m content
    have hspace : c.rest = ' ' :: (List.replicate n ' ' ++ text) := by simpa [List.replicate_succ] using hc
    have hrest : (c.skip 1).rest = List.replicate n ' ' ++ text :=
      Cursor.rest_skip_append (a := [' ']) hspace
    rw [← Nat.add_assoc, quotedGap_blank hspace, Gap.addBlank, if_pos hg, ih hrest, Cursor.skip_skip,
      Nat.add_comm 1 n]

/-- The space ends where a word begins. -/
theorem quotedGap_eq_words {c : Cursor} {d : Char} {text : List Char} (hc : c.rest = d :: text)
    (hd : (isBlankChar d || isBreakChar d) = false) (hcolumn : c.column ≠ 0) (fuel m : Nat)
    (content : List Char) (g : Gap) :
    quotedGap start quote size (fuel + 1) m content g c =
      quotedWords start quote size fuel size (g.content ++ content) c := by
  simp only [Bool.or_eq_false_iff] at hd
  -- The space that is read is all there is, and the column says that no document ends here.
  have hgap : gapFrom m g c = (g, c) := by
    cases m <;> simp [gapFrom, hc, hd]
  have hindicator : c.atDocumentIndicator = false := by simp [Cursor.atDocumentIndicator, hcolumn]
  simp only [quotedGap, hgap]
  exact quotedLines_eq_words hindicator (by simp [hc]) fuel _

end

/-! ## §3 What is read -/

/-- A character is read from its spelling, which does not begin with space. -/
def Spelled (quote : Char) (spell : Char → List Char) (c : Char) : Prop :=
  (∀ d ∈ (spell c).head?, (isBlankChar d || isBreakChar d) = false) ∧ spell c ≠ [] ∧
    ∀ start m content cursor text, cursor.rest = spell c ++ text →
      quotedRun start quote (m + 1) content cursor =
        quotedRun start quote m (c :: content) (cursor.skip (spell c).length)

/-- What the reader makes of the rest of a quoted scalar: in front of a word, and inside the space between
two words without a line break and with one. -/
structure ReadsQuoted (start : Mark) (quote : Char) (spell : Char → List Char) (isRaw : Char → Bool)
    (indent size : Nat) (rest cs : List Char) : Prop where
  words (fuel m : Nat) (content : List Char) (c : Cursor) :
    c.rest = quotedText spell isRaw indent false cs ++ quote :: rest →
    (quotedText spell isRaw indent false cs).length ≤ min fuel (min m size) →
    ∃ c', quotedWords start quote size fuel m content c = .ok (cs.reverse ++ content, c') ∧
      c.Lands c' ((quotedText spell isRaw indent false cs).length + 1) rest (∀ d ∈ cs, isRaw d = false)
  blank (fuel m : Nat) (content : List Char) (g : Gap) (c : Cursor) :
    c.rest = quotedText spell isRaw indent false cs ++ quote :: rest →
    (quotedText spell isRaw indent false cs).length ≤ min fuel (min m size) →
    g.broken = false → c.column ≠ 0 → (∀ d ∈ cs.head?, isRaw d = false) →
    ∃ c', quotedGap start quote size (fuel + 1) m content g c =
        .ok (cs.reverse ++ (g.blanks ++ content), c') ∧
      c.Lands c' ((quotedText spell isRaw indent false cs).length + 1) rest (∀ d ∈ cs, isRaw d = false)
  broken (fuel m : Nat) (content : List Char) (g : Gap) (c : Cursor) :
    c.rest = quotedText spell isRaw indent true cs ++ quote :: rest →
    (quotedText spell isRaw indent true cs).length ≤ min fuel (min m size) →
    g.broken = true → g.first ≠ ['\n'] → (∀ d ∈ cs.head?, d ≠ ' ') →
    ∃ c', quotedGap start quote size (fuel + 1) m content g c =
        .ok (cs.reverse ++ (g.more ++ (g.first ++ content)), c') ∧
      c.Lands c' 0 rest False

section

variable {start : Mark} {quote : Char} {spell : Char → List Char} {isRaw : Char → Bool}
  {indent size : Nat} {rest cs : List Char}

/-- In front of a word it does not matter what space was read. -/
theorem ReadsQuoted.of_words (hindent : 0 < indent) {d : Char} {text : List Char}
    (htext : quotedText spell isRaw indent false cs ++ quote :: rest = d :: text)
    (hd : (isBlankChar d || isBreakChar d) = false)
    (hhead : ∀ c ∈ cs.head?, c ≠ ' ' ∧ isRaw c = false)
    (hwords : ∀ (fuel m : Nat) (content : List Char) (c : Cursor),
      c.rest = quotedText spell isRaw indent false cs ++ quote :: rest →
      (quotedText spell isRaw indent false cs).length ≤ min fuel (min m size) →
      ∃ c', quotedWords start quote size fuel m content c = .ok (cs.reverse ++ content, c') ∧
        c.Lands c' ((quotedText spell isRaw indent false cs).length + 1) rest
          (∀ d ∈ cs, isRaw d = false)) :
    ReadsQuoted start quote spell isRaw indent size rest cs where
  words := hwords
  blank fuel m content g c hc hle hg hcolumn _ := by
    -- The space has been read, so only the word is left.
    obtain ⟨c', hread, hlands⟩ := hwords fuel size (g.content ++ content) c hc (by omega)
    refine ⟨c', ?_, hlands⟩
    rw [quotedGap_eq_words (hc.trans htext) hd hcolumn, hread, Gap.content, hg]
    rfl
  broken fuel m content g c hc hle hg hfirst _ := by
    rw [quotedText_true hhead] at hc hle
    rw [List.append_assoc] at hc
    simp only [List.length_append, List.length_replicate] at hle
    have hword := Cursor.rest_skip_append hc
    rw [List.length_replicate] at hword
    obtain ⟨c', hread, hlands⟩ := hwords fuel size (g.content ++ content) (c.skip indent) hword (by omega)
    -- The fuel for the space covers the indentation.
    obtain ⟨m, rfl⟩ : ∃ m', m = m' + indent := ⟨m - indent, by omega⟩
    have hcolumn : (c.skip indent).column ≠ 0 := by simp [Cursor.skip]; omega
    refine ⟨c', ?_, ⟨hlands.rest, hlands.line, False.elim⟩⟩
    rw [quotedGap_indentation hg indent hc, quotedGap_eq_words (hword.trans htext) hd hcolumn, hread,
      Gap.content, hg]
    simp [hfirst]

/-- A blank in front of a text that is read. -/
theorem ReadsQuoted.space (hq : ' ' ≠ quote) (h : ReadsQuoted start quote spell isRaw indent size rest cs)
    (hhead : ∀ d ∈ cs.head?, isRaw d = false) (hraw : isRaw ' ' = false) :
    ReadsQuoted start quote spell isRaw indent size rest (' ' :: cs) where
  words fuel m content c hc hle := by
    simp only [quotedText, if_true, List.cons_append, List.length_cons] at hc hle ⊢
    -- One unit of both fuels goes into the blank.
    obtain ⟨fuel, rfl⟩ : ∃ n, fuel = n + 1 := ⟨fuel - 1, by omega⟩
    obtain ⟨size, rfl⟩ : ∃ n, size = n + 1 := ⟨size - 1, by omega⟩
    obtain ⟨c', hread, hlands⟩ := h.blank fuel size content (Gap.none.addBlank ' ') (c.skip 1)
      (Cursor.rest_skip_append (a := [' ']) hc) (by omega) rfl (by simp [Cursor.skip]) hhead
    refine ⟨c', ?_, ?_⟩
    · rw [quotedWords_eq_gap hc rfl hq, quotedGap_blank hc, hread]
      simp [Gap.none, Gap.addBlank]
    · simpa [hraw, Nat.add_comm 1] using hlands.of_skip
  -- Inside space another blank lengthens it.
  blank fuel m content g c hc hle hg hcolumn _ := by
    simp only [quotedText, if_true, List.cons_append, List.length_cons] at hc hle ⊢
    obtain ⟨m, rfl⟩ : ∃ n, m = n + 1 := ⟨m - 1, by omega⟩
    obtain ⟨c', hread, hlands⟩ := h.blank fuel m content (g.addBlank ' ') (c.skip 1)
      (Cursor.rest_skip_append (a := [' ']) hc) (by omega) (by simp [Gap.addBlank, hg])
      (by simp [Cursor.skip]) hhead
    refine ⟨c', ?_, ?_⟩
    · rw [quotedGap_blank hc, hread]
      simp [Gap.addBlank, hg]
    · simpa [hraw, Nat.add_comm 1] using hlands.of_skip
  -- Behind a line break the text has no blank.
  broken fuel m content g c _ _ _ _ hspace := absurd rfl (hspace ' ' rfl)

/-- A line break in front of a text that is read. -/
theorem ReadsQuoted.break {b : Char} (hb : isBreakChar b = true) (hraw : isRaw b = true)
    (hkeep : breakText b = b) (hne : b ≠ '\n') (hq : b ≠ quote)
    (h : ReadsQuoted start quote spell isRaw indent size rest cs) (hhead : ∀ d ∈ cs.head?, d ≠ ' ') :
    ReadsQuoted start quote spell isRaw indent size rest (b :: cs) := by
  have hspace : b ≠ ' ' := by
    rintro rfl
    exact absurd hb (by decide)
  -- A line break that is kept as it is is not the one that two characters make.
  have hreturn : b ≠ '\r' := by
    rintro rfl
    exact absurd hkeep (by decide)
  have hskip (c : Cursor) (text : List Char) (hc : c.rest = b :: text) :
      c.skipBreak = ⟨text, c.index + 1, c.line + 1, 0⟩ := Cursor.skipBreak_eq hc hb hreturn
  constructor
  -- The word ends at once, and its space begins with the break.
  case words =>
    intro fuel m content c hc hle
    simp only [quotedText, hspace, hraw, if_true, if_false, List.cons_append, List.length_cons] at hc hle ⊢
    obtain ⟨fuel, rfl⟩ : ∃ n, fuel = n + 1 := ⟨fuel - 1, by omega⟩
    obtain ⟨size, rfl⟩ : ∃ n, size = n + 1 := ⟨size - 1, by omega⟩
    obtain ⟨c', hread, hlands⟩ := h.broken fuel size content (Gap.none.addBreak [b]) c.skipBreak
      (by rw [hskip c _ hc]) (by omega) rfl (by simpa [Gap.none, Gap.addBreak] using hne) hhead
    refine ⟨c', ?_, hlands.rest, ?_, fun hsame => absurd (hsame b List.mem_cons_self) (by simp [hraw])⟩
    · rw [quotedWords_eq_gap hc (by simp [hb]) hq, quotedGap_break hc hb, hkeep, hread]
      simp [Gap.none, Gap.addBreak]
    · have hline := hlands.line
      rw [hskip c _ hc] at hline
      exact Nat.le_of_succ_le hline
  -- Behind a blank no line is broken, as the text has no such pair.
  case blank =>
    intro fuel m content g c _ _ _ _ hhead'
    exact absurd (hhead' b rfl) (by simp [hraw])
  -- A second line break is one more of those that are kept.
  case broken =>
    intro fuel m content g c hc hle hg hfirst _
    simp only [quotedText, hspace, hraw, if_true, if_false, List.cons_append, List.length_cons] at hc hle ⊢
    obtain ⟨m, rfl⟩ : ∃ n, m = n + 1 := ⟨m - 1, by omega⟩
    obtain ⟨c', hread, hlands⟩ := h.broken fuel m content (g.addBreak [b]) c.skipBreak
      (by rw [hskip c _ hc]) (by omega) (by simp [Gap.addBreak, hg])
      (by simpa [Gap.addBreak, hg] using hfirst) hhead
    refine ⟨c', ?_, hlands.rest, ?_, False.elim⟩
    · rw [quotedGap_break hc hb, hkeep, hread]
      simp [Gap.addBreak, hg]
    · have hline := hlands.line
      rw [hskip c _ hc] at hline
      exact Nat.le_of_succ_le hline

/-- A character of a word in front of a text that is read. -/
theorem ReadsQuoted.word (hindent : 0 < indent) {d : Char} (hd : Spelled quote spell d) (hspace : d ≠ ' ')
    (hraw : isRaw d = false) (h : ReadsQuoted start quote spell isRaw indent size rest cs) :
    ReadsQuoted start quote spell isRaw indent size rest (d :: cs) := by
  obtain ⟨hhead, hne, hrun⟩ := hd
  obtain ⟨a, as, ha⟩ := List.exists_cons_of_ne_nil hne
  have htext : quotedText spell isRaw indent false (d :: cs) =
      spell d ++ quotedText spell isRaw indent false cs := by
    -- A character that is no space and no break begins a word or goes on in one.
    simp [quotedText, hspace, hraw]
  have hword : quotedText spell isRaw indent false (d :: cs) ++ quote :: rest =
      a :: (as ++ (quotedText spell isRaw indent false cs ++ quote :: rest)) := by
    simp [htext, ha]
  refine .of_words hindent hword (hhead a (by simp [ha])) (by simpa using ⟨hspace, hraw⟩) ?_
  intro fuel m content c hc hle
  rw [htext, List.append_assoc] at hc
  rw [htext, List.length_append] at hle ⊢
  have hpos : 0 < (spell d).length := List.length_pos_iff.mpr hne
  obtain ⟨m, rfl⟩ : ∃ n, m = n + 1 := ⟨m - 1, by omega⟩
  -- The run takes the character off and reads on as it does for the rest.
  obtain ⟨c', hread, hlands⟩ := h.words fuel m (d :: content) (c.skip (spell d).length)
    (Cursor.rest_skip_append hc) (by omega)
  refine ⟨c', ?_, ?_⟩
  · simp only [quotedWords, hrun _ m content c _ hc] at hread ⊢
    simpa using hread
  · simpa [hraw, Nat.add_assoc] using hlands.of_skip

/-- Where nothing is left the closing quote ends the word. -/
theorem ReadsQuoted.nil (hindent : 0 < indent) (hq : (isBlankChar quote || isBreakChar quote) = false)
    (hrest : startsWith quote rest = false) :
    ReadsQuoted start quote spell isRaw indent size rest [] := by
  have hword : quotedText spell isRaw indent false [] ++ quote :: rest = quote :: rest := rfl
  refine .of_words hindent hword hq (by simp) ?_
  intro fuel m content c hc hle
  -- The run stops at the quote, which nothing doubles.
  have hrun : quotedRun start quote m content c = .ok (content, false, c) := by
    cases m with
    | zero => rfl
    | succ m =>
      have hpair : (quote = '\'' && quote = '\'' && startsWith '\'' rest) = false := by
        by_cases h : quote = '\'' <;> simp_all
      rw [quotedRun]
      simp only [show c.rest = quote :: rest from hc, atBlankOrEnd, hq, hpair]
      simp
  refine ⟨c.skip 1, ?_, ?_⟩
  · simp [quotedWords, hrun, show c.rest = quote :: rest from hc, startsWith]
  · exact ⟨Cursor.rest_skip_append (a := [quote]) hc, Nat.le_refl _, fun _ => rfl⟩

/-- The content of quotes is read if no blank stands beside a line break. -/
theorem readsQuoted (hindent : 0 < indent) (hq : (isBlankChar quote || isBreakChar quote) = false)
    (hrest : startsWith quote rest = false) (hspace : isRaw ' ' = false)
    (hspell : ∀ d ∈ cs, d ≠ ' ' → isRaw d = false → Spelled quote spell d)
    (hraw : ∀ d ∈ cs, isRaw d = true → isBreakChar d = true ∧ breakText d = d ∧ d ≠ '\n')
    (hbreakSpace : holdsPair isRaw isSpaceChar cs = false)
    (hspaceBreak : holdsPair isSpaceChar isRaw cs = false) :
    ReadsQuoted start quote spell isRaw indent size rest cs := by
  simp only [Bool.or_eq_false_iff] at hq
  -- By induction on the content. Which of the four lemmas it is depends on the first character;
  -- that no blank stands beside a break is what the lemmas about these two ask of the next one.
  induction cs with
  | nil => exact .nil hindent (by simp [hq]) hrest
  | cons d cs ih =>
    have hpairs : holdsPair isRaw isSpaceChar cs = false ∧ holdsPair isSpaceChar isRaw cs = false ∧
        (isRaw d = true → ∀ e ∈ cs.head?, e ≠ ' ') ∧ (d = ' ' → ∀ e ∈ cs.head?, isRaw e = false) := by
      cases cs with
      | nil => exact ⟨rfl, rfl, by simp, by simp⟩
      | cons e cs =>
        simp only [holdsPair, Bool.or_eq_false_iff, Bool.and_eq_false_imp] at hbreakSpace hspaceBreak
        refine ⟨hbreakSpace.2, hspaceBreak.2, fun h => ?_, fun h => ?_⟩
        · simpa [isSpaceChar] using hbreakSpace.1 h
        · simpa using hspaceBreak.1 (by simp [isSpaceChar, h])
    obtain ⟨hbreakSpace, hspaceBreak, hafterRaw, hafterSpace⟩ := hpairs
    have ih := ih (fun e he => hspell e (List.mem_cons_of_mem _ he))
      (fun e he => hraw e (List.mem_cons_of_mem _ he)) hbreakSpace hspaceBreak
    by_cases hd : d = ' '
    · subst hd
      refine ih.space ?_ (hafterSpace rfl) hspace
      rintro rfl
      exact absurd hq.1 (by decide)
    · cases hdraw : isRaw d with
      | true =>
        obtain ⟨hb, hkeep, hne⟩ := hraw d List.mem_cons_self hdraw
        refine ih.break hb hdraw hkeep hne ?_ (hafterRaw hdraw)
        rintro rfl
        simp [hb] at hq
      | false => exact ih.word hindent (hspell d List.mem_cons_self hd hdraw) hd hdraw

/-- A quoted scalar is what stands between its quotes. -/
theorem quotedScalar_of_readsQuoted {c : Cursor}
    (h : ReadsQuoted c.mark quote spell isRaw indent size rest cs)
    (hc : c.rest = quote :: (quotedText spell isRaw indent false cs ++ quote :: rest))
    (hsize : (quotedText spell isRaw indent false cs).length ≤ size) :
    ∃ c', quotedScalar size quote c = .ok (cs, c') ∧
      c.Lands c' ((quotedText spell isRaw indent false cs).length + 2) rest
        (∀ d ∈ cs, isRaw d = false) := by
  have hnext : (c.skip 1).rest = quotedText spell isRaw indent false cs ++ quote :: rest :=
    Cursor.rest_skip_append (a := [quote]) hc
  obtain ⟨c', hread, hlands⟩ := h.words size size [] (c.skip 1) hnext (by omega)
  refine ⟨c', ?_, Nat.add_comm 1 _ ▸ hlands.of_skip⟩
  -- Behind the first quote no document can end, as the column is not the first one.
  have hindicator : (c.skip 1).atDocumentIndicator = false := by
    simp [Cursor.atDocumentIndicator, Cursor.skip]
  have hlines : quotedLines c.mark quote size (size + 1) [] (c.skip 1) = .ok (cs.reverse ++ [], c') := by
    rw [quotedLines_eq_words hindicator (fun h => by simp [hnext] at h), hread]
  simp [quotedScalar, hlines, bind, Except.bind, pure, Except.pure]

end

/-! ## §4 Single quotes -/

/-- A character in single quotes. -/
def singleChar (c : Char) : List Char :=
  if c = '\'' then [c, c] else [c]

/-- A printable character is no tab, no return, no null and no next line. -/
theorem isPrintable_not_tab {c : Char} (h : isPrintable c = true) :
    c ≠ '\t' ∧ c ≠ '\r' ∧ c.toNat ≠ 0 ∧ c.toNat ≠ 0x85 := by
  refine ⟨?_, ?_, fun hn => ?_, fun hn => ?_⟩
  · rintro rfl
    exact absurd h (by decide)
  · rintro rfl
    exact absurd h (by decide)
  · simp [isPrintable, hn] at h
  · simp [isPrintable, hn] at h

/-- In single quotes a character is itself, and a quote is doubled. -/
theorem spelled_singleChar {c : Char} (hc : (isBlankChar c || isBreakChar c) = false) :
    Spelled '\'' singleChar c := by
  refine ⟨?_, ?_, ?_⟩
  · unfold singleChar
    split <;> simpa using hc
  · unfold singleChar
    split <;> simp
  · intro start m content cursor text hrest
    unfold singleChar at hrest ⊢
    split at hrest
    -- Two quotes are read as one.
    · next h =>
      subst h
      simp [quotedRun, hrest, atBlankOrEnd, hc, startsWith]
    · next h => simp [quotedRun, hrest, atBlankOrEnd, hc, h]

/-- A string as it stands in single quotes. -/
def singleText (indent : Nat) (cs : List Char) : List Char :=
  quotedText singleChar isBreakChar indent false cs

/-- What single quotes can hold: printable characters, no blank beside a line break. -/
theorem shape_single {cs : List Char} (h : (Shape.of cs).single = true) :
    holdsPair isBreakChar isSpaceChar cs = false ∧ holdsPair isSpaceChar isBreakChar cs = false ∧
      ∀ c ∈ cs, isPrintable c = true := by
  cases cs with
  | nil => exact ⟨rfl, rfl, by simp⟩
  | cons c cs => simpa [Shape.of, and_assoc] using h

/-- A printable character that is neither a space nor a line break may begin a word. -/
theorem not_gap_of_isPrintable {c : Char} (h : isPrintable c = true) (hspace : c ≠ ' ')
    (hbreak : isBreakChar c = false) : (isBlankChar c || isBreakChar c) = false := by
  simp [isBlankChar, hspace, hbreak, (isPrintable_not_tab h).1]

/-- The line breaks that stand in single quotes or in a block are read as they are. -/
theorem breakText_of_isPrintable {c : Char} (h : isPrintable c = true) (hbreak : isBreakChar c = true) :
    breakText c = c := by
  obtain ⟨-, hreturn, -, hnext⟩ := isPrintable_not_tab h
  simp only [isBreakChar, hreturn, hnext, decide_false, Bool.or_false, Bool.or_eq_true,
    decide_eq_true_eq] at hbreak
  unfold breakText
  split
  · rfl
  · next hne => simp_all

/-- What stands in single quotes is read back from there. -/
theorem quotedScalar_single {cs rest : List Char} {indent size : Nat} {c : Cursor}
    (hshape : (Shape.of cs).single = true) (hlines : '\n' ∉ cs) (hindent : 0 < indent)
    (hrest : startsWith '\'' rest = false) (hc : c.rest = '\'' :: (singleText indent cs ++ '\'' :: rest))
    (hsize : (singleText indent cs).length ≤ size) :
    ∃ c', quotedScalar size '\'' c = .ok (cs, c') ∧
      c.Lands c' ((singleText indent cs).length + 2) rest (∀ d ∈ cs, isBreakChar d = false) := by
  obtain ⟨hbreakSpace, hspaceBreak, hprintable⟩ := shape_single hshape
  refine quotedScalar_of_readsQuoted (readsQuoted hindent rfl hrest rfl ?_ ?_ hbreakSpace hspaceBreak)
    hc hsize
  · intro d hd hspace hbreak
    exact spelled_singleChar (not_gap_of_isPrintable (hprintable d hd) hspace hbreak)
  · intro d hd hbreak
    exact ⟨hbreak, breakText_of_isPrintable (hprintable d hd) hbreak, fun h => hlines (h ▸ hd)⟩

/-! ## §5 Double quotes -/

/-- A letter behind a backslash stands for the character that is spelled so. -/
theorem escapeOf?_of_escapeLetter? {c l : Char} (h : escapeLetter? c = some l) :
    escapeOf? l = some (.char c) ∧ isBreakChar l = false := by
  have hc : c = Char.ofNat c.toNat := c.ofNat_toNat.symm
  unfold escapeLetter? at h
  split at h <;> rename_i heq <;> cases h <;>
  · rw [heq] at hc
    subst hc
    exact ⟨rfl, by decide⟩

/-- A digit to the base sixteen is read as its number. -/
theorem isHexChar_digit : ∀ n < 16, isHexChar (Nat.digitChar n).toUpper = true ∧
    hexCharValue (Nat.digitChar n).toUpper = n := by
  decide

/-- An escape has all the digits that its letter asks for. -/
theorem length_upperHex (width n : Nat) : (upperHex width n).length = width := by
  induction width generalizing n with
  | zero => rfl
  | succ width ih => simp [upperHex, ih]

/-- The digits of an escape are digits to the base sixteen. -/
theorem isHexChar_upperHex (width n : Nat) : ∀ c ∈ upperHex width n, isHexChar c = true := by
  induction width generalizing n with
  | zero => simp [upperHex]
  -- The digits are those of the number without its last one, and that one.
  | succ width ih =>
    intro c hc
    rcases List.mem_append.mp hc with hc | hc
    · exact ih _ c hc
    · rw [List.mem_singleton.mp hc]
      exact (isHexChar_digit _ (Nat.mod_lt _ (by decide))).1

/-- Its digits to the base sixteen are read as a number, if they suffice for it. -/
theorem foldl_upperHex (width n : Nat) :
    (upperHex width n).foldl (fun n d => n * 16 + hexCharValue d) 0 = n % Nat.pow 16 width := by
  induction width generalizing n with
  | zero => simp [upperHex, Nat.mod_one]
  | succ width ih =>
    rw [upperHex, List.foldl_append, ih]
    simp only [List.foldl_cons, List.foldl_nil, (isHexChar_digit _ (Nat.mod_lt n (by decide : 0 < 16))).2]
    have hpow : Nat.pow 16 (width + 1) = 16 * Nat.pow 16 width := Nat.mul_comm ..
    rw [hpow, Nat.mod_mul]
    omega

/-- An escape by number is read back. -/
theorem quotedEscape_of_digits {start : Mark} {c : Cursor} {d l : Char} {width : Nat} {text : List Char}
    (hc : c.rest = '\\' :: l :: (upperHex width d.toNat ++ text)) (hl : escapeOf? l = some (.digits width))
    (hd : d.toNat < Nat.pow 16 width) :
    quotedEscape start c = .ok (d, c.skip (width + 2)) := by
  have hrest : (c.skip 2).rest = upperHex width d.toNat ++ text :=
    Cursor.rest_skip_append (a := ['\\', l]) hc
  have htake : (c.skip 2).rest.take width = upperHex width d.toNat := by
    rw [hrest, List.take_left' (length_upperHex ..)]
  -- The number is that of a character, so it is none of the numbers that are refused.
  have hvalue : (upperHex width d.toNat).foldl (fun n d => n * 16 + hexCharValue d) 0 = d.toNat := by
    rw [foldl_upperHex, Nat.mod_eq_of_lt hd]
  have hvalid : ((0xD800 ≤ d.toNat && d.toNat ≤ 0xDFFF) || 0x10FFFF < d.toNat) = false := by
    have hd : d.toNat < 0xD800 ∨ 0xDFFF < d.toNat ∧ d.toNat < 0x110000 := d.valid
    simp only [Bool.or_eq_false_iff, Bool.and_eq_false_imp, decide_eq_true_eq, decide_eq_false_iff_not]
    omega
  have hhex : (upperHex width d.toNat).all isHexChar = true :=
    List.all_eq_true.mpr (isHexChar_upperHex _ _)
  simp only [quotedEscape, hc, List.drop_succ_cons, List.drop_zero, List.head?_cons, Option.bind_some, hl,
    htake, length_upperHex, hhex, hvalue, hvalid]
  simp [Cursor.skip_skip, Nat.add_comm]

/-- An escape in double quotes stands for its character. -/
theorem quotedRun_of_escape {start : Mark} {c c' : Cursor} {d l : Char} {text : List Char}
    (hc : c.rest = '\\' :: l :: text) (hl : isBreakChar l = false)
    (h : quotedEscape start c = .ok (d, c')) (m : Nat) (content : List Char) :
    quotedRun start '"' (m + 1) content c = quotedRun start '"' m (d :: content) c' := by
  have hgap : atBlankOrEnd c.rest = false := by rw [hc]; rfl
  rw [quotedRun, hgap]
  simp [hc, atBreakOrEnd, hl, h]

/-- In double quotes every character but a blank has a spelling that is read. -/
theorem spelled_doubleChar {c : Char} (hspace : c ≠ ' ') : Spelled '"' doubleChar c := by
  by_cases hplain : (isPrintable c && !isBreakChar c && c ≠ '"' && c ≠ '\\') = true
  · have hchar : doubleChar c = [c] := if_pos hplain
    simp only [Bool.and_eq_true, Bool.not_eq_true', decide_eq_true_eq] at hplain
    obtain ⟨⟨⟨hprintable, hbreak⟩, hquote⟩, hslash⟩ := hplain
    have hgap := not_gap_of_isPrintable hprintable hspace hbreak
    refine ⟨by simpa [hchar] using hgap, by simp [hchar], ?_⟩
    intro start m content cursor text hrest
    rw [hchar] at hrest ⊢
    simp [quotedRun, hrest, atBlankOrEnd, hgap, hquote, hslash]
  -- A character that cannot stand for itself has a letter, or its number is written in as many
  -- digits as it needs.
  · cases hletter : escapeLetter? c with
    | some l =>
      have hchar : doubleChar c = ['\\', l] := by rw [doubleChar, if_neg hplain, hletter]
      obtain ⟨hescape, hbreak⟩ := escapeOf?_of_escapeLetter? hletter
      refine ⟨by rw [hchar]; rintro _ ⟨⟩; rfl, by simp [hchar], ?_⟩
      intro start m content cursor text hrest
      rw [hchar] at hrest ⊢
      exact quotedRun_of_escape hrest hbreak (by simp [quotedEscape, hrest, hescape]) m content
    | none =>
      obtain ⟨l, width, hchar, hescape, hbreak, hwidth⟩ : ∃ l width,
          doubleChar c = '\\' :: l :: upperHex width c.toNat ∧ escapeOf? l = some (.digits width) ∧
            isBreakChar l = false ∧ c.toNat < Nat.pow 16 width := by
        have hvalid : c.toNat < 0x110000 := by
          have : c.toNat < 0xD800 ∨ 0xDFFF < c.toNat ∧ c.toNat < 0x110000 := c.valid
          omega
        rw [doubleChar, if_neg hplain, hletter]
        dsimp only
        split
        · exact ⟨'x', 2, rfl, rfl, by decide, by rw [Nat.pow_eq]; omega⟩
        · split
          · exact ⟨'u', 4, rfl, rfl, by decide, by rw [Nat.pow_eq]; omega⟩
          · exact ⟨'U', 8, rfl, rfl, by decide, by rw [Nat.pow_eq]; omega⟩
      refine ⟨by rw [hchar]; rintro _ ⟨⟩; rfl, by simp [hchar], ?_⟩
      intro start m content cursor text hrest
      have hlength : (doubleChar c).length = width + 2 := by simp [hchar, length_upperHex]
      rw [hlength]
      exact quotedRun_of_escape (by rw [hrest, hchar]; rfl) hbreak
        (quotedEscape_of_digits (by rw [hrest, hchar]; rfl) hescape hwidth) m content

/-- Where no two characters are such a pair there is none next to one another. -/
theorem holdsPair_false {p q : Char → Bool} (cs : List Char) (h : ∀ c d, (p c && q d) = false) :
    holdsPair p q cs = false := by
  induction cs with
  | nil => rfl
  | cons c cs ih =>
    cases cs with
    | nil => rfl
    | cons d cs => simp only [holdsPair, h c d, ih, Bool.or_false]

/-- What stands in double quotes is read back from there, on one line. -/
theorem quotedScalar_double {cs rest : List Char} {size : Nat} {c : Cursor}
    (hrest : startsWith '"' rest = false) (hc : c.rest = '"' :: (cs.flatMap doubleChar ++ '"' :: rest))
    (hsize : (cs.flatMap doubleChar).length ≤ size) :
    quotedScalar size '"' c = .ok (cs, c.skip ((cs.flatMap doubleChar).length + 2)) := by
  have hspell : quotedText doubleChar (fun _ => false) 1 false cs = cs.flatMap doubleChar :=
    quotedText_false (by decide) fun _ _ => rfl
  rw [← hspell] at hc hsize ⊢
  obtain ⟨c', hread, hlands⟩ := quotedScalar_of_readsQuoted (readsQuoted Nat.one_pos rfl hrest rfl
    (fun d _ hspace _ => spelled_doubleChar hspace) (by simp) (holdsPair_false cs (by simp))
    (holdsPair_false cs (by simp))) hc hsize
  rw [hread, hlands.place fun _ _ => rfl]

end QueryPlayground.Yaml
