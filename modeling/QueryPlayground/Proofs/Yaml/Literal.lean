import QueryPlayground.Proofs.Yaml.Quoted
import QueryPlayground.Proofs.Yaml.Scan

/-!
# Literal blocks

The lines of a string as a literal block: each that is not empty behind its indentation. The reader takes
the indentation from the hint or from the first line, and what it keeps of the line breaks at the end is
what the other hint says.

Main statement: `blockScalar_literal`.
-/

namespace QueryPlayground.Yaml

open Scanner (Tail Ended AtToken)

/-! ## §1 The lines of a block -/

/-- The lines of a literal block; `broken` says whether a line begins. -/
def literalText (indent : Nat) : Bool → List Char → List Char
  | _, [] => []
  | broken, c :: cs =>
    if isBreakChar c then c :: literalText indent true cs
    else (if broken then List.replicate indent ' ' else []) ++ c :: literalText indent false cs

/-- In front of the first character of a line stands the indentation. -/
theorem literalText_true {indent : Nat} {c : Char} {cs : List Char} (h : isBreakChar c = false) :
    literalText indent true (c :: cs) =
      List.replicate indent ' ' ++ literalText indent false (c :: cs) := by
  simp [literalText, h]

/-- A line stands as it is behind its indentation. -/
theorem literalText_line {indent : Nat} {line : List Char} (h : ∀ c ∈ line, isBreakChar c = false)
    (cs : List Char) : literalText indent false (line ++ cs) = line ++ literalText indent false cs := by
  induction line with
  | nil => rfl
  | cons c line ih =>
    have ih := ih fun d hd => h d (List.mem_cons_of_mem _ hd)
    simp [literalText, h c List.mem_cons_self, ih]

/-- The cursor has passed over the indentation of what comes behind a block. -/
def AtTail (c : Cursor) : Tail → Prop
  | .done => c.rest = []
  | .line column rest => c.rest = rest ∧ c.column = column

section

variable {start : Mark} {indent : Nat}

theorem takeWhile_spaces (k : Nat) (text : List Char) :
    (List.replicate k ' ' ++ text).takeWhile (· = ' ') =
      List.replicate k ' ' ++ text.takeWhile (· = ' ') := by
  rw [List.takeWhile_append_of_pos]
  intro c hc
  simp [List.eq_of_mem_replicate hc]

theorem takeWhile_of_head {text : List Char} (h : ∀ d ∈ text.head?, d ≠ ' ') :
    text.takeWhile (· = ' ') = [] := by
  cases text with
  | nil => rfl
  | cons d text => simp [h d rfl]

/-- A line that is not empty ends what is passed over. -/
theorem blockBreaks_stop {c : Cursor} {k : Nat} {text : List Char} (hcolumn : c.column = 0)
    (hc : c.rest = List.replicate k ' ' ++ text)
    (hk : (if indent = 0 then (c.taken (· = ' ')).length
      else min (c.taken (· = ' ')).length (indent - c.column)) = k)
    (htext : ∀ d ∈ text.head?, isBreakChar d = false ∧ d ≠ '\t') (fuel deepest : Nat)
    (breaks : List Char) :
    blockBreaks start indent (fuel + 1) deepest breaks c = .ok (max deepest k, breaks, c.skip k) := by
  have hrest := Cursor.rest_skip_spaces hc
  have hstop : ((c.skip k).rest.isEmpty || !atBreakOrEnd (c.skip k).rest) = true := by
    rw [hrest]
    cases text with
    | nil => rfl
    | cons d text => simp [atBreakOrEnd, (htext d rfl).1]
  have htab : startsWith '\t' (c.skip k).rest = false := by
    rw [hrest]
    cases text with
    | nil => rfl
    | cons d text => simp [startsWith, (htext d rfl).2]
  have hat : (c.skip k).column = k := by simp [Cursor.skip, hcolumn]
  rw [blockBreaks]
  simp only [hk, htab, hstop, hat, Bool.and_false, if_true]
  rfl

variable (start) in
/-- Indentation is passed over up to the text. -/
theorem blockBreaks_indentation {c : Cursor} {k : Nat} {text : List Char} (hcolumn : c.column = 0)
    (hc : c.rest = List.replicate k ' ' ++ text)
    (hk : k = indent ∨ k < indent ∧ ∀ d ∈ text.head?, d ≠ ' ') (hindent : 0 < indent)
    (htext : ∀ d ∈ text.head?, isBreakChar d = false ∧ d ≠ '\t') (fuel deepest : Nat)
    (breaks : List Char) :
    blockBreaks start indent (fuel + 1) deepest breaks c = .ok (max deepest k, breaks, c.skip k) := by
  refine blockBreaks_stop hcolumn hc ?_ htext fuel deepest breaks
  rw [if_neg (by omega), Cursor.taken, hc, takeWhile_spaces, hcolumn]
  rcases hk with rfl | ⟨hlt, hhead⟩
  · simp
  · simp [takeWhile_of_head hhead]
    omega

theorem ne_of_isBlankChar {d : Char} (h : isBlankChar d = false) : d ≠ ' ' ∧ d ≠ '\t' := by
  simpa [isBlankChar] using h

variable (start) in
/-- Where the indentation is not known yet, it is the one of the first line. -/
theorem blockBreaks_first {c : Cursor} {k : Nat} {text : List Char} (hcolumn : c.column = 0)
    (hc : c.rest = List.replicate k ' ' ++ text)
    (htext : ∀ d ∈ text.head?, (isBlankChar d || isBreakChar d) = false) (fuel : Nat) :
    blockBreaks start 0 (fuel + 1) 0 [] c = .ok (k, [], c.skip k) := by
  -- A token of the first line is neither a space nor a tab, so the spaces in front of it are its
  -- indentation.
  have hhead (d : Char) (hd : d ∈ text.head?) : isBreakChar d = false ∧ d ≠ '\t' ∧ d ≠ ' ' := by
    obtain ⟨hblank, hbreak⟩ := Bool.or_eq_false_iff.mp (htext d hd)
    exact ⟨hbreak, (ne_of_isBlankChar hblank).symm⟩
  rw [blockBreaks_stop hcolumn hc ?_ (fun d hd => ⟨(hhead d hd).1, (hhead d hd).2.1⟩) fuel 0 [],
    Nat.zero_max]
  rw [if_pos rfl, Cursor.taken, hc, takeWhile_spaces, takeWhile_of_head fun d hd => (hhead d hd).2.2]
  simp

/-- An empty line is passed over. -/
theorem blockBreaks_break {c : Cursor} {b : Char} {text : List Char} (hc : c.rest = b :: text)
    (hb : isBreakChar b = true) (fuel deepest : Nat) (breaks : List Char) :
    blockBreaks start indent (fuel + 1) deepest breaks c =
      blockBreaks start indent fuel (max deepest c.column) (breakText b :: breaks) c.skipBreak := by
  have hspace : b ≠ ' ' := by
    rintro rfl
    exact absurd hb (by decide)
  have htab : b ≠ '\t' := by
    rintro rfl
    exact absurd hb (by decide)
  have hskip : c.skip 0 = c := rfl
  simp [blockBreaks, Cursor.taken, hc, hspace, hskip, htab, startsWith, atBreakOrEnd, hb,
    Cursor.breakContent]

variable {tail : Tail}

/-- The empty lines with which lines begin were passed over, up to a line of the block or to what comes
behind it. -/
structure Passes (indent : Nat) (tail : Tail) (cs bs cs' : List Char) (c c' : Cursor) : Prop where
  all : cs = bs ++ cs'
  breaks : ∀ b ∈ bs, isBreakChar b = true
  head : ∀ d ∈ cs'.head?, isBreakChar d = false
  line : c.line ≤ c'.line
  more : cs' ≠ [] → c'.column = indent ∧ c'.rest = literalText indent false cs' ++ tail.text
  done : cs' = [] → AtTail c' tail

/-- What comes behind a block is no line of it. -/
theorem AtTail.stops {c : Cursor} (h : AtTail c tail)
    (htail : ∀ column rest, tail = .line column rest → column < indent ∧ AtToken rest) :
    c.column ≠ indent ∨ c.rest = [] := by
  cases tail with
  | done => exact .inr h
  | line column rest => exact .inl (h.2 ▸ Nat.ne_of_lt (htail column rest rfl).1)

variable (start) in
/-- Behind a block the indentation of what follows is passed over. -/
theorem blockBreaks_tail (hindent : 0 < indent)
    (htail : ∀ column rest, tail = .line column rest → column < indent ∧ AtToken rest) {c : Cursor}
    (hcolumn : c.column = 0) (hc : c.rest = tail.text) (fuel deepest : Nat) (breaks : List Char) :
    ∃ deepest' c', Passes indent tail [] [] [] c c' ∧
      blockBreaks start indent (fuel + 1) deepest breaks c = .ok (deepest', breaks, c') := by
  cases tail with
  | done =>
    have hrest : c.rest = List.replicate 0 ' ' ++ [] := hc
    have hstop := blockBreaks_indentation start hcolumn hrest (.inr ⟨hindent, by simp⟩) hindent
      (by simp) fuel deepest breaks
    exact ⟨_, _, ⟨rfl, by simp, by simp, Nat.le_refl _, fun h => absurd rfl h, fun _ => hc⟩, hstop⟩
  | line column rest =>
    obtain ⟨hlt, htoken⟩ := htail column rest rfl
    have hstop := blockBreaks_indentation start hcolumn hc
      (.inr ⟨hlt, fun d hd => (ne_of_isBlankChar (htoken d hd).1).1⟩) hindent
      (fun d hd => ⟨(htoken d hd).2.1, (ne_of_isBlankChar (htoken d hd).1).2⟩) fuel deepest breaks
    refine ⟨_, c.skip column, ?_, hstop⟩
    refine ⟨rfl, by simp, by simp, Nat.le_refl _, fun h => absurd rfl h, fun _ => ?_⟩
    exact ⟨Cursor.rest_skip_spaces hc, by simp [Cursor.skip, hcolumn]⟩

variable (start) in
/-- Empty lines are passed over. -/
theorem blockBreaks_text (hindent : 0 < indent)
    (htail : ∀ column rest, tail = .line column rest → column < indent ∧ AtToken rest) {cs : List Char} :
    ∀ {c : Cursor} {fuel : Nat} (deepest : Nat) (breaks : List Char), (∀ d ∈ cs, isPrintable d = true) →
      c.column = 0 → c.rest = literalText indent true cs ++ tail.text → cs.length < fuel →
      ∃ bs cs' deepest' c', Passes indent tail cs bs cs' c c' ∧
        blockBreaks start indent fuel deepest breaks c = .ok (deepest', bs.reverse ++ breaks, c') := by
  induction cs with
  | nil =>
    intro c fuel deepest breaks _ hcolumn hc hfuel
    obtain ⟨fuel, rfl⟩ : ∃ n, fuel = n + 1 := ⟨fuel - 1, by omega⟩
    obtain ⟨deepest', c', hpasses, hread⟩ :=
      blockBreaks_tail start hindent htail hcolumn hc fuel deepest breaks
    exact ⟨[], [], deepest', c', hpasses, hread⟩
  | cons d cs ih =>
    intro c fuel deepest breaks hchars hcolumn hc hfuel
    obtain ⟨fuel, rfl⟩ : ∃ n, fuel = n + 1 := ⟨fuel - 1, by omega⟩
    have hd := hchars d List.mem_cons_self
    cases hb : isBreakChar d with
    | true =>
      have hrest : c.rest = d :: (literalText indent true cs ++ tail.text) := by
        rw [hc, literalText, if_pos hb]
        rfl
      have hskip := Cursor.skipBreak_eq hrest hb (isPrintable_not_tab hd).2.1
      obtain ⟨bs, cs', deepest', c', hpasses, hread⟩ :=
        ih (max deepest c.column) (d :: breaks) (fun e he => hchars e (List.mem_cons_of_mem _ he))
          (show c.skipBreak.column = 0 by rw [hskip]) (by rw [hskip]) (Nat.lt_of_succ_lt_succ hfuel)
      have hline : c.line + 1 ≤ c'.line := by simpa [hskip] using hpasses.line
      refine ⟨d :: bs, cs', deepest', c', ?_, ?_⟩
      · exact ⟨congrArg (d :: ·) hpasses.all, List.forall_mem_cons.mpr ⟨hb, hpasses.breaks⟩, hpasses.head,
          Nat.le_of_succ_le hline, hpasses.more, hpasses.done⟩
      · rw [blockBreaks_break hrest hb, breakText_of_isPrintable hd hb, hread]
        simp
    | false =>
      have hrest : c.rest =
          List.replicate indent ' ' ++ (literalText indent false (d :: cs) ++ tail.text) := by
        rw [hc, literalText_true hb, List.append_assoc]
      have hstop := blockBreaks_indentation start hcolumn hrest (.inl rfl) hindent
        (by simpa [literalText, hb] using (isPrintable_not_tab hd).1) fuel deepest breaks
      refine ⟨[], d :: cs, _, c.skip indent, ?_, hstop⟩
      refine ⟨rfl, by simp, by simpa using hb, Nat.le_refl _, fun _ => ?_, by simp⟩
      exact ⟨by simp [Cursor.skip, hcolumn], Cursor.rest_skip_spaces hrest⟩

/-! ## §2 The lines read -/

/-- What the reader has of a block at its end: the content, the line break behind it and those that
follow, all in reverse, which together are the lines. -/
structure Gathers (content lead trail lines : List Char) : Prop where
  all : trail ++ (lead ++ content) = lines
  breaks : ∀ b ∈ trail ++ lead, isBreakChar b = true
  firm : ∀ d ∈ content.head?, isBreakChar d = false
  first : lead = [] → trail = [] ∨ content = []
  empty : content = [] → lead = []
  one : lead.length ≤ 1

/-- A line is gathered with the line break that ends it and the empty lines behind. -/
theorem gathers_line {line content lead trail : List Char} (hne : line ≠ [])
    (hline : ∀ d ∈ line, isBreakChar d = false) (hbreaks : ∀ b ∈ trail ++ lead, isBreakChar b = true)
    (hfirst : lead = [] → trail = []) (hone : lead.length ≤ 1) :
    Gathers (line.reverse ++ content) lead trail (trail ++ (lead ++ (line.reverse ++ content))) where
  all := rfl
  breaks := hbreaks
  firm := by
    intro d hd
    have hend := List.getLast?_eq_some_getLast hne
    rw [List.head?_append, List.head?_reverse, hend, Option.some_or] at hd
    exact hline d (List.mem_of_getLast? (hend.trans hd))
  first h := .inl (hfirst h)
  empty h := absurd h (by simp [hne])
  one := hone

/-- Lines that do not begin with a line break begin with one that is not empty. -/
theorem exists_line {cs : List Char} (hne : cs ≠ []) (hhead : ∀ d ∈ cs.head?, isBreakChar d = false) :
    ∃ line more, cs = line ++ more ∧ line ≠ [] ∧ (∀ d ∈ line, isBreakChar d = false) ∧
      ∀ d ∈ more.head?, isBreakChar d = true := by
  refine ⟨cs.takeWhile (!isBreakChar ·), cs.dropWhile (!isBreakChar ·),
    (List.takeWhile_append_dropWhile ..).symm, ?_, fun d hd => ?_, fun d hd => ?_⟩
  · obtain ⟨d, cs, rfl⟩ := List.exists_cons_of_ne_nil hne
    simp [hhead d rfl]
  · simpa using List.all_eq_true.mp List.all_takeWhile d hd
  · have := List.head?_dropWhile_not (!isBreakChar ·) cs
    simp only [Option.mem_def.mp hd] at this
    simpa using this

variable (start indent) in
/-- At the end of the text nothing is passed over. -/
theorem blockBreaks_end {c : Cursor} (hc : c.rest = []) (fuel deepest : Nat) (breaks : List Char) :
    ∃ deepest', blockBreaks start indent fuel deepest breaks c = .ok (deepest', breaks, c) := by
  have hskip : c.skip 0 = c := rfl
  cases fuel with
  | zero => exact ⟨_, rfl⟩
  | succ fuel => simp [blockBreaks, Cursor.taken, hc, hskip, startsWith]

/-- Left of the indentation, and at the end of the text, no line of the block follows. -/
theorem blockLines_stop {c : Cursor} (hc : c.column ≠ indent ∨ c.rest = []) {size : Nat} (fuel : Nat)
    (content lead trail : List Char) (leadBlank : Bool) :
    blockLines start true indent size fuel content lead trail leadBlank c =
      .ok (content, lead, trail, c) := by
  cases fuel with
  | zero => rfl
  | succ fuel => rcases hc with hc | hc <;> simp [blockLines, hc]

/-- A line is read with the empty ones behind it. -/
theorem blockLines_step {c after : Cursor} {size deepest : Nat} {line rest trail' : List Char}
    (hcolumn : c.column = indent) (hc : c.rest = line ++ rest) (hne : line ≠ [])
    (hline : ∀ d ∈ line, isBreakChar d = false) (hrest : ∀ d ∈ rest.head?, isBreakChar d = true)
    (hbreaks : blockBreaks start indent size 0 [] (c.skip line.length).skipBreak =
      .ok (deepest, trail', after))
    (fuel : Nat) (content lead trail : List Char) (leadBlank : Bool) :
    ∃ blank, blockLines start true indent size (fuel + 1) content lead trail leadBlank c =
      blockLines start true indent size fuel (line.reverse ++ (trail ++ (lead ++ content)))
        (c.skip line.length).breakContent trail' blank after := by
  have htaken : c.taken (!isBreakChar ·) = line := by
    rw [Cursor.taken, hc, List.takeWhile_append_of_pos (fun d hd => by simp [hline d hd])]
    cases rest with
    | nil => simp
    | cons d rest => simp [hrest d rfl]
  have hempty : c.rest.isEmpty = false := by simp [hc, hne]
  rw [blockLines, if_pos (by simp [hcolumn, hempty])]
  simp only [htaken, hbreaks, Bool.not_true, Bool.false_and, Bool.false_eq_true, if_false,
    List.append_assoc]
  exact ⟨_, rfl⟩

variable (start) in
/-- The lines of a block are read one after the other. -/
theorem blockLines_text (hindent : 0 < indent)
    (htail : ∀ column rest, tail = .line column rest → column < indent ∧ AtToken rest) {size : Nat}
    (n : Nat) :
    ∀ {cs : List Char} {c : Cursor} {fuel : Nat} (content lead trail : List Char) (leadBlank : Bool),
      cs.length ≤ n → cs.length ≤ min fuel size → (∀ d ∈ cs, isPrintable d = true) →
      (∀ d ∈ cs.head?, isBreakChar d = false) → cs ≠ [] →
      (tail = .done ∨ ∀ d ∈ cs.getLast?, isBreakChar d = true) →
      c.column = indent → c.rest = literalText indent false cs ++ tail.text →
      ∃ content' lead' trail' c', blockLines start true indent size fuel content lead trail leadBlank c =
          .ok (content', lead', trail', c') ∧
        Gathers content' lead' trail' (cs.reverse ++ (trail ++ (lead ++ content))) ∧ c.line ≤ c'.line ∧
        AtTail c' tail := by
  -- By induction on a bound of what is left, as each line takes more than one character.
  induction n with
  | zero =>
    intro cs c fuel content lead trail leadBlank hn _ _ _ hne
    exact absurd (List.length_eq_zero_iff.mp (Nat.le_zero.mp hn)) hne
  | succ n ih =>
    intro cs c fuel content lead trail leadBlank hn hfuel hchars hhead hne hlast hcolumn hc
    obtain ⟨fuel, rfl⟩ : ∃ m, fuel = m + 1 :=
      ⟨fuel - 1, by have := List.length_pos_iff.mpr hne; omega⟩
    obtain ⟨line, more, rfl, hlinene, hline, hmore⟩ := exists_line hne hhead
    rw [literalText_line hline, List.append_assoc] at hc
    simp only [List.length_append] at hn hfuel
    cases more with
    | nil =>
      -- Only the last line of a text lacks its end.
      have hdone : tail = .done := by
        refine hlast.resolve_right fun h => ?_
        rw [List.append_nil] at h
        have hbreak := h _ (List.getLast?_eq_some_getLast hlinene)
        rw [hline _ (List.getLast_mem hlinene)] at hbreak
        cases hbreak
      subst hdone
      have hend : (c.skip line.length).rest = [] :=
        Cursor.rest_skip_append (hc.trans (by simp [literalText, Tail.text]))
      have hskip : (c.skip line.length).skipBreak = c.skip line.length := by
        simp [Cursor.skipBreak, hend]
      obtain ⟨deepest, hbreaks⟩ := blockBreaks_end start indent hend size 0 []
      obtain ⟨blank, hstep⟩ := blockLines_step hcolumn hc hlinene hline
        (by simp [literalText, Tail.text]) ((congrArg _ hskip).trans hbreaks) fuel content lead trail
        leadBlank
      rw [hstep, Cursor.breakContent, hend, blockLines_stop (.inr hend)]
      refine ⟨_, _, _, _, rfl, ?_, Nat.le_refl _, hend⟩
      have hnone : ∀ d ∈ ([] ++ [] : List Char), isBreakChar d = true := by simp
      simpa using gathers_line hlinene hline hnone (fun _ => rfl) (Nat.zero_le _)
    | cons b more =>
      have hb : isBreakChar b = true := hmore b rfl
      have hbchar : isPrintable b = true := hchars b (by simp)
      -- The line is ended, and the empty lines behind it are passed over.
      have hrest : (c.skip line.length).rest = b :: (literalText indent true more ++ tail.text) := by
        rw [Cursor.rest_skip_append hc, literalText, if_pos hb]
        rfl
      have hskip := Cursor.skipBreak_eq hrest hb (isPrintable_not_tab hbchar).2.1
      have hcontent : (c.skip line.length).breakContent = [b] := by
        simp [Cursor.breakContent, hrest, hb, breakText_of_isPrintable hbchar hb]
      simp only [List.length_cons] at hn hfuel
      obtain ⟨bs, cs', deepest, after, hpasses, hread⟩ :=
        blockBreaks_text start hindent htail 0 [] (fun d hd => hchars d (by simp [hd]))
          (show (c.skip line.length).skipBreak.column = 0 by rw [hskip]) (by rw [hskip])
          (show more.length < size by omega)
      rw [List.append_nil] at hread
      obtain rfl := hpasses.all
      have hafter : c.line ≤ after.line := by
        have hline := hpasses.line
        rw [hskip] at hline
        exact Nat.le_of_succ_le hline
      obtain ⟨blank, hstep⟩ := blockLines_step hcolumn hc hlinene hline (by simp [literalText, hb]) hread
        fuel content lead trail leadBlank
      rw [hstep, hcontent]
      -- Nothing else follows, or another line does, to which the induction applies.
      by_cases hcs' : cs' = []
      · subst hcs'
        rw [blockLines_stop ((hpasses.done rfl).stops htail)]
        refine ⟨_, _, _, _, rfl, ?_, hafter, hpasses.done rfl⟩
        have hbreaks : ∀ d ∈ bs.reverse ++ [b], isBreakChar d = true := by
          simpa [hb, or_imp, forall_and] using hpasses.breaks
        simpa using gathers_line hlinene hline hbreaks (by simp) (Nat.le_refl _)
      · obtain ⟨hcolumn', hrest'⟩ := hpasses.more hcs'
        have hlast' : tail = .done ∨ ∀ d ∈ cs'.getLast?, isBreakChar d = true := by
          refine hlast.imp_right fun h d hd => h d ?_
          rw [← List.cons_append, ← List.append_assoc, List.getLast?_append, Option.mem_def.mp hd]
          rfl
        simp only [List.length_append] at hn hfuel
        obtain ⟨content', lead', trail', c', hblock, hgathers, hle, htail'⟩ :=
          ih (line.reverse ++ (trail ++ (lead ++ content))) [b] bs.reverse blank
            (show cs'.length ≤ n by omega) (show cs'.length ≤ min fuel size by omega)
            (fun d hd => hchars d (by simp [hd])) hpasses.head hcs' hlast' hcolumn' hrest'
        refine ⟨content', lead', trail', c', hblock, ?_, Nat.le_trans hafter hle, htail'⟩
        simpa using hgathers

end

/-! ## §3 Headers and whole blocks -/

namespace Chomping

/-- The hint for the line breaks at the end of a block. -/
def hint : Chomping → List Char
  | strip => ['-']
  | clip => []
  | keep => ['+']

/-- The line breaks that stay, of the first one and those after it, in reverse. -/
def kept (lead trail : List Char) : Chomping → List Char
  | strip => []
  | clip => lead
  | keep => trail ++ lead

/-- What lines are the content of: of the line breaks at the end, those that stay. -/
def content (lines : List Char) : Chomping → List Char
  | strip => (lines.reverse.dropWhile isBreakChar).reverse
  | clip =>
    if lines.all isBreakChar then []
    else
      (lines.reverse.dropWhile isBreakChar).reverse ++
        (lines.reverse.takeWhile isBreakChar).reverse.take 1
  | keep => lines

end Chomping

/-- The line breaks gathered at the end are all there are. -/
theorem Gathers.split {content lead trail lines : List Char} (h : Gathers content lead trail lines) :
    lines.takeWhile isBreakChar = trail ++ lead ∧ lines.dropWhile isBreakChar = content := by
  rw [← h.all, ← List.append_assoc, List.takeWhile_append_of_pos h.breaks,
    List.dropWhile_append_of_pos h.breaks]
  have hfirm := h.firm
  cases content with
  | nil => simp
  | cons d content => simp [hfirm d rfl]

/-- What is kept of a block is what its hint says of its lines. -/
theorem Gathers.content_eq {content lead trail lines : List Char}
    (h : Gathers content lead trail lines.reverse) (chomping : Chomping) :
    (chomping.kept lead trail ++ content).reverse = chomping.content lines := by
  obtain ⟨hbreaks, hcontent⟩ := h.split
  cases chomping with
  | strip => simp [Chomping.kept, Chomping.content, hcontent]
  -- To clip leaves the first of the breaks, unless there is nothing in front of them.
  | clip =>
    have hall : lines.all isBreakChar = true ↔ content = [] := by
      rw [← List.all_reverse, ← h.all, ← List.append_assoc, List.all_append,
        List.all_eq_true.mpr h.breaks]
      have hfirm := h.firm
      cases content with
      | nil => simp
      | cons d content => simp [hfirm d rfl]
    simp only [Chomping.kept, Chomping.content, hcontent, hbreaks]
    by_cases hempty : content = []
    · simp [hall.mpr hempty, hempty, h.empty hempty]
    · rw [if_neg (by rw [hall]; exact hempty)]
      rcases lead with _ | ⟨b, _ | ⟨_, _⟩⟩
      · simp [(h.first rfl).resolve_right hempty]
      · simp
      · exact absurd h.one (by simp)
  | keep => simpa [Chomping.kept, Chomping.content] using congrArg List.reverse h.all

/-- The hints of a block, whose indentation is given or not. -/
def blockHints (indented : Bool) (chomping : Chomping) : List Char :=
  (if indented then ['2'] else []) ++ chomping.hint

/-- The header of a block is read to its hints. -/
theorem blockHeader_hints (start : Mark) {c : Cursor} {indented : Bool} {chomping : Chomping}
    {rest : List Char} (hc : c.rest = blockHints indented chomping ++ rest)
    (hrest : ∀ d ∈ rest.head?, d = '\n') :
    blockHeader start c =
      .ok (⟨chomping, if indented then 2 else 0⟩, c.skip (blockHints indented chomping).length) := by
  obtain ⟨text, index, line, column⟩ := c
  obtain rfl : text = _ := hc
  rcases rest with _ | ⟨d, rest⟩
  · cases indented <;> cases chomping <;>
      simp [blockHeader, blockHints, Chomping.hint, chompingIndicator?, indentIndicator, Cursor.skip,
        bind, Except.bind, pure, Except.pure]
  · obtain rfl := hrest d rfl
    cases indented <;> cases chomping <;>
      simp [blockHeader, blockHints, Chomping.hint, chompingIndicator?, indentIndicator, Cursor.skip,
        bind, Except.bind, pure, Except.pure]

theorem length_le_literalText (indent : Nat) (broken : Bool) (cs : List Char) :
    cs.length ≤ (literalText indent broken cs).length := by
  induction cs generalizing broken with
  | nil => exact Nat.zero_le _
  | cons c cs ih =>
    rw [literalText]
    split
    · exact Nat.succ_le_succ (ih true)
    · simp only [List.length_append, List.length_cons]
      exact Nat.le_trans (Nat.succ_le_succ (ih false)) (Nat.le_add_left _ _)

section

variable {size indent : Nat} {parent : Int} {indented : Bool} {chomping : Chomping} {c : Cursor}
  {tail : Tail}

/-- A block is read once its indentation is known. -/
theorem blockScalar_of_lines {rest content lead trail breaks : List Char} {deepest : Nat}
    {first after : Cursor}
    (hc : c.rest = '|' :: (blockHints indented chomping ++ rest)) (hrest : ∀ d ∈ rest.head?, d = '\n')
    (hbreaks : blockBreaks c.mark (if indented then (max parent 0 + 2).toNat else 0) size 0 []
      (c.skip (1 + (blockHints indented chomping).length)).skipBreak = .ok (deepest, breaks, first))
    (hindent : (if indented then (max parent 0 + 2).toNat
      else max deepest (max (parent + 1) 1).toNat) = indent)
    (hlines : blockLines c.mark true indent size size [] [] breaks false first =
      .ok (content, lead, trail, after)) :
    blockScalar size true parent c = .ok ((chomping.kept lead trail ++ content).reverse, after) := by
  -- Behind the header comes the end of its line, so nothing is skipped there.
  have hhints : (c.skip 1).rest = blockHints indented chomping ++ rest :=
    Cursor.rest_skip_append (a := ['|']) hc
  have hheader := blockHeader_hints c.mark hhints hrest
  rw [Cursor.skip_skip] at hheader
  have hnext : (c.skip (1 + (blockHints indented chomping).length)).rest = rest := by
    rw [← Cursor.skip_skip]
    exact Cursor.rest_skip_append hhints
  generalize hat : c.skip (1 + (blockHints indented chomping).length) = place at hbreaks hheader hnext
  have hspace : (place.skipWhile isBlankChar).skipComment = place := by
    have htaken : place.taken isBlankChar = [] := by
      cases rest with
      | nil => simp [Cursor.taken, hnext]
      | cons d rest => simp [Cursor.taken, hnext, hrest d rfl, isBlankChar]
    have hcomment : startsWith '#' place.rest = false := by
      cases rest with
      | nil => simp [startsWith, hnext]
      | cons d rest => simp [startsWith, hnext, hrest d rfl]
    have hskip : place.skip 0 = place := rfl
    simp [Cursor.skipWhile, htaken, hskip, Cursor.skipComment, hcomment]
  have hend : atBreakOrEnd place.rest = true := by
    cases rest with
    | nil => simp [atBreakOrEnd, hnext]
    | cons d rest => simp [atBreakOrEnd, hnext, hrest d rfl, isBreakChar]
  rw [blockScalar]
  simp only [hheader, bind, Except.bind, hspace, hend]
  -- The hint gives the indentation; without one that of the first line is taken.
  have hgiven : (if (if indented = true then 2 else 0) = 0 then 0
      else (max parent 0 + ((if indented = true then 2 else 0 : Nat) : Int)).toNat) =
        if indented = true then (max parent 0 + 2).toNat else 0 := by
    cases indented <;> rfl
  have hknown : (if (if indented = true then (max parent 0 + 2).toNat else 0) = 0 then
      max deepest (max (parent + 1) 1).toNat
      else if indented = true then (max parent 0 + 2).toNat else 0) = indent := by
    cases indented with
    | false => exact hindent
    | true =>
      rw [if_pos rfl] at hindent
      rw [if_pos rfl, if_neg (by omega), hindent]
  simp only [hgiven, hbreaks, hknown, hlines]
  cases chomping <;> rfl

/-- The first lines of a block are passed over as far as they are empty, and the indentation is known
where it is needed. -/
theorem blockBreaks_block (start : Mark) {cs : List Char} (hcolumn : c.column = 0)
    (hc : c.rest = literalText indent true cs ++ tail.text) (hindent : (indent : Int) = max parent 0 + 2)
    (hchars : ∀ d ∈ cs, isPrintable d = true)
    (hfirst : indented = false → ∀ d ∈ cs.head?, (isBlankChar d || isBreakChar d) = false)
    (hempty : cs = [] → tail = .done)
    (htail : ∀ column rest, tail = .line column rest → column < indent ∧ AtToken rest)
    (hsize : cs.length < size) :
    ∃ bs cs' deepest known first, Passes indent tail cs bs cs' c first ∧
      blockBreaks start (if indented then (max parent 0 + 2).toNat else 0) size 0 [] c =
        .ok (deepest, bs.reverse, first) ∧
      (if indented then (max parent 0 + 2).toNat else max deepest (max (parent + 1) 1).toNat) = known ∧
      (known = indent ∨ cs' = [] ∧ tail = .done) := by
  obtain ⟨size, rfl⟩ : ∃ n, size = n + 1 := ⟨size - 1, by omega⟩
  cases indented with
  -- The indentation is given, so empty lines are passed over up to it.
  | true =>
    have hgiven : (max parent 0 + 2).toNat = indent := by omega
    obtain ⟨bs, cs', deepest, first, hpasses, hread⟩ :=
      blockBreaks_text start (by omega) htail 0 [] hchars hcolumn hc hsize
    rw [List.append_nil] at hread
    exact ⟨bs, cs', deepest, indent, first, hpasses, by rw [if_pos rfl, hgiven, hread],
      by rw [if_pos rfl, hgiven], .inl rfl⟩
  -- The first line is not empty and begins with no blank, so it tells the indentation.
  | false =>
    have hfirst := hfirst rfl
    cases cs with
    | nil =>
      obtain rfl := hempty rfl
      have hrest : c.rest = List.replicate 0 ' ' ++ [] := hc
      have hread := blockBreaks_first start hcolumn hrest (by simp) size
      have hpasses : Passes indent .done [] [] [] c (c.skip 0) :=
        ⟨rfl, by simp, by simp, Nat.le_refl _, fun h => absurd rfl h, fun _ => hc⟩
      exact ⟨[], [], 0, _, c.skip 0, hpasses, hread, rfl, .inr ⟨rfl, rfl⟩⟩
    | cons d cs =>
      have hd := hfirst d rfl
      have hb : isBreakChar d = false := by
        simp only [Bool.or_eq_false_iff] at hd
        exact hd.2
      have hrest : c.rest =
          List.replicate indent ' ' ++ (literalText indent false (d :: cs) ++ tail.text) := by
        rw [hc, literalText_true hb, List.append_assoc]
      have hread := blockBreaks_first start hcolumn hrest (by simpa [literalText, hb] using hd) size
      have hpasses : Passes indent tail (d :: cs) [] (d :: cs) c (c.skip indent) :=
        ⟨rfl, by simp, by simpa using hb, Nat.le_refl _,
          fun _ => ⟨by simp [Cursor.skip, hcolumn], Cursor.rest_skip_spaces hrest⟩, by simp⟩
      exact ⟨[], d :: cs, indent, indent, c.skip indent, hpasses, hread,
        by rw [if_neg Bool.false_ne_true]; omega, .inl rfl⟩

/-- What comes behind a block comes on a later line. -/
theorem Cursor.ended_of_atTail {c' : Cursor} (h : AtTail c' tail) (hline : c.line < c'.line) :
    Ended c' true c.line tail := by
  cases tail with
  | done => exact .inr (.inr ⟨rfl, h⟩)
  | line column rest => exact .inr (.inl ⟨column, rest, rfl, h.1, h.2, hline, rfl⟩)

theorem length_rest_le_of_atTail {c' : Cursor} (h : AtTail c' tail) :
    c'.rest.length ≤ tail.text.length := by
  cases tail with
  | done => simp [show c'.rest = [] from h]
  | line column rest => simp [h.1, Tail.text]

/-- A block is read: its hint says which of the line breaks at its end stay. -/
theorem blockScalar_literal {cs : List Char}
    (hc : c.rest =
      '|' :: (blockHints indented chomping ++ '\n' :: (literalText indent true cs ++ tail.text)))
    (hindent : (indent : Int) = max parent 0 + 2) (hchars : ∀ d ∈ cs, isPrintable d = true)
    (hfirst : indented = false → ∀ d ∈ cs.head?, (isBlankChar d || isBreakChar d) = false)
    (hlast : tail = .done ∨ ∃ d, cs.getLast? = some d ∧ isBreakChar d = true) (hfits : tail.Fits parent)
    (hsize : c.rest.length ≤ size) :
    ∃ c', blockScalar size true parent c = .ok (chomping.content cs, c') ∧ Ended c' true c.line tail ∧
      c'.rest.length < c.rest.length := by
  -- The tail is left of the block, as it belongs to a collection around it.
  have htail : ∀ column rest, tail = .line column rest → column < indent ∧ AtToken rest := by
    rintro column rest rfl
    obtain ⟨hle, -, htoken⟩ := hfits
    exact ⟨by omega, htoken⟩
  have hempty : cs = [] → tail = .done := by
    rintro rfl
    refine hlast.resolve_right ?_
    rintro ⟨d, hd, -⟩
    cases hd
  have hlength : cs.length + 2 ≤ size ∧ tail.text.length < c.rest.length := by
    have := length_le_literalText indent true cs
    rw [hc] at hsize ⊢
    simp only [List.length_cons, List.length_append] at hsize ⊢
    omega
  let place := c.skip (1 + (blockHints indented chomping).length)
  have hplace : place.rest = '\n' :: (literalText indent true cs ++ tail.text) := by
    have hhints := Cursor.rest_skip_append (a := ['|']) hc
    simpa [place, Cursor.skip_skip] using Cursor.rest_skip_append hhints
  have hskip := Cursor.skipBreak_lineFeed hplace
  -- First the empty lines at the beginning, then the others, if there are any.
  obtain ⟨bs, cs', deepest, known, first, hpasses, hbreaks, hknown, hindent'⟩ :=
    blockBreaks_block c.mark (show place.skipBreak.column = 0 by rw [hskip]) (by rw [hskip]) hindent
      hchars hfirst hempty htail (show cs.length < size by omega)
  have hfirstLine : c.line < first.line := by
    have hline := hpasses.line
    rw [hskip] at hline
    exact Nat.lt_of_succ_le hline
  obtain rfl := hpasses.all
  by_cases hcs' : cs' = []
  -- There are none, so the content has nothing but the breaks that the hint keeps.
  · subst hcs'
    have hdone := hpasses.done rfl
    have hstop : first.column ≠ known ∨ first.rest = [] := by
      rcases hindent' with rfl | ⟨-, rfl⟩
      · exact hdone.stops htail
      · exact .inr hdone
    have hgathers : Gathers [] [] bs.reverse (bs ++ []).reverse :=
      ⟨by simp, by simpa using hpasses.breaks, by simp, fun _ => .inr rfl, fun _ => rfl, Nat.zero_le _⟩
    rw [← hgathers.content_eq]
    exact ⟨first, blockScalar_of_lines hc (by simp) hbreaks hknown
      (blockLines_stop hstop size [] [] bs.reverse false), Cursor.ended_of_atTail hdone hfirstLine,
      Nat.lt_of_le_of_lt (length_rest_le_of_atTail hdone) hlength.2⟩
  · obtain rfl : known = indent := hindent'.resolve_right fun h => hcs' h.1
    obtain ⟨hcolumn, hrest⟩ := hpasses.more hcs'
    simp only [List.length_append] at hlength
    have hlast' : tail = .done ∨ ∀ d ∈ cs'.getLast?, isBreakChar d = true := by
      refine hlast.imp_right ?_
      rintro ⟨d, hd, hbreak⟩ e he
      rw [List.getLast?_append, Option.mem_def.mp he, Option.some_or] at hd
      cases hd
      exact hbreak
    obtain ⟨content, lead, trail, c', hlines, hgathers, hle, htail'⟩ :=
      blockLines_text c.mark (by omega) htail cs'.length [] [] bs.reverse false (Nat.le_refl _)
        (show cs'.length ≤ min size size by omega) (fun d hd => hchars d (List.mem_append_right _ hd))
        hpasses.head hcs' hlast' hcolumn hrest
    have hgathers : Gathers content lead trail (bs ++ cs').reverse := by simpa using hgathers
    rw [← hgathers.content_eq]
    exact ⟨c', blockScalar_of_lines hc (by simp) hbreaks hknown hlines,
      Cursor.ended_of_atTail htail' (Nat.lt_of_lt_of_le hfirstLine hle),
      Nat.lt_of_le_of_lt (length_rest_le_of_atTail htail') hlength.2⟩

variable (size parent) in
/-- A header with no line behind it is an empty block. -/
theorem blockScalar_bare (hc : c.rest = '|' :: blockHints indented chomping) :
    ∃ c', blockScalar size true parent c = .ok ([], c') ∧ c'.rest = [] := by
  have hhints : (c.skip 1).rest = blockHints indented chomping := Cursor.rest_skip_append (a := ['|']) hc
  have hend : (c.skip (1 + (blockHints indented chomping).length)).rest = [] := by
    rw [← Cursor.skip_skip]
    exact Cursor.rest_skip_append (hhints.trans (List.append_nil _).symm)
  have hskip : (c.skip (1 + (blockHints indented chomping).length)).skipBreak =
      c.skip (1 + (blockHints indented chomping).length) := by
    simp [Cursor.skipBreak, hend]
  obtain ⟨deepest, hbreaks⟩ :=
    blockBreaks_end c.mark (if indented then (max parent 0 + 2).toNat else 0) hend size 0 []
  have hheader : c.rest = '|' :: (blockHints indented chomping ++ []) := by rw [hc, List.append_nil]
  have hread := blockScalar_of_lines hheader (by simp) ((congrArg _ hskip).trans hbreaks) rfl
    (blockLines_stop (.inr hend) size [] [] [] false)
  refine ⟨_, hread.trans ?_, hend⟩
  cases chomping <;> rfl

end

end QueryPlayground.Yaml
