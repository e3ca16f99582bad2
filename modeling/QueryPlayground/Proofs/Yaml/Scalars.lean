import QueryPlayground.Proofs.Text.Blank
import QueryPlayground.Proofs.Yaml.Layout
import QueryPlayground.Proofs.Yaml.Resolution

/-!
# Scalars that were written

What the writer makes of a string: a plain text, quotes or a block, which the reader takes back to the
string. Without the blanks at its end the text of quotes is read to the same string, that of a block to a
string that has lost its own blanks, and a plain text to whatever its rest means.

Main statements: `string_written` and `key_written`.
-/

namespace QueryPlayground.Yaml

open Json (Value)
open Text (dropBlanksRight isBlank)

/-! ## §1 Where the writer stands -/

namespace Writer

/-- The text so far, with the space in front of what is written next. -/
def onward (w : Writer) : List Char :=
  if w.spaced then w.out else ' ' :: w.out

/-- The text of a node has been written: with the end of its last line it is this one, in reverse. -/
def Ends (w : Writer) (out : List Char) : Prop :=
  ∀ n, w.indentTo n = ⟨List.replicate n ' ' ++ out, n, true, true⟩

/-- Characters are put one behind the other. -/
theorem putAll_eq (w : Writer) (cs : List Char) :
    w.putAll cs = { w with out := cs.reverse ++ w.out, column := w.column + cs.length } := by
  induction cs generalizing w with
  | nil => rfl
  | cons c cs ih =>
    show (w.put c).putAll cs = _
    rw [ih]
    simp [put, Nat.add_assoc, Nat.add_comm 1]

/-- At the beginning of a line only the indentation is written. -/
theorem indentTo_of_column {w : Writer} (hfresh : w.fresh = true) (hcolumn : w.column = 0) {n : Nat}
    (h : 0 < n ∨ w.spaced = true) : w.indentTo n = ⟨List.replicate n ' ' ++ w.out, n, true, true⟩ := by
  have hstay : (!w.fresh || decide (n < w.column) || (w.column == n && !w.spaced)) = false := by
    rcases h with h | h
    · have hne : (0 == n) = false := by simp; omega
      simp [hfresh, hcolumn, hne]
    · simp [hfresh, hcolumn, h]
  rw [indentTo]
  simp only [hstay]
  simp [padTo, putAll_eq, hcolumn]

/-- A line with a scalar on it is ended first. -/
theorem ends_of_not_fresh {w : Writer} (h : w.fresh = false) : w.Ends ('\n' :: w.out) := by
  intro n
  simp [indentTo, h, newLine, padTo, putAll_eq]

/-- An indicator is written behind a space. -/
theorem indicator_out (w : Writer) (text : List Char) (isSpace keepsFresh : Bool) :
    (w.indicator text true isSpace keepsFresh).out = text.reverse ++ w.onward := by
  cases h : w.spaced <;> simp [indicator, onward, h, putAll_eq, put]

theorem plain_out (w : Writer) {cs : List Char} (h : cs ≠ []) :
    (w.plain cs).out = cs.reverse ++ w.onward := by
  cases hs : w.spaced <;> simp [plain, onward, hs, putAll_eq, put, endScalar, h]

/-- In front of the first character of a line stands its indentation. -/
theorem out_indented {w : Writer} {broken : Bool} {n : Nat} (hn : 0 < n)
    (h : broken = true → w.column = 0 ∧ w.fresh = true) :
    (if broken then w.indentTo n else w).out =
      (if broken then List.replicate n ' ' else []).reverse ++ w.out := by
  cases broken with
  | false => rfl
  | true => simp [indentTo_of_column (h rfl).2 (h rfl).1 (.inl hn)]

/-! ## §2 Quotes -/

/-- No pair in a text is none in its rest, and none of its first two characters. -/
theorem holdsPair_tail {p q : Char → Bool} {c : Char} {cs : List Char}
    (h : holdsPair p q (c :: cs) = false) :
    holdsPair p q cs = false ∧ (p c = true → ∀ d ∈ cs.head?, q d = false) := by
  cases cs with
  | nil => exact ⟨rfl, by simp⟩
  | cons d cs =>
    simp only [holdsPair, Bool.or_eq_false_iff, Bool.and_eq_false_imp] at h
    exact ⟨h.2, fun hc => by simpa using h.1 hc⟩

/-- The content of single quotes is written as it is read: what follows a line break is indented. -/
theorem singleContent_out {n : Nat} (hn : 0 < n) (cs : List Char) :
    ∀ (broken : Bool) (w : Writer), '\n' ∉ cs → holdsPair isBreakChar isSpaceChar cs = false →
    (broken = true → w.column = 0 ∧ w.fresh = true ∧ ∀ c ∈ cs.head?, c ≠ ' ') →
    (singleContent n broken cs w).out =
      (quotedText singleChar isBreakChar n broken cs).reverse ++ w.out := by
  induction cs with
  | nil =>
    intro broken w _ _ hw
    cases broken with
    | false => rfl
    | true =>
      obtain ⟨hcolumn, hfresh, -⟩ := hw rfl
      simp [singleContent, quotedText, indentTo_of_column hfresh hcolumn (.inl hn)]
  | cons c cs ih =>
    intro broken w hlines hpair hw
    obtain ⟨hpair, hhead⟩ := holdsPair_tail hpair
    simp only [List.mem_cons, not_or] at hlines
    have ih := fun b w => ih b w hlines.2 hpair
    rw [quotedText]
    -- A space is written as it is. It never comes first on a line, as none follows a line break.
    by_cases hspace : c = ' '
    · obtain rfl : broken = false := by
        cases broken with
        | false => rfl
        | true => exact absurd hspace ((hw rfl).2.2 c rfl)
      rw [singleContent, if_pos hspace, if_pos hspace, ih false _ (by simp)]
      simp [put]
    -- A break that is no line feed is written as it is, and a line begins behind it.
    · by_cases hbreak : isBreakChar c = true
      · have hnext : ∀ d ∈ cs.head?, d ≠ ' ' := fun d hd => by simpa [isSpaceChar] using hhead hbreak d hd
        have hfeed : (!broken && c = '\n') = false := by simp [Ne.symm hlines.1]
        rw [singleContent, if_neg hspace, if_pos hbreak, if_neg hspace, if_pos hbreak, hfeed,
          if_neg Bool.false_ne_true, ih true _ fun _ => ⟨rfl, rfl, hnext⟩]
        simp [newLine]
      -- Any other character is indented where a line begins, and a quote is doubled.
      · have hindent := out_indented hn fun hb => ⟨(hw hb).1, (hw hb).2.1⟩
        rw [singleContent, if_neg hspace, if_neg hbreak, if_neg hspace, if_neg hbreak, ih false _ (by simp)]
        by_cases hquote : c = '\'' <;> simp [hquote, put, hindent, singleChar]

/-! ## §3 Blocks -/

end Writer

/-- The lines of a string, the last one with its end; `broken` says whether a line begins. -/
def endedLines : Bool → List Char → List Char
  | broken, [] => if broken then [] else ['\n']
  | _, c :: cs => c :: endedLines (isBreakChar c) cs

namespace Writer

/-- The lines of a block are written, each that has something on it behind its indentation. -/
theorem literalContent_ends {n : Nat} (hn : 0 < n) (cs : List Char) : ∀ (broken : Bool) (w : Writer),
    w.spaced = true → w.fresh = broken → (broken = true → w.column = 0) →
    (literalContent n broken cs w).Ends
      ((literalText n broken (endedLines broken cs)).reverse ++ w.out) := by
  induction cs with
  | nil =>
    intro broken w hspaced hfresh hcolumn
    cases broken with
    | false => exact ends_of_not_fresh hfresh
    | true => exact fun m => indentTo_of_column hfresh (hcolumn rfl) (.inr hspaced)
  | cons c cs ih =>
    intro broken w hspaced hfresh hcolumn
    by_cases hbreak : isBreakChar c = true
    · have hrest := ih true { w.newLine c with fresh := true } hspaced rfl fun _ => rfl
      simpa [literalContent, endedLines, literalText, hbreak, newLine] using hrest
    · have hindent := out_indented hn fun hb => ⟨hcolumn hb, hfresh.trans hb⟩
      have hspaced' : (if broken then w.indentTo n else w).spaced = true := by
        cases broken with
        | false => exact hspaced
        | true => rfl
      have hrest := ih false { (if broken then w.indentTo n else w).put c with fresh := false } hspaced'
        rfl (by simp)
      simpa [literalContent, endedLines, literalText, hbreak, put, hindent] using hrest

end Writer

/-- Only a line end that is missing is added. -/
theorem endedLines_eq {cs : List Char} {c : Char} (h : cs.getLast? = some c) (broken : Bool) :
    endedLines broken cs = cs ++ if isBreakChar c then [] else ['\n'] := by
  induction cs generalizing broken with
  | nil => cases h
  | cons d cs ih =>
    cases cs with
    | nil =>
      obtain rfl : d = c := by simpa using h
      rfl
    | cons e cs =>
      rw [List.getLast?_cons_cons] at h
      rw [endedLines, ih h]
      rfl

/-- The lines of a string end in a line break. -/
theorem getLast?_endedLines {cs : List Char} (h : cs ≠ []) (broken : Bool) :
    ∃ c, (endedLines broken cs).getLast? = some c ∧ isBreakChar c = true := by
  have hlast := List.getLast?_eq_some_getLast h
  rw [endedLines_eq hlast]
  split
  · next hbreak => exact ⟨_, by rw [List.append_nil, hlast], hbreak⟩
  · exact ⟨'\n', by simp, rfl⟩

/-- The hint of a block says what becomes of the line breaks at its end, so that the string is left. -/
theorem exists_chomping {cs : List Char} (hne : cs ≠ []) :
    ∃ chomping : Chomping, Writer.chompingHint cs = chomping.hint ∧
      chomping.content (endedLines true cs) = cs := by
  obtain ⟨c, r, hr⟩ : ∃ c r, cs.reverse = c :: r := List.exists_cons_of_ne_nil (by simpa using hne)
  obtain rfl : cs = (c :: r).reverse := by rw [← hr, List.reverse_reverse]
  have hlast : (c :: r).reverse.getLast? = some c := by simp
  have hended := endedLines_eq hlast true
  cases hc : isBreakChar c with
  -- With no break at the end the one that was added is stripped.
  | false =>
    refine ⟨.strip, ?_, ?_⟩
    · cases r <;> simp [Writer.chompingHint, Chomping.hint, hc]
    · rw [hended, hc]
      simp [Chomping.content, hc, show isBreakChar '\n' = true from rfl]
  | true =>
    rw [hc, if_pos rfl, List.append_nil] at hended
    rw [hended]
    -- More than one break at the end is kept; a single one is clipped to itself.
    cases r with
    | nil => exact ⟨.keep, by simp [Writer.chompingHint, Chomping.hint, hc], rfl⟩
    | cons d r =>
      cases hd : isBreakChar d with
      | true => exact ⟨.keep, by simp [Writer.chompingHint, Chomping.hint, hc, hd], rfl⟩
      | false =>
        exact ⟨.clip, by simp [Writer.chompingHint, Chomping.hint, hc, hd],
          by simp [Chomping.content, hc, hd]⟩

/-- No hint takes anything from lines without a line break at their end. -/
theorem Chomping.content_eq_self {cs : List Char} (h : ∀ c ∈ cs.getLast?, isBreakChar c = false)
    (chomping : Chomping) : chomping.content cs = cs := by
  rcases List.eq_nil_or_concat cs with rfl | ⟨cs, c, rfl⟩
  · cases chomping <;> rfl
  · have hc := h c (by simp)
    cases chomping <;> simp [Chomping.content, hc]

/-- The lines of two texts, where the second goes on where the first has ended. -/
theorem literalText_append (n : Nat) (broken : Bool) (a b : List Char) :
    ∃ broken', literalText n broken (a ++ b) = literalText n broken a ++ literalText n broken' b := by
  induction a generalizing broken with
  | nil => exact ⟨broken, rfl⟩
  | cons c a ih =>
    by_cases hc : isBreakChar c = true
    · obtain ⟨broken', h⟩ := ih true
      exact ⟨broken', by simp [literalText, hc, h]⟩
    · obtain ⟨broken', h⟩ := ih false
      exact ⟨broken', by simp [literalText, hc, h]⟩

/-- Lines of blanks have nothing but blanks on them. -/
theorem isBlank_literalText {cs : List Char} (h : ∀ c ∈ cs, isBlank c = true) (n : Nat) (broken : Bool) :
    ∀ c ∈ literalText n broken cs, isBlank c = true := by
  induction cs generalizing broken with
  | nil => simp [literalText]
  | cons c cs ih =>
    have ih := ih fun d hd => h d (List.mem_cons_of_mem _ hd)
    have hc := h c List.mem_cons_self
    rw [literalText]
    split
    · exact List.forall_mem_cons.mpr ⟨hc, ih true⟩
    · intro d hd
      rcases List.mem_append.mp hd with hd | hd
      · cases broken with
        | false => cases hd
        | true => exact List.eq_of_mem_replicate hd ▸ rfl
      · exact (List.mem_cons.mp hd).elim (fun h => h ▸ hc) (ih false d)

theorem getLast?_literalText (n : Nat) (broken : Bool) (cs : List Char) :
    (literalText n broken cs).getLast? = cs.getLast? := by
  induction cs generalizing broken with
  | nil => rfl
  | cons c cs ih =>
    rw [literalText]
    split
    · rw [List.getLast?_cons, ih, List.getLast?_cons]
    · rw [List.getLast?_append, List.getLast?_cons, ih, List.getLast?_cons, Option.some_or]

/-! ## §4 What is left of a value -/

/-- What a string is read to when its text loses the blanks at its end; `none` where a plain text would no
longer be one. -/
def trimmedString? (s : String) : Option Value :=
  match styleOf false s with
  | .plain =>
    let rest := dropBlanksRight s.toList
    if (Shape.of rest).plain && !rest.isEmpty then (resolvePlain (String.ofList rest)).toOption else none
  | .literal => some (.str (Text.trimRight s))
  | .single | .double => some (.str s)

mutual

/-- What a value is read to when its text loses the blanks at its end. -/
def trimmed? : Value → Option Value
  | .str s => trimmedString? s
  | .arr vs => (trimmedItems? vs).map .arr
  | .obj ms => (trimmedMembers? ms).map .obj
  | v => some v

/-- The text of items ends with that of the last one. -/
def trimmedItems? : List Value → Option (List Value)
  | [] => some []
  | [v] => (trimmed? v).map ([·])
  | v :: w :: vs => (trimmedItems? (w :: vs)).map (v :: ·)

def trimmedMembers? : List (String × Value) → Option (List (String × Value))
  | [] => some []
  | [(k, v)] => (trimmed? v).map fun x => [(k, x)]
  | m :: m' :: ms => (trimmedMembers? (m' :: ms)).map (m :: ·)

end

/-- A text is a form of something with a meaning, and so is what is left of it without the blanks at its
end. -/
structure Denotes {α β : Type} (form : Bool → α → List Char → Prop) (means : α → β → Prop) (x : β)
    (rest : Option β) (text : List Char) : Prop where
  whole : ∃ a, form false a text ∧ means a x
  trimmed : ∀ y, rest = some y → ∃ a, form true a (dropBlanksRight text) ∧ means a y

/-- A form inside another one. -/
theorem Denotes.map {α β α' β' : Type} {form : Bool → α → List Char → Prop} {means : α → β → Prop}
    {form' : Bool → α' → List Char → Prop} {means' : α' → β' → Prop} {x : β} {rest : Option β}
    {text : List Char} (h : Denotes form means x rest text) (front : List Char) (f : α → α') (g : β → β')
    (hform : ∀ last a t, form last a t → form' last (f a) (front ++ t) ∧ t ≠ [])
    (hmeans : ∀ a y, y = x ∨ rest = some y → means a y → means' (f a) (g y)) :
    Denotes form' means' (g x) (rest.map g) (front ++ text) := by
  constructor
  case whole =>
    obtain ⟨a, ha, hx⟩ := h.whole
    exact ⟨f a, (hform _ a _ ha).1, hmeans a x (.inl rfl) hx⟩
  case trimmed =>
    intro z hz
    obtain ⟨y, hy, rfl⟩ := Option.map_eq_some_iff.mp hz
    obtain ⟨a, ha, hay⟩ := h.trimmed y hy
    obtain ⟨hfront, hne⟩ := hform _ a _ ha
    rw [Text.dropBlanksRight_append hne]
    exact ⟨f a, hfront, hmeans a y (.inr hy) hay⟩

/-! ## §5 Strings -/

variable {s : String} {n d : Nat} {i : Int}

/-- A text that fits into a block can be printed as it is. -/
theorem shape_block {cs : List Char} (h : (Shape.of cs).block = true) :
    ∀ c ∈ cs, isPrintable c = true := by
  cases cs with
  | nil => simp
  | cons c cs =>
    simp only [Shape.of, List.isEmpty_cons, Bool.false_eq_true, if_false, Bool.not_eq_true',
      Bool.or_eq_false_iff, List.any_eq_false] at h
    exact fun d hd => by simpa using h.2 d hd

theorem shape_multiline {cs : List Char} (h : (Shape.of cs).multiline = false) :
    ∀ c ∈ cs, isBreakChar c = false := by
  cases cs with
  | nil => simp
  | cons c cs => simpa [Shape.of] using h

/-- What the style of a string says about it. -/
theorem styleOf_cases (simpleKey : Bool) (s : String) :
    match styleOf simpleKey s with
    | .plain => isAmbiguous s = false ∧ (Shape.of s.toList).plain = true ∧ s.toList ≠ []
    | .single => (Shape.of s.toList).single = true ∧ '\n' ∉ s.toList
    | .double => True
    | .literal => simpleKey = false ∧ s.toList ≠ [] ∧ ∀ c ∈ s.toList, isPrintable c = true := by
  unfold styleOf
  dsimp only
  -- A key has to stay on one line, so it is quoted where it has more.
  by_cases hkey : (simpleKey && (Shape.of s.toList).multiline) = true
  · simp [hkey]
  -- Several lines are written as a block, if that is possible.
  · by_cases hlines : '\n' ∈ s.toList
    · cases hblock : (Shape.of s.toList).block with
      | false => simp [hkey, hlines]
      | true =>
        cases simpleKey with
        | true => simp [hlines]
        | false =>
          have hne : s ≠ "" := by
            rintro rfl
            simp at hlines
          simpa [hlines, hne] using shape_block hblock
    -- On one line the text is plain where it is not ambiguous, and else in single quotes where these
    -- can hold it.
    · cases hplain : (isAmbiguous s || !(Shape.of s.toList).plain) with
      | true =>
        rw [if_neg hkey, if_neg (by simpa using hlines), if_pos rfl]
        cases hsingle : (Shape.of s.toList).single with
        | true => exact ⟨rfl, hlines⟩
        | false => trivial
      | false =>
        simp only [Bool.or_eq_false_iff, Bool.not_eq_false'] at hplain
        have hne : s ≠ "" := by
          rintro rfl
          simp [isAmbiguous] at hplain
        simp [hkey, hlines, hplain, hne]

/-- A scalar that keeps its last character when blanks at the end are dropped. -/
theorem denotes_kept {content : String} {style : ScalarStyle} {text : List Char} {x : Value} {c : Char}
    (hform : ∀ last, Leaf last i content.toList style (text ++ lineEnd last))
    (hlast : text.getLast? = some c) (hc : isBlank c = false)
    (hx : Source.scalarValue none content style = .ok x) :
    Denotes (Flat · i) (Means d) x (some x) (text ++ ['\n']) := by
  refine ⟨⟨.scalar content style, .leaf (hform false), .scalar hx⟩, ?_⟩
  rintro _ ⟨⟩
  refine ⟨.scalar content style, .leaf ?_, .scalar hx⟩
  rw [Text.dropBlanksRight_append_lineFeed, Text.dropBlanksRight_eq_self]
  · simpa [lineEnd] using hform true
  · rintro e he
    obtain rfl : c = e := Option.some.inj (hlast.symm.trans he)
    exact hc

/-- A plain text is written as it is, and what is left of it is plain as well or is nothing at all. -/
theorem plain_written (w : Writer) (hs : PlainText s.toList) (hambiguous : isAmbiguous s = false)
    (hstyle : styleOf false s = .plain) :
    Denotes (Flat · i) (Means d) (.str s) (trimmedString? s) (s.toList ++ ['\n']) ∧
      (w.plain s.toList).Ends ((s.toList ++ ['\n']).reverse ++ w.onward) := by
  have hmeans : Means d (.scalar s .plain) (.str s) := .scalar (resolvePlain_of_not_ambiguous hambiguous)
  refine ⟨⟨⟨.scalar s .plain, .leaf (.plain hs), hmeans⟩, ?_⟩, ?_⟩
  -- The rest of the text means what it resolves to.
  · intro y hy
    simp only [trimmedString?, hstyle] at hy
    split at hy
    · next hfit =>
      simp only [Bool.and_eq_true, Bool.not_eq_true', List.isEmpty_eq_false_iff] at hfit
      have hrest := plainText_of_shape hfit.1 hfit.2
      have hx : resolvePlain (String.ofList (dropBlanksRight s.toList)) = .ok y := by
        cases hresolve : resolvePlain (String.ofList (dropBlanksRight s.toList)) with
        | error e => simp [hresolve, Except.toOption] at hy
        | ok x => simpa [hresolve, Except.toOption] using hy
      refine ⟨.scalar (String.ofList (dropBlanksRight s.toList)) .plain, .leaf ?_, .scalar hx⟩
      rw [Text.dropBlanksRight_append_lineFeed]
      have hform : Leaf true i (dropBlanksRight s.toList) .plain
          (dropBlanksRight s.toList ++ lineEnd true) := .plain hrest
      simpa [lineEnd] using hform
    · cases hy
  · have hends := Writer.ends_of_not_fresh (w := w.plain s.toList) rfl
    rw [Writer.plain_out w hs.ne_nil] at hends
    simpa using hends

/-- Dropping the blanks at the end of a block drops those at the end of its lines. -/
theorem dropBlanksRight_block {front cs : List Char}
    (hfront : ∀ c, front.getLast? = some c → isBlank c = false) (n : Nat) :
    dropBlanksRight (front ++ '\n' :: literalText n true (endedLines true cs)) =
      if dropBlanksRight cs = [] then front
      else front ++ '\n' :: literalText n true (dropBlanksRight cs) := by
  obtain ⟨back, hsplit, hblank⟩ : ∃ back, endedLines true cs = dropBlanksRight cs ++ back ∧
      ∀ c ∈ back, isBlank c = true := by
    -- What is dropped are the blanks of the string and the line end that was added.
    obtain ⟨back, hcs, hblank⟩ := Text.exists_dropBlanksRight cs
    cases hlast : cs.getLast? with
    | none =>
      obtain rfl := List.getLast?_eq_none_iff.mp hlast
      exact ⟨[], rfl, by simp⟩
    | some c =>
      refine ⟨back ++ if isBreakChar c then [] else ['\n'], ?_, fun d hd => ?_⟩
      · rw [endedLines_eq hlast, ← List.append_assoc, ← hcs]
      · rcases List.mem_append.mp hd with hd | hd
        · exact hblank d hd
        · split at hd
          · cases hd
          · exact List.mem_singleton.mp hd ▸ rfl
  obtain ⟨broken, hlines⟩ := literalText_append n true (dropBlanksRight cs) back
  have hdrop := isBlank_literalText hblank n broken
  rw [hsplit, hlines]
  split
  -- Nothing is left of the string, so the break behind the header goes too.
  · next hnil =>
    rw [hnil, literalText, List.nil_append, Text.dropBlanksRight_append_blanks,
      Text.dropBlanksRight_eq_self hfront]
    exact List.forall_mem_cons.mpr ⟨rfl, hdrop⟩
  · next hsome =>
    rw [← List.cons_append, ← List.append_assoc, Text.dropBlanksRight_append_blanks hdrop,
      Text.dropBlanksRight_eq_self]
    intro c hc
    obtain ⟨d, hd⟩ : ∃ d, (dropBlanksRight cs).getLast? = some d :=
      ⟨_, List.getLast?_eq_some_getLast hsome⟩
    simp only [List.getLast?_append, List.getLast?_cons, getLast?_literalText, hd, Option.getD_some,
      Option.some_or, Option.some.injEq] at hc
    exact Text.isBlank_getLast?_dropBlanksRight (hc ▸ hd)

theorem isBlank_blockHints (indented : Bool) (chomping : Chomping) :
    ∀ c ∈ '|' :: blockHints indented chomping, isBlank c = false := by
  have hall : ('|' :: blockHints indented chomping).all (!isBlank ·) = true := by
    cases indented <;> cases chomping <;> rfl
  simpa using hall

theorem isBlank_of_isBreakChar {c : Char} (h : isBreakChar c = true) : isBlank c = true := by
  simp only [isBreakChar, Bool.or_eq_true, decide_eq_true_eq] at h
  rcases h with (((rfl | rfl) | h) | h) | h
  · rfl
  · rfl
  all_goals simp [isBlank, h]

/-- A block means the string, and without the blanks at its end what is left of the string. -/
theorem literal_written (w : Writer) (hn : (n : Int) = max i 0 + 2) (hne : s.toList ≠ [])
    (hchars : ∀ c ∈ s.toList, isPrintable c = true) (hstyle : styleOf false s = .literal) :
    ∃ text, Denotes (Flat · i) (Means d) (.str s) (trimmedString? s) text ∧
      (w.string n false s).Ends (text.reverse ++ w.onward) := by
  -- The hints of the header say how the first line is indented and what becomes of the breaks at the
  -- end.
  obtain ⟨chomping, hhint, hcontent⟩ := exists_chomping hne
  let indented := s.toList.head?.any fun c => isSpaceChar c || isBreakChar c
  have hhints : Writer.indentHint s.toList ++ Writer.chompingHint s.toList =
      blockHints indented chomping := by
    rw [hhint]
    rfl
  -- The lines may be those of the string or those that are left of it: they begin alike.
  have hblock {last : Bool} {lines : List Char} (hlines : ∀ c ∈ lines, isPrintable c = true)
      (hhead : ∀ c ∈ lines.head?, s.toList.head? = some c)
      (hend : last = true ∨ ∃ c, lines.getLast? = some c ∧ isBreakChar c = true) :
      Leaf last i (chomping.content lines) .marked
        (('|' :: blockHints indented chomping) ++ '\n' :: literalText n true lines) := by
    refine .block hn hlines (fun hindented c hc => ?_) hend
    have hc := hhead c hc
    simp only [indented, hc, Option.any_some, Bool.or_eq_false_iff, isSpaceChar,
      decide_eq_false_iff_not] at hindented
    exact not_gap_of_isPrintable (hchars c (List.mem_of_mem_head? hc)) hindented.1 hindented.2
  have hrest : (Text.trimRight s).toList = dropBlanksRight s.toList := String.toList_ofList
  refine ⟨('|' :: blockHints indented chomping) ++ '\n' :: literalText n true (endedLines true s.toList),
    ⟨⟨.scalar s .marked, .leaf ?_, .scalar rfl⟩, ?_⟩, ?_⟩
  -- The whole block: the lines that were written end in a break, which the hint allows for.
  · have hleaf : Leaf false i (chomping.content (endedLines true s.toList)) .marked
        (('|' :: blockHints indented chomping) ++
          '\n' :: literalText n true (endedLines true s.toList)) := by
      refine hblock (fun c hc => ?_) ?_ (.inr (getLast?_endedLines hne true))
      · rw [endedLines_eq (List.getLast?_eq_some_getLast hne)] at hc
        refine (List.mem_append.mp hc).elim (hchars c) fun hc => ?_
        split at hc
        · cases hc
        · exact List.mem_singleton.mp hc ▸ rfl
      · obtain ⟨c, cs, hcs⟩ := List.exists_cons_of_ne_nil hne
        simp [hcs, endedLines]
    rw [hcontent] at hleaf
    exact hleaf
  -- The trimmed block: its lines end in no break, so that no hint takes anything away.
  · intro y hy
    simp only [trimmedString?, hstyle, Option.some.injEq] at hy
    subst hy
    refine ⟨.scalar (Text.trimRight s) .marked, .leaf ?_, .scalar rfl⟩
    rw [dropBlanksRight_block, hrest]
    -- Where nothing is left of the string, only the header is.
    · split
      · next hnil =>
        rw [hnil]
        exact .bare rfl
      · next hsome =>
        obtain ⟨back, hsplit, -⟩ := Text.exists_dropBlanksRight s.toList
        have hlast : ∀ c ∈ (dropBlanksRight s.toList).getLast?, isBreakChar c = false := fun c hc =>
          Bool.eq_false_iff.mpr fun hbreak =>
            Bool.eq_false_iff.mp (Text.isBlank_getLast?_dropBlanksRight hc) (isBlank_of_isBreakChar hbreak)
        have hleaf : Leaf true i (chomping.content (dropBlanksRight s.toList)) .marked
            (('|' :: blockHints indented chomping) ++
              '\n' :: literalText n true (dropBlanksRight s.toList)) := by
          refine hblock (fun c hc => hchars c (hsplit ▸ List.mem_append_left _ hc)) (fun c hc => ?_)
            (.inl rfl)
          rw [hsplit, List.head?_append, hc, Option.some_or]
        rw [chomping.content_eq_self hlast] at hleaf
        exact hleaf
    · intro c hc
      exact isBlank_blockHints indented chomping c (List.mem_of_getLast? hc)
  · have hends := Writer.literalContent_ends (n := n) (by omega) s.toList true
      { (w.indicator ('|' :: blockHints indented chomping) true false false).newLine '\n' with
        spaced := true, fresh := true } rfl rfl fun _ => rfl
    have hout := w.indicator_out ('|' :: blockHints indented chomping) false false
    simp only [Writer.string, hstyle, hhints]
    simpa [Writer.newLine, hout] using hends

/-- What is written in quotes, whether as a key or not. -/
theorem single_out {simpleKey : Bool} (w : Writer) (hn : 0 < n) (hstyle : styleOf simpleKey s = .single) :
    (w.string n simpleKey s).fresh = false ∧
      (w.string n simpleKey s).out = ('\'' :: (singleText n s.toList ++ ['\''])).reverse ++ w.onward := by
  have hcases := styleOf_cases simpleKey s
  rw [hstyle] at hcases
  have hout := Writer.singleContent_out hn s.toList false (w.indicator ['\''] true false false) hcases.2
    (shape_single hcases.1).1 (by simp)
  rw [Writer.indicator_out] at hout
  simp only [Writer.string, hstyle]
  refine ⟨rfl, ?_⟩
  simp [Writer.endScalar, Writer.indicator, Writer.putAll_eq] at hout ⊢
  simp [hout, singleText]

theorem double_out {simpleKey : Bool} (w : Writer) (hstyle : styleOf simpleKey s = .double) :
    (w.string n simpleKey s).fresh = false ∧
      (w.string n simpleKey s).out =
        ('"' :: (s.toList.flatMap doubleChar ++ ['"'])).reverse ++ w.onward := by
  have hout := w.indicator_out ['"'] false false
  simp only [Writer.string, hstyle]
  refine ⟨rfl, ?_⟩
  simp [Writer.endScalar, Writer.indicator, Writer.putAll_eq] at hout ⊢
  simp [hout]

/-- A scalar on one line that keeps its last character has been written. -/
theorem kept_written {w w' : Writer} {content : String} (style : ScalarStyle) {text : List Char} {x : Value}
    {c : Char} (hform : ∀ last, Leaf last i content.toList style (text ++ lineEnd last))
    (hlast : text.getLast? = some c) (hc : isBlank c = false)
    (hx : Source.scalarValue none content style = .ok x) (hfresh : w'.fresh = false)
    (hout : w'.out = text.reverse ++ w.onward) :
    ∃ text, Denotes (Flat · i) (Means d) x (some x) text ∧ w'.Ends (text.reverse ++ w.onward) := by
  refine ⟨_, denotes_kept hform hlast hc hx, ?_⟩
  have hends := Writer.ends_of_not_fresh hfresh
  rw [hout] at hends
  simpa using hends

/-- A string is written as a scalar that means it. -/
theorem string_written (w : Writer) (hn : (n : Int) = max i 0 + 2) (d : Nat) (s : String) :
    ∃ text, Denotes (Flat · i) (Means d) (.str s) (trimmedString? s) text ∧
      (w.string n false s).Ends (text.reverse ++ w.onward) := by
  have hcases := styleOf_cases false s
  cases hstyle : styleOf false s with
  | plain =>
    rw [hstyle] at hcases
    have htext := plainText_of_shape hcases.2.1 hcases.2.2
    have hwritten := plain_written (i := i) (d := d) w htext hcases.1 hstyle
    rw [Writer.string, hstyle]
    exact ⟨_, hwritten⟩
  -- Quotes end in a character that is no blank, so trimming the text takes nothing but the line end.
  | single =>
    rw [hstyle] at hcases
    have hn : 0 < n := by omega
    obtain ⟨hfresh, hout⟩ := single_out w hn hstyle
    have hrest : trimmedString? s = some (.str s) := by simp only [trimmedString?, hstyle]
    rw [hrest]
    refine kept_written .marked (fun last => ?_) (by simp [List.getLast?_cons]; rfl) rfl rfl hfresh hout
    have hleaf : Leaf last i s.toList .marked ('\'' :: (singleText n s.toList ++ '\'' :: lineEnd last)) :=
      .single hcases.1 hcases.2 hn
    simpa using hleaf
  | double =>
    obtain ⟨hfresh, hout⟩ := double_out (n := n) w hstyle
    have hrest : trimmedString? s = some (.str s) := by simp only [trimmedString?, hstyle]
    rw [hrest]
    refine kept_written .marked (fun last => ?_) (by simp [List.getLast?_cons]; rfl) rfl rfl hfresh hout
    have hleaf : Leaf last i s.toList .marked
        ('"' :: (s.toList.flatMap doubleChar ++ '"' :: lineEnd last)) := .double
    simpa using hleaf
  | literal =>
    rw [hstyle] at hcases
    exact literal_written w hn hcases.2.1 hcases.2.2 hstyle

/-! ## §6 Keys -/

theorem utf8ByteSize_ofList (cs : List Char) :
    (String.ofList cs).utf8ByteSize = (cs.map Char.utf8Size).sum := by
  induction cs with
  | nil => rfl
  | cons c cs ih =>
    rw [String.ofList_cons, String.utf8ByteSize_append, String.utf8ByteSize_singleton, ih]
    rfl

/-- A character has at least one byte, two where its escape needs more than two digits, and four where
it needs more than four. -/
theorem le_utf8Size (c : Char) : 1 ≤ c.utf8Size ∧ (0x7F < c.toNat → 2 ≤ c.utf8Size) ∧
    (0xFFFF < c.toNat → 4 ≤ c.utf8Size) := by
  have hle (n : UInt32) : c.val ≤ n ↔ c.toNat ≤ n.toNat := UInt32.le_iff_toNat_le
  simp only [Char.utf8Size, hle, UInt32.toNat_ofNatLT]
  split
  · omega
  · split
    · omega
    · split <;> omega

/-- An escape is not much longer than the character in bytes. -/
theorem length_doubleChar_le (c : Char) : (doubleChar c).length ≤ 4 * c.utf8Size := by
  obtain ⟨hone, htwo, hfour⟩ := le_utf8Size c
  unfold doubleChar
  split
  · simp only [List.length_singleton]
    omega
  · split
    · simp only [List.length_cons, List.length_nil]
      omega
    · dsimp only
      split
      · simp only [List.length_cons, length_upperHex]
        omega
      · split
        · simp only [List.length_cons, length_upperHex]
          omega
        · simp only [List.length_cons, length_upperHex]
          omega

theorem length_flatMap_le {spell : Char → List Char} (h : ∀ c, (spell c).length ≤ 4 * c.utf8Size)
    (s : String) :
    (s.toList.flatMap spell).length ≤ 4 * s.utf8ByteSize := by
  have hsize : s.utf8ByteSize = (s.toList.map Char.utf8Size).sum := by
    rw [← utf8ByteSize_ofList, String.ofList_toList]
  rw [hsize]
  induction s.toList with
  | nil => exact Nat.zero_le _
  | cons c cs ih =>
    have := h c
    simp only [List.flatMap_cons, List.length_append, List.map_cons, List.sum_cons]
    omega

theorem length_le_utf8ByteSize (s : String) : s.toList.length ≤ 4 * s.utf8ByteSize := by
  have hone : ∀ c : Char, [c].length ≤ 4 * c.utf8Size := fun c => by
    have := (le_utf8Size c).1
    simp only [List.length_singleton]
    omega
  simpa [List.flatMap_singleton'] using length_flatMap_le hone s

/-- A simple key is written on one line, and near enough to its colon to be found. -/
theorem key_written (w : Writer) (hn : 0 < n) {k : String} (hk : isSimpleKey k = true) :
    ∃ key style, KeyText k.toList style key ∧ key.length ≤ longestKey ∧
      (w.string n true k).out = key.reverse ++ w.onward := by
  simp only [isSimpleKey, Bool.and_eq_true, Bool.not_eq_true'] at hk
  obtain ⟨hlines, hsize⟩ := hk
  have hsize : k.utf8ByteSize ≤ 128 := of_decide_eq_true hsize
  have hbreaks := shape_multiline hlines
  have hcases := styleOf_cases true k
  cases hstyle : styleOf true k with
  | plain =>
    rw [hstyle] at hcases
    have htext := plainText_of_shape hcases.2.1 hcases.2.2
    -- At most 128 bytes become at most four times as many characters, and a few more.
    have hlength := length_le_utf8ByteSize k
    refine ⟨k.toList, .plain, .plain htext, ?_, ?_⟩
    · rw [longestKey]
      omega
    · rw [Writer.string, hstyle]
      exact w.plain_out htext.ne_nil
  | single =>
    rw [hstyle] at hcases
    have htext : singleText n k.toList = k.toList.flatMap singleChar :=
      quotedText_false rfl fun c hc => hbreaks c hc
    have hlength : (k.toList.flatMap singleChar).length ≤ 4 * k.utf8ByteSize :=
      length_flatMap_le (fun c => by
        have := (le_utf8Size c).1
        unfold singleChar
        split <;> simp only [List.length_cons, List.length_nil] <;> omega) k
    refine ⟨_, .marked, .single hcases.1 hbreaks hn, ?_, (single_out w hn hstyle).2⟩
    simp only [htext, List.length_cons, List.length_append, List.length_nil, longestKey]
    omega
  | double =>
    have hlength := length_flatMap_le length_doubleChar_le k
    refine ⟨_, .marked, .double, ?_, (double_out w hstyle).2⟩
    simp only [List.length_cons, List.length_append, List.length_nil, longestKey]
    omega
  | literal =>
    rw [hstyle] at hcases
    cases hcases.1

end QueryPlayground.Yaml
