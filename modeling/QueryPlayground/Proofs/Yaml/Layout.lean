import QueryPlayground.Proofs.Yaml.Literal
import QueryPlayground.Proofs.Yaml.Meaning
import QueryPlayground.Proofs.Yaml.Plain

/-!
# Layout

How the text of a node is laid out. A collection has its entries on lines of their own at its column;
a node behind a dash, or behind the indicators of a key that is no simple one, begins two columns
further on the same line. A sequence that is the value of a simple key hangs at the column of the
mapping. The last line of a text may lack its end.

Main statements: `supplies_of_lays` and `parseChars_of_lays`.
-/

namespace QueryPlayground.Yaml

open Scanner (Tail Ended AtToken StartsToken)

/-! ## §1 Scalars -/

/-- The end of a line, which the last line of a text may lack. -/
def lineEnd (last : Bool) : List Char :=
  if last then [] else ['\n']

/-- The text of a scalar inside a collection that begins at a column. -/
inductive Leaf (last : Bool) (i : Int) : List Char → ScalarStyle → List Char → Prop where
  | plain {cs : List Char} : PlainText cs → Leaf last i cs .plain (cs ++ lineEnd last)
  | single {cs : List Char} {n : Nat} : (Shape.of cs).single = true → '\n' ∉ cs → 0 < n →
      Leaf last i cs .marked ('\'' :: (singleText n cs ++ '\'' :: lineEnd last))
  | double {cs : List Char} :
      Leaf last i cs .marked ('"' :: (cs.flatMap doubleChar ++ '"' :: lineEnd last))
  | block {chomping : Chomping} {indented : Bool} {n : Nat} {lines : List Char} :
      (n : Int) = max i 0 + 2 → (∀ c ∈ lines, isPrintable c = true) →
      (indented = false → ∀ c ∈ lines.head?, (isBlankChar c || isBreakChar c) = false) →
      (last = true ∨ ∃ c, lines.getLast? = some c ∧ isBreakChar c = true) →
      Leaf last i (chomping.content lines) .marked
        ('|' :: (blockHints indented chomping ++ '\n' :: literalText n true lines))
  | bare {chomping : Chomping} {indented : Bool} : last = true →
      Leaf last i [] .marked ('|' :: blockHints indented chomping)

/-- The text of a scalar on one line, which may be a simple key. -/
inductive KeyText : List Char → ScalarStyle → List Char → Prop where
  | plain {cs : List Char} : PlainText cs → KeyText cs .plain cs
  | single {cs : List Char} {n : Nat} : (Shape.of cs).single = true → (∀ c ∈ cs, isBreakChar c = false) →
      0 < n → KeyText cs .marked ('\'' :: (singleText n cs ++ ['\'']))
  | double {cs : List Char} : KeyText cs .marked ('"' :: (cs.flatMap doubleChar ++ ['"']))

/-! ## §2 Scalars are scanned -/

namespace Scanner

variable {s : Scanner} {o : Open} {n : Nat} {last : Bool} {tail : Tail} {ks : List TokenKind}

/-- A plain text has none of the characters with which other tokens begin, unless a word goes on behind
it. -/
theorem startsPlain_append {c : Char} {cs : List Char} (h : PlainText (c :: cs)) (rest : List Char) :
    startsPlain false (c :: (cs ++ rest)) = true ∧
      (c = '?' ∨ c = ':' ∨ c = '-' → atBlankOrEnd (cs ++ rest) = false) := by
  have hhead := h.head c rfl
  have hleads := h.leads
  simp only [leadsIndicator, Bool.or_eq_false_iff, Bool.and_eq_false_imp] at hleads
  have hgap : c = '?' ∨ c = ':' ∨ c = '-' → atBlankOrEnd (cs ++ rest) = false := by
    intro hc
    have hgap := hleads.2 (by simpa [or_assoc] using hc)
    cases cs with
    | nil => simp [atGap] at hgap
    | cons d cs =>
      simp only [atGap, isGap, Bool.or_eq_false_iff] at hgap
      simp [atBlankOrEnd, hgap]
  refine ⟨?_, hgap⟩
  -- With one of the three characters in front a word has to go on; with none of them nothing else can
  -- begin.
  by_cases hc : c = '?' ∨ c = ':' ∨ c = '-'
  · have hword := hgap hc
    rcases hc with rfl | rfl | rfl
    · simp [startsPlain, hword]
    · simp [startsPlain, hword]
    · cases hrest : cs ++ rest with
      | nil => simp [startsPlain]
      | cons d text =>
        simp only [hrest, atBlankOrEnd, Bool.or_eq_false_iff] at hword
        simp [startsPlain, hword.1]
  · have hnone : ['-', '?', ':', ',', '[', ']', '\x7b', '\x7d', '#', '&', '*', '!', '|', '>', '\'', '"',
        '%', '@', Char.ofNat 96].contains c = false := by
      have hleads := hleads.1
      simp only [List.contains_cons, List.contains_nil, Bool.or_eq_false_iff, beq_eq_false_iff_ne, not_or]
        at hleads hc ⊢
      simp [hleads, hc]
    simp only [startsPlain, atBlankOrEnd, hhead, hnone]
    rfl

/-- A plain scalar is read where nothing else begins. -/
theorem dispatch_plain {cs rest : List Char} (h : PlainText cs) (hkeys : s.keys = [none])
    (hrest : ∀ d ∈ rest.head?, d ≠ '-' ∧ d ≠ '.') : s.dispatch (cs ++ rest) = s.readPlain := by
  have hflow := inFlow_of_keys hkeys
  -- A plain text is no mark of a document, and it begins with none of the other indicators.
  have hdash := startsWithThree_append h.ne_nil h.document hrest '-' (.inl rfl)
  have hpoint := startsWithThree_append h.ne_nil h.document hrest '.' (.inr rfl)
  have hleads := h.leads
  obtain ⟨c, cs, rfl⟩ := List.exists_cons_of_ne_nil h.ne_nil
  obtain ⟨hstart, hgap⟩ := startsPlain_append h rest
  simp only [leadsIndicator, Bool.or_eq_false_iff, List.contains_cons, List.contains_nil,
    beq_eq_false_iff_ne] at hleads
  obtain ⟨⟨-, hcomma, hopen, hclose, hbrace, hbrace', hand, hstar, hbang, hbar, hgreater, hquote, hdouble,
    hpercent, -⟩, -⟩ := hleads
  have hindicator (d : Char) (hd : d = '?' ∨ d = ':' ∨ d = '-') :
      (decide (c = d) && atBlankOrEnd (cs ++ rest)) = false := by
    by_cases hc : c = d
    · simp [hgap (hc ▸ hd)]
    · simp [hc]
  rw [List.cons_append] at hdash hpoint ⊢
  simp only [dispatch, hdash, hpoint, hflow, hstart, hcomma, hopen, hclose, hbrace, hbrace', hand, hstar,
    hbang, hbar, hgreater, hquote, hdouble, hpercent, hindicator, decide_false, Bool.and_false,
    Bool.false_and, Bool.false_or, if_false, if_true, Bool.false_eq_true, true_or, or_true]

theorem dispatch_single (text : List Char) : s.dispatch ('\'' :: text) = s.readQuoted '\'' := by
  simp [dispatch, startsWithThree_of_ne]

theorem dispatch_double (text : List Char) : s.dispatch ('"' :: text) = s.readQuoted '"' := by
  simp [dispatch, startsWithThree_of_ne]

theorem dispatch_block (hkeys : s.keys = [none]) (text : List Char) :
    s.dispatch ('|' :: text) = s.readBlockScalar true := by
  simp [dispatch, startsWithThree_of_ne, inFlow_of_keys hkeys]

/-- A key is read up to its colon. -/
theorem dispatch_key {content key text : List Char} {style : ScalarStyle} (h : KeyText content style key)
    (hs : s.At o n (key ++ ':' :: text)) (hle : o.indent ≤ n) (htext : atBlankOrEnd text = true) :
    ∃ allowed, s.dispatch (key ++ ':' :: text) =
      .ok (s.pastScalar s.keyHere content style allowed (s.cursor.skip key.length)) := by
  have hrest := hs.rest
  have hsize := hs.size
  cases h with
  | plain hplain =>
    have hparent : s.indent ≤ s.cursor.column := by
      rw [hs.column, show s.indent = o.indent from congrArg Open.indent hs.opened]
      -- The three ways in which a key is written are read by two readers.
      exact hle
    rw [List.length_append] at hsize
    rw [dispatch_plain hplain hs.keys (by simp)]
    exact ⟨_, readPlain_eq hs.keys (plainScalar_of_colon hplain hrest (by omega) hparent htext)⟩
  | @single m hshape hbreaks hn =>
    simp only [List.cons_append, List.append_assoc, List.nil_append] at hrest hsize ⊢
    have hlines : '\n' ∉ content := fun h => absurd (hbreaks _ h) (by decide)
    have hlength : (singleText m content).length ≤ s.size := by
      simp only [List.length_cons, List.length_append] at hsize
      omega
    obtain ⟨c, hread, hlands⟩ := quotedScalar_single hshape hlines hn (by rfl) hrest hlength
    rw [hlands.place hbreaks] at hread
    rw [dispatch_single, readQuoted_eq hs.keys hread]
    exact ⟨false, by simp⟩
  | double =>
    simp only [List.cons_append, List.append_assoc, List.nil_append] at hrest hsize ⊢
    have hlength : (content.flatMap doubleChar).length ≤ s.size := by
      simp only [List.length_cons, List.length_append] at hsize
      omega
    have hread := quotedScalar_double (by rfl) hrest hlength
    rw [dispatch_double, readQuoted_eq hs.keys hread]
    exact ⟨false, by simp⟩

/-- Behind the end of a line comes what comes behind a node. -/
theorem lineEnd_append (hlast : last = true → tail = .done) :
    lineEnd last ++ tail.text = '\n' :: tail.text ∨ tail = .done ∧ lineEnd last ++ tail.text = [] := by
  cases last with
  | false => exact .inl rfl
  | true => exact .inr ⟨hlast rfl, by simp [lineEnd, hlast rfl, Tail.text]⟩

/-- A scalar is read up to what comes behind it. -/
theorem dispatch_leaf {content text : List Char} {style : ScalarStyle}
    (h : Leaf last o.indent content style text) (hs : s.At o n (text ++ tail.text)) (hle : o.indent ≤ n)
    (hlast : last = true → tail = .done) (hfits : tail.Fits o.indent) :
    ∃ k allowed c, (k = none ∨ k = s.keyHere) ∧
      s.dispatch (text ++ tail.text) = .ok (s.pastScalar k content style allowed c) ∧
      c.rest.length < (text ++ tail.text).length ∧ Ended c allowed s.cursor.line tail := by
  have hindent : s.indent = o.indent := congrArg Open.indent hs.opened
  have hrest := hs.rest
  have hsize := hs.size
  have hbehind := lineEnd_append hlast
  -- Where the line is ended, so is the scalar; a block passes over the end itself.
  have hended {c : Cursor} (hc : c.rest = lineEnd last ++ tail.text) (hline : s.cursor.line ≤ c.line) :
      Ended c false s.cursor.line tail :=
    hbehind.elim (fun h => .inl ⟨hc.trans h, hline⟩) fun h => .inr (.inr ⟨h.1, hc.trans h.2⟩)
  have hhead : ∀ d ∈ (lineEnd last ++ tail.text).head?, d = '\n' := by
    rcases hbehind with h | ⟨-, h⟩ <;> simp [h]
  have hquote (q : Char) (hq : q ≠ '\n') : startsWith q (lineEnd last ++ tail.text) = false := by
    rcases hbehind with h | ⟨-, h⟩ <;> simp [h, startsWith, hq.symm]
  -- One case for each way in which a scalar is written.
  cases h with
  | plain hplain =>
    rw [List.append_assoc] at hrest hsize ⊢
    obtain ⟨broken, c, hread, hplace, hlength⟩ := plainScalar_of_closes hplain hrest
      (hrest ▸ hsize) (show s.indent ≤ s.cursor.column by rw [hindent, hs.column]; exact hle) hbehind
      (hindent ▸ hfits)
    refine ⟨_, broken, c, .inr rfl, ?_, ?_, hplace⟩
    · rw [dispatch_plain hplain hs.keys fun d hd => by simp [hhead d hd]]
      exact readPlain_eq hs.keys hread
    · have hpos := List.length_pos_iff.mpr hplain.ne_nil
      rw [List.length_append]
      omega
  | @single _ m hshape hlines hn =>
    simp only [List.cons_append, List.append_assoc] at hrest hsize ⊢
    have hlength : (singleText m content).length ≤ s.size := by
      simp only [List.length_cons, List.length_append] at hsize
      omega
    obtain ⟨c, hread, hlands⟩ :=
      quotedScalar_single hshape hlines hn (hquote '\'' (by decide)) hrest hlength
    refine ⟨_, false, c, .inr rfl, ?_, ?_, hended hlands.rest hlands.line⟩
    · rw [dispatch_single, readQuoted_eq hs.keys hread]
    · simp only [hlands.rest, List.length_cons, List.length_append]
      omega
  | double =>
    simp only [List.cons_append, List.append_assoc] at hrest hsize ⊢
    have hlength : (content.flatMap doubleChar).length ≤ s.size := by
      simp only [List.length_cons, List.length_append] at hsize
      omega
    have hread := quotedScalar_double (hquote '"' (by decide)) hrest hlength
    have hskip : (s.cursor.skip ((content.flatMap doubleChar).length + 2)).rest =
        lineEnd last ++ tail.text := by
      have htext : s.cursor.rest =
          ('"' :: (content.flatMap doubleChar ++ ['"'])) ++ (lineEnd last ++ tail.text) := by
        simpa using hrest
      simpa using Cursor.rest_skip_append htext
    refine ⟨_, false, _, .inr rfl, ?_, ?_, hended hskip (Nat.le_refl _)⟩
    · rw [dispatch_double, readQuoted_eq hs.keys hread]
    · simp only [hskip, List.length_cons, List.length_append]
      omega
  | block hn hchars hfirst hends =>
    simp only [List.cons_append, List.append_assoc] at hrest hsize ⊢
    obtain ⟨c, hread, hplace, hlength⟩ :=
      blockScalar_literal hrest hn hchars hfirst (hends.imp_left hlast) hfits (hrest ▸ hsize)
    refine ⟨_, true, c, .inl rfl, ?_, hrest ▸ hlength, hplace⟩
    rw [dispatch_block hs.keys, readBlockScalar_eq hs.keys (hindent ▸ hread)]
  | @bare chomping indented hbare =>
    obtain rfl := hlast hbare
    simp only [Tail.text, List.append_nil] at hrest hsize ⊢
    obtain ⟨c, hread, hc⟩ := blockScalar_bare s.size s.indent hrest
    refine ⟨_, true, c, .inl rfl, ?_, by simp [hc], .inr (.inr ⟨rfl, hc⟩)⟩
    rw [dispatch_block hs.keys, readBlockScalar_eq hs.keys hread]

/-- A scalar is read, and then what comes behind it. -/
theorem scans_of_leaf {i : Int} {content text : List Char} {style : ScalarStyle} {ks : List TokenKind}
    (h : Leaf last i content style text) (hs : s.At o n (text ++ tail.text)) (ho : o.indent = i)
    (hle : i ≤ n) (hlast : last = true → tail = .done) (hfits : tail.Fits i)
    (hlt : s.keyAllowed = true → i < n)
    (hnext : ∀ s' : Scanner, s'.Arrives (o.push [.scalar content style]) tail → s'.Scans ks) :
    s.Scans ks := by
  subst ho
  obtain ⟨k, allowed, c, hk, hread, hless, hplace⟩ := dispatch_leaf h hs hle hlast hfits
  have hkey : ∀ k', k = some k' → k'.required = false ∧ k'.mark.line ≤ s.cursor.line := by
    rintro k' rfl
    exact keyHere_unneeded hs hlt k' (hk.resolve_left (Option.some_ne_none k')).symm
  exact scans_of_behind (hs.rest ▸ hread) (behind_of_scalar hs hkey hless hplace) hfits
    (hs.rest ▸ hless) hnext

end Scanner

/-! ## §3 Nodes -/

/-- The text of a node that does not take lines of its own. -/
inductive Flat (last : Bool) (i : Int) : Node → List Char → Prop where
  | leaf {content : String} {style : ScalarStyle} {text : List Char} :
      Leaf last i content.toList style text → Flat last i (.scalar content style) text
  | emptySeq : Flat last i (.seq []) ('[' :: ']' :: lineEnd last)
  | emptyMap : Flat last i (.map []) ('\x7b' :: '\x7d' :: lineEnd last)

mutual

/-- The text of a node that begins at a column, inside a collection that begins at another one. -/
inductive Lays : Bool → Int → Nat → Node → List Char → Prop where
  | flat {last : Bool} {i : Int} {n : Nat} {v : Node} {text : List Char} :
      Flat last i v text → Lays last i n v text
  | seq {last : Bool} {i : Int} {n : Nat} {vs : List Node} {text : List Char} :
      LaysItems last n vs text → Lays last i n (.seq vs) text
  | map {last : Bool} {i : Int} {n : Nat} {ms : List (Key × Node)} {text : List Char} :
      LaysMembers last n ms text → Lays last i n (.map ms) text

/-- Items, at least one and each behind a dash. -/
inductive LaysItems : Bool → Nat → List Node → List Char → Prop where
  | last {last : Bool} {n : Nat} {v : Node} {text : List Char} :
      Lays last n (n + 2) v text → LaysItems last n [v] ('-' :: ' ' :: text)
  | cons {last : Bool} {n : Nat} {v : Node} {vs : List Node} {text rest : List Char} :
      Lays false n (n + 2) v text → LaysItems last n vs rest →
      LaysItems last n (v :: vs) ('-' :: ' ' :: (text ++ (List.replicate n ' ' ++ rest)))

inductive LaysMembers : Bool → Nat → List (Key × Node) → List Char → Prop where
  | last {last : Bool} {n : Nat} {m : Key × Node} {text : List Char} :
      LaysMember last n m text → LaysMembers last n [m] text
  | cons {last : Bool} {n : Nat} {m : Key × Node} {ms : List (Key × Node)} {text rest : List Char} :
      LaysMember false n m text → LaysMembers last n ms rest →
      LaysMembers last n (m :: ms) (text ++ (List.replicate n ' ' ++ rest))

/-- A key in front of a colon, or behind a question mark with the colon on a line of its own. -/
inductive LaysMember : Bool → Nat → Key × Node → List Char → Prop where
  | simple {last : Bool} {n : Nat} {k : Key} {v : Node} {key text : List Char} :
      KeyText k.text.toList k.style key → key.length ≤ longestKey → LaysValue last n k.hangs v text →
      LaysMember last n (k, v) (key ++ ':' :: text)
  | explicit {last : Bool} {n : Nat} {k : Key} {v : Node} {key text : List Char} :
      Leaf false n k.text.toList k.style key → k.hangs = false → Lays last n (n + 2) v text →
      LaysMember last n (k, v) ('?' :: ' ' :: (key ++ (List.replicate n ' ' ++ ':' :: ' ' :: text)))

/-- What stands behind the colon of a simple key. -/
inductive LaysValue : Bool → Nat → Bool → Node → List Char → Prop where
  | inline {last : Bool} {n : Nat} {hangs : Bool} {v : Node} {text : List Char} :
      Flat last n v text → LaysValue last n hangs v (' ' :: text)
  | under {last : Bool} {n a : Nat} {hangs : Bool} {ms : List (Key × Node)} {text : List Char} :
      n < a → LaysMembers last a ms text →
      LaysValue last n hangs (.map ms) ('\n' :: (List.replicate a ' ' ++ text))
  | hanging {last : Bool} {n : Nat} {vs : List Node} {text : List Char} :
      LaysItems last n vs text →
      LaysValue last n true (.seq vs) ('\n' :: (List.replicate n ' ' ++ text))

end

/-- Items hang in the collection around them, or are one of their own. -/
theorem LaysItems.tokens {last : Bool} {n : Nat} {vs : List Node} {text : List Char}
    (h : LaysItems last n vs text) (hanging : Bool) : (Node.seq vs).tokens hanging =
      if hanging then itemTokens vs else .blockSequenceStart :: (itemTokens vs ++ [.blockEnd]) := by
  cases h <;> rfl

theorem LaysMembers.tokens {last : Bool} {n : Nat} {ms : List (Key × Node)} {text : List Char}
    (h : LaysMembers last n ms text) (hanging : Bool) :
    (Node.map ms).tokens hanging = .blockMappingStart :: (memberTokens ms ++ [.blockEnd]) := by
  cases h <;> rfl

/-! ### Beginnings -/

/-- A token begins the text. -/
def Begins (text : List Char) : Prop :=
  ∃ c rest, text = c :: rest ∧ StartsToken c

theorem Begins.of_starts {c : Char} {rest : List Char} (h : StartsToken c) : Begins (c :: rest) :=
  ⟨c, rest, rfl, h⟩

theorem Begins.append {text : List Char} (h : Begins text) (rest : List Char) :
    Begins (text ++ rest) := by
  obtain ⟨c, cs, rfl, hc⟩ := h
  exact .of_starts hc

theorem Begins.ne_nil {text : List Char} (h : Begins text) : text ≠ [] := by
  obtain ⟨c, cs, rfl, -⟩ := h
  exact List.cons_ne_nil c cs

/-- No blank, line break or comment comes before what begins with a token. -/
theorem Begins.atToken {text : List Char} (h : Begins text) : AtToken text := by
  obtain ⟨c, cs, rfl, hc⟩ := h
  rintro d ⟨⟩
  exact hc

theorem Begins.fits {text : List Char} (h : Begins text) (n : Nat) : (Tail.line n text).Fits n :=
  ⟨Int.le_refl _, h.ne_nil, h.atToken⟩

/-- A plain text begins with a token, as it begins with no indicator. -/
theorem PlainText.begins {cs : List Char} (h : PlainText cs) : Begins cs := by
  have hhead := h.head
  have hleads := h.leads
  have hchars := h.chars
  obtain ⟨c, cs, rfl⟩ := List.exists_cons_of_ne_nil h.ne_nil
  obtain ⟨hblank, hbreak⟩ := Bool.or_eq_false_iff.mp (hhead c rfl)
  refine .of_starts ⟨hblank, hbreak, ?_, ?_⟩
  · rintro rfl
    simp [leadsIndicator] at hleads
  · rintro rfl
    exact absurd (hchars _ List.mem_cons_self).1 (by decide)

theorem KeyText.begins {content text : List Char} {style : ScalarStyle}
    (h : KeyText content style text) : Begins text := by
  cases h with
  | plain h => exact h.begins
  | single => exact .of_starts (by decide)
  | double => exact .of_starts (by decide)

theorem Leaf.begins {last : Bool} {i : Int} {content text : List Char} {style : ScalarStyle}
    (h : Leaf last i content style text) : Begins text := by
  cases h with
  | plain h => exact h.begins.append _
  | single | double | block | bare => exact .of_starts (by decide)

theorem Flat.begins {last : Bool} {i : Int} {v : Node} {text : List Char} (h : Flat last i v text) :
    Begins text := by
  cases h with
  | leaf h => exact h.begins
  | emptySeq | emptyMap => exact .of_starts (by decide)

theorem LaysItems.begins {last : Bool} {n : Nat} {vs : List Node} {text : List Char}
    (h : LaysItems last n vs text) : Begins text := by
  cases h <;> exact .of_starts (by decide)

theorem LaysMember.begins {last : Bool} {n : Nat} {m : Key × Node} {text : List Char}
    (h : LaysMember last n m text) : Begins text := by
  cases h with
  | simple h => exact h.begins.append _
  | explicit => exact .of_starts (by decide)

theorem LaysMembers.begins {last : Bool} {n : Nat} {ms : List (Key × Node)} {text : List Char}
    (h : LaysMembers last n ms text) : Begins text := by
  cases h with
  | last h => exact h.begins
  | cons h _ => exact h.begins.append _

/-- So does the text of every node. -/
theorem Lays.begins {last : Bool} {i : Int} {n : Nat} {v : Node} {text : List Char}
    (h : Lays last i n v text) : Begins text := by
  cases h with
  | flat h => exact h.begins
  | seq h => exact h.begins
  | map h => exact h.begins

/-- What stands behind the colon of a key is set off from it. -/
theorem LaysValue.atBlankOrEnd {last : Bool} {n : Nat} {hangs : Bool} {v : Node} {text : List Char}
    (h : LaysValue last n hangs v text) (rest : List Char) : atBlankOrEnd (text ++ rest) = true := by
  cases h <;> rfl

/-! ## §4 Nodes are scanned -/

namespace Scanner

/-- To leave a collection that was opened at a column is to put its end behind its tokens. -/
theorem Arrives.of_rolled {s : Scanner} {o : Open} {n : Nat} {i : Int} {kind : TokenKind}
    {ks : List TokenKind} {tail : Tail} (hlt : o.indent < n) (hfits : tail.Fits i) (hi : i < n)
    (h : s.Arrives ((o.roll n kind).push ks) tail) :
    s.Arrives (o.push (kind :: (ks ++ [.blockEnd]))) tail := by
  have hroll : (o.roll n kind).push ks = ⟨o.tokens ++ kind :: ks, n, o.indent :: o.outer⟩ := by
    rw [Open.roll, if_neg (Int.not_le.mpr hlt)]
    simp [Open.push]
  -- The tail is left of the column, so that the collection is closed on the way there.
  have hclose {column : Int} (hcolumn : column < n) :
      ((o.roll n kind).push ks).closeTo column =
        (o.push (kind :: (ks ++ [.blockEnd]))).closeTo column := by
    rw [hroll, Open.closeTo_cons hcolumn]
    simp [Open.push]
  cases tail with
  | done => exact ⟨h.1, h.2.1.trans (hclose (by omega)), h.2.2⟩
  | line column rest =>
    have hcolumn : (column : Int) < n := Int.lt_of_le_of_lt hfits.1 hi
    exact ⟨hclose hcolumn ▸ h.1, h.2⟩

theorem Tail.Fits.mono {tail : Tail} {i j : Int} (h : tail.Fits i) (hij : i ≤ j) : tail.Fits j := by
  cases tail with
  | done => trivial
  | line column rest => exact ⟨Int.le_trans h.1 hij, h.2⟩

/-- Another entry of a collection comes behind a node. -/
theorem Arrives.at {s : Scanner} {o : Open} {n : Nat} {rest : List Char} (h : s.Arrives o (.line n rest))
    (ho : o.indent ≤ n) : s.At o n rest ∧ s.keyAllowed = true := by
  obtain ⟨hat, hallowed⟩ := h
  rw [Open.closeTo_of_le ho] at hat
  exact ⟨hat, hallowed⟩

/-- A node on one line is read, and then what comes behind it. -/
theorem scans_of_flat {s : Scanner} {o : Open} {i : Int} {n : Nat} {last : Bool} {v : Node}
    {text : List Char} {tail : Tail} {ks : List TokenKind} (h : Flat last i v text) (hanging : Bool)
    (hs : s.At o n (text ++ tail.text)) (ho : o.indent = i) (hle : i ≤ n)
    (hlast : last = true → tail = .done) (hfits : tail.Fits i) (hlt : s.keyAllowed = true → i < n)
    (hnext : ∀ s' : Scanner, s'.Arrives (o.push (v.tokens hanging)) tail → s'.Scans ks) : s.Scans ks := by
  have hbehind := lineEnd_append hlast
  cases h with
  | leaf h => exact scans_of_leaf h hs ho hle hlast hfits hlt hnext
  | emptySeq | emptyMap =>
    exact scans_of_pair hs (by simp [dispatch, startsWithThree_of_ne])
      (fun m => by simp [dispatch, startsWithThree_of_ne]) (by decide) hbehind (ho ▸ hlt) (ho ▸ hle)
      hfits hnext

mutual

/-- The text of a node is read to its tokens, by induction on how it is laid out. What comes behind the
node is left to the continuation, so that the parts of a collection can be put together. -/
theorem scans_of_lays {last : Bool} {i : Int} {n : Nat} {v : Node} {text : List Char} :
    Lays last i n v text → ∀ {s : Scanner} {o : Open} {tail : Tail} {ks : List TokenKind},
    s.At o n (text ++ tail.text) → s.keyAllowed = true → o.indent = i → i < n →
    (last = true → tail = .done) → tail.Fits i →
    (∀ s' : Scanner, s'.Arrives (o.push (v.tokens false)) tail → s'.Scans ks) → s.Scans ks
  | .flat h, _, _, _, _, hs, _, ho, hlt, hlast, hfits, hnext =>
    scans_of_flat h false hs ho (by omega) hlast hfits (fun _ => hlt) hnext
  | .seq h, _, _, _, _, hs, hallowed, ho, hlt, hlast, hfits, hnext =>
    scans_of_items h hs hallowed (by omega) hlast (hfits.mono (by omega)) fun s' hs' =>
      hnext s' (h.tokens false ▸ hs'.of_rolled (by omega) hfits hlt)
  | .map h, _, _, _, _, hs, hallowed, ho, hlt, hlast, hfits, hnext =>
    scans_of_members h hs hallowed (by omega) hlast (hfits.mono (by omega)) fun s' hs' =>
      hnext s' (h.tokens false ▸ hs'.of_rolled (by omega) hfits hlt)

theorem scans_of_items {last : Bool} {n : Nat} {vs : List Node} {text : List Char} :
    LaysItems last n vs text → ∀ {s : Scanner} {o : Open} {tail : Tail} {ks : List TokenKind},
    s.At o n (text ++ tail.text) → s.keyAllowed = true → o.indent ≤ n → (last = true → tail = .done) →
    tail.Fits n →
    (∀ s' : Scanner, s'.Arrives ((o.roll n .blockSequenceStart).push (itemTokens vs)) tail →
      s'.Scans ks) → s.Scans ks
  | .last h, s, o, tail, ks, hs, hallowed, ho, hlast, hfits, hnext => by
    -- The last item: what comes behind it comes behind the items.
    refine scans_of_indicator hs (dispatch_dash hs.keys hallowed _) (h.begins.append _).atToken ho ?_
    intro s' hs' hallowed'
    have hindent := Open.roll_indent ho .blockSequenceStart
    refine scans_of_lays h hs' hallowed' hindent (by omega) hlast hfits fun s'' hs'' => hnext s'' ?_
    simpa [itemTokens, Open.push_push] using hs''
  | @LaysItems.cons _ _ v vs text rest h hrest, s, o, tail, ks, hs, hallowed, ho, hlast, hfits,
      hnext => by
    have hs : s.At o n ('-' :: ' ' :: (text ++ (Tail.line n (rest ++ tail.text)).text)) := by
      simpa [Tail.text] using hs
    refine scans_of_indicator hs (dispatch_dash hs.keys hallowed _) (h.begins.append _).atToken ho ?_
    intro s' hs' hallowed'
    have hindent := Open.roll_indent ho .blockSequenceStart
    -- Behind this item comes the line of the next one, at the column of the dash.
    refine scans_of_lays h hs' hallowed' hindent (by omega) (by simp) ((hrest.begins.append _).fits n) ?_
    intro s'' hs''
    obtain ⟨hat, hallowed''⟩ := hs''.at (Int.le_of_eq hindent)
    refine scans_of_items hrest hat hallowed'' (Int.le_of_eq hindent) hlast hfits fun s₃ hs₃ =>
      hnext s₃ ?_
    simpa [itemTokens, Open.push_push, Open.roll_push ho] using hs₃

theorem scans_of_members {last : Bool} {n : Nat} {ms : List (Key × Node)} {text : List Char} :
    LaysMembers last n ms text → ∀ {s : Scanner} {o : Open} {tail : Tail} {ks : List TokenKind},
    s.At o n (text ++ tail.text) → s.keyAllowed = true → o.indent ≤ n → (last = true → tail = .done) →
    tail.Fits n →
    (∀ s' : Scanner, s'.Arrives ((o.roll n .blockMappingStart).push (memberTokens ms)) tail →
      s'.Scans ks) → s.Scans ks
  | .last h, _, _, _, _, hs, hallowed, ho, hlast, hfits, hnext =>
    scans_of_member h hs hallowed ho hlast hfits hnext
  | @LaysMembers.cons _ _ m ms text rest h hrest, s, o, tail, ks, hs, hallowed, ho, hlast, hfits,
      hnext => by
    have hs : s.At o n (text ++ (Tail.line n (rest ++ tail.text)).text) := by simpa [Tail.text] using hs
    have hindent := Open.roll_indent ho .blockMappingStart
    -- Behind this member comes the line of the next one.
    refine scans_of_member h hs hallowed ho (by simp) ((hrest.begins.append _).fits n) fun s' hs' => ?_
    obtain ⟨hat, hallowed'⟩ := hs'.at (Int.le_of_eq hindent)
    refine scans_of_members hrest hat hallowed' (Int.le_of_eq hindent) hlast hfits fun s'' hs'' =>
      hnext s'' ?_
    simpa [memberTokens, Open.push_push, Open.roll_push ho] using hs''

theorem scans_of_member {last : Bool} {n : Nat} {m : Key × Node} {text : List Char} :
    LaysMember last n m text → ∀ {s : Scanner} {o : Open} {tail : Tail} {ks : List TokenKind},
    s.At o n (text ++ tail.text) → s.keyAllowed = true → o.indent ≤ n → (last = true → tail = .done) →
    tail.Fits n →
    (∀ s' : Scanner, s'.Arrives ((o.roll n .blockMappingStart).push (memberTokens [m])) tail →
      s'.Scans ks) → s.Scans ks
  | @LaysMember.simple _ _ k v key text hkey hlength hvalue, s, o, tail, ks, hs, hallowed, ho, hlast,
      hfits, hnext => by
    have hs : s.At o n (key ++ ':' :: (text ++ tail.text)) := by simpa using hs
    obtain ⟨allowed, hread⟩ := dispatch_key hkey hs ho (hvalue.atBlankOrEnd _)
    have hindent := Open.roll_indent ho .blockMappingStart
    -- The key and its colon are read in one go, then the value.
    refine scans_of_key hs hallowed ho hread hkey.begins.ne_nil hlength (hvalue.atBlankOrEnd _) ?_
    intro m hm hfalse
    refine scans_of_value hvalue hm hfalse hindent (by omega) hlast hfits fun s' hs' => hnext s' ?_
    simpa [memberTokens, Open.push_push] using hs'
  | @LaysMember.explicit _ _ k v key text hkey hhangs hvalue, s, o, tail, ks, hs, hallowed, ho, hlast,
      hfits, hnext => by
    have hs : s.At o n
        ('?' :: ' ' :: (key ++ (Tail.line n (':' :: ' ' :: (text ++ tail.text))).text)) := by
      simpa [Tail.text] using hs
    refine scans_of_indicator hs (dispatch_questionMark hs.keys hallowed _)
      (hkey.begins.append _).atToken ho ?_
    intro s' hs' hallowed'
    have hindent : ((o.roll n .blockMappingStart).push [.key]).indent = n := Open.roll_indent ho _
    have hcolon : Begins (':' :: ' ' :: (text ++ tail.text)) := .of_starts (by decide)
    -- The key ends its line, and the colon begins the next one at the column of the question mark.
    refine scans_of_leaf hkey hs' hindent (by omega) (by simp) (hcolon.fits n) (fun _ => by omega) ?_
    intro s'' hs''
    obtain ⟨hat, hallowed''⟩ := hs''.at (Int.le_of_eq hindent)
    refine scans_of_indicator hat (dispatch_colon hat.keys hallowed'' _) (hvalue.begins.append _).atToken
      (Int.le_of_eq hindent) ?_
    rw [Open.push_push, Open.roll_push ho]
    intro s₃ hs₃ hallowed₃
    refine scans_of_lays hvalue hs₃ hallowed₃ hindent (by omega) hlast hfits fun s₄ hs₄ => hnext s₄ ?_
    simpa [memberTokens, Open.push_push, hhangs] using hs₄

theorem scans_of_value {last : Bool} {n : Nat} {hangs : Bool} {v : Node} {text : List Char} :
    LaysValue last n hangs v text →
    ∀ {s : Scanner} {o : Open} {a : Nat} {tail : Tail} {ks : List TokenKind},
    s.At o a (text ++ tail.text) → s.keyAllowed = false → o.indent = n → n ≤ a →
    (last = true → tail = .done) → tail.Fits n →
    (∀ s' : Scanner, s'.Arrives (o.push (v.tokens hangs)) tail → s'.Scans ks) →
    ∃ s', s.prepared = .ok s' ∧ s'.cursor.rest.length ≤ (text ++ tail.text).length ∧ s'.Scans ks
  | @LaysValue.inline _ _ _ v text h, s, o, a, tail, ks, hs, hallowed, ho, hle, hlast, hfits, hnext => by
    obtain ⟨s', hs', hat, hallowed'⟩ := hs.space (h.begins.append _).atToken (by omega)
    refine ⟨s', hs', by simp [hat.rest], ?_⟩
    exact scans_of_flat h _ hat ho (by omega) hlast hfits (by simp [hallowed', hallowed]) hnext
  | @LaysValue.under _ _ b _ ms text hlt h, s, o, a, tail, ks, hs, hallowed, ho, hle, hlast, hfits,
      hnext => by
    have hs : s.At o a ('\n' :: (List.replicate b ' ' ++ (text ++ tail.text))) := by simpa using hs
    -- The members stand on the next line, further to the right, so a collection is opened.
    obtain ⟨s', hs', hat, hallowed'⟩ := hs.break (h.begins.append _).atToken (by omega)
    refine ⟨s', hs', by simp [hat.rest]; omega, ?_⟩
    exact scans_of_members h hat hallowed' (by omega) hlast (hfits.mono (by omega)) fun s'' hs'' =>
      hnext s'' (h.tokens _ ▸ hs''.of_rolled (by omega) hfits (by omega))
  | @LaysValue.hanging _ _ vs text h, s, o, a, tail, ks, hs, hallowed, ho, hle, hlast, hfits,
      hnext => by
    have hs : s.At o a ('\n' :: (List.replicate n ' ' ++ (text ++ tail.text))) := by simpa using hs
    -- The items stand at the column of the mapping, so none is opened.
    obtain ⟨s', hs', hat, hallowed'⟩ := hs.break (h.begins.append _).atToken (by omega)
    refine ⟨s', hs', by simp [hat.rest]; omega, ?_⟩
    refine scans_of_items h hat hallowed' (by omega) hlast hfits fun s'' hs'' => hnext s'' ?_
    rw [Open.roll_of_indent ho] at hs''
    exact h.tokens true ▸ hs''

end

/-- The text of a node supplies the tokens of the node. -/
theorem supplies_of_lays {last : Bool} {v : Node} {text : List Char} (h : Lays last (-1) 0 v text) :
    (ofText text).Supplies (v.tokens false ++ [.streamEnd]) := by
  -- Nothing has to be skipped in front of the first token.
  have hprepared : (ofText text).prepared = .ok (ofText text) :=
    prepared_of_fresh rfl h.begins.atToken (by simp [ofText]) (Int.negSucc_le_zero 0)
  have hat : (ofText text).At ⟨[], -1, []⟩ 0 (text ++ Tail.done.text) :=
    ⟨rfl, rfl, (List.append_nil text).symm, by simp [Tail.text, ofText], rfl, rfl⟩
  refine supplies_of_scans hprepared (Nat.le_refl _) ?_
  refine scans_of_lays h hat rfl rfl (by omega) (fun _ => rfl) trivial fun s hs => ?_
  have hopen : (Open.push ⟨[], -1, []⟩ (v.tokens false)).indent ≤ -1 := Int.le_refl _
  have hscans := scans_of_done hs
  rwa [Open.closeTo_of_le hopen] at hscans

end Scanner

/-! ## §5 Texts that may be read -/

/-- A text without forbidden characters, and not too short for its events. -/
structure Readable (events : Nat) (text : List Char) : Prop where
  printable : text.all isPrintable = true
  length : events ≤ 2 * text.length

/-- What the writer prints as it is, the reader allows. -/
theorem isAllowed_of_isPrintable {c : Char} (h : isPrintable c = true) : isAllowed c = true := by
  have hvalid : c.toNat < 0xD800 ∨ 0xDFFF < c.toNat ∧ c.toNat < 0x110000 := c.valid
  simp only [isPrintable, isAllowed, Bool.or_eq_true, Bool.and_eq_true, beq_iff_eq,
    decide_eq_true_eq] at h ⊢
  omega

theorem forbiddenAt?_eq_none {text : List Char} (h : text.all isPrintable = true) (offset : Nat) :
    forbiddenAt? offset text = none := by
  induction text generalizing offset with
  | nil => rfl
  | cons c text ih =>
    rw [List.all_cons, Bool.and_eq_true] at h
    rw [forbiddenAt?, if_pos (isAllowed_of_isPrintable h.1)]
    exact ih h.2 _

/-- A quoted text is printable where the characters are that are written as they are, and the spellings
of the others. -/
theorem all_isPrintable_quotedText {spell : Char → List Char} {isRaw : Char → Bool} {n : Nat}
    {cs : List Char} (hspell : ∀ c ∈ cs, (spell c).all isPrintable = true)
    (hraw : ∀ c ∈ cs, isRaw c = true → isPrintable c = true) (broken : Bool) :
    (quotedText spell isRaw n broken cs).all isPrintable = true := by
  have hspaces : ∀ b : Bool, (if b then List.replicate n ' ' else []).all isPrintable = true := by
    rintro (_ | _) <;> simp [isPrintable]
  induction cs generalizing broken with
  | nil => exact hspaces broken
  | cons c cs ih =>
    have ih := ih (fun d hd => hspell d (List.mem_cons_of_mem _ hd)) fun d hd =>
      hraw d (List.mem_cons_of_mem _ hd)
    rw [quotedText]
    split
    · next hc => simp [hc, ih, show isPrintable ' ' = true from rfl]
    · split
      · next hc => simpa [hraw c List.mem_cons_self hc] using ih true
      · simp only [List.all_append, hspaces, hspell c List.mem_cons_self, ih, Bool.and_self]

theorem all_isPrintable_singleText {cs : List Char} (h : (Shape.of cs).single = true) (n : Nat) :
    (singleText n cs).all isPrintable = true := by
  obtain ⟨-, -, hprintable⟩ := shape_single h
  refine all_isPrintable_quotedText (fun c hc => ?_) (fun c hc _ => hprintable c hc) false
  unfold singleChar
  split <;> simp [hprintable c hc]

theorem all_isPrintable_literalText {cs : List Char} (h : ∀ c ∈ cs, isPrintable c = true) (n : Nat)
    (broken : Bool) :
    (literalText n broken cs).all isPrintable = true := by
  induction cs generalizing broken with
  | nil => rfl
  | cons c cs ih =>
    have hc := h c List.mem_cons_self
    have ih := ih fun d hd => h d (List.mem_cons_of_mem _ hd)
    rw [literalText]
    split
    · simp [hc, ih]
    · have hspaces : (if broken then List.replicate n ' ' else []).all isPrintable = true := by
        cases broken <;> simp [isPrintable]
      simp [hspaces, hc, ih]

theorem isPrintable_digit : ∀ n < 16, isPrintable (Nat.digitChar n).toUpper = true := by
  decide

theorem all_isPrintable_upperHex (width n : Nat) : (upperHex width n).all isPrintable = true := by
  induction width generalizing n with
  | zero => rfl
  | succ width ih => simp [upperHex, ih, isPrintable_digit _ (Nat.mod_lt n (by decide : 0 < 16))]

/-- An escape is printable, whichever of its forms it has. -/
theorem all_isPrintable_doubleChar (c : Char) : (doubleChar c).all isPrintable = true := by
  unfold doubleChar
  split
  · next hc =>
    simp only [Bool.and_eq_true] at hc
    simp [hc.1.1.1]
  · have hslash : isPrintable '\\' = true := rfl
    split
    · next l hl =>
      have hletter : isPrintable l = true := by
        unfold escapeLetter? at hl
        split at hl <;> cases hl <;> rfl
      simp [hslash, hletter]
    · dsimp only
      split
      · simp [hslash, all_isPrintable_upperHex, show isPrintable 'x' = true from rfl]
      · split
        · simp [hslash, all_isPrintable_upperHex, show isPrintable 'u' = true from rfl]
        · simp [hslash, all_isPrintable_upperHex, show isPrintable 'U' = true from rfl]

theorem all_isPrintable_double (cs : List Char) : (cs.flatMap doubleChar).all isPrintable = true := by
  rw [List.all_flatMap, List.all_eq_true]
  exact fun c _ => all_isPrintable_doubleChar c

theorem PlainText.all_isPrintable {cs : List Char} (h : PlainText cs) : cs.all isPrintable = true :=
  List.all_eq_true.mpr fun c hc => (h.chars c hc).1

theorem all_isPrintable_lineEnd (last : Bool) : (lineEnd last).all isPrintable = true := by
  cases last <;> rfl

theorem all_isPrintable_blockHints (indented : Bool) (chomping : Chomping) :
    (blockHints indented chomping).all isPrintable = true := by
  cases indented <;> cases chomping <;> rfl

theorem KeyText.all_isPrintable {content text : List Char} {style : ScalarStyle}
    (h : KeyText content style text) : text.all isPrintable = true := by
  cases h with
  | plain h => exact h.all_isPrintable
  | single h => simp [all_isPrintable_singleText h, show isPrintable '\'' = true from rfl]
  | double => simp [-List.all_flatMap, all_isPrintable_double, show isPrintable '"' = true from rfl]

theorem Leaf.all_isPrintable {last : Bool} {i : Int} {content text : List Char} {style : ScalarStyle}
    (h : Leaf last i content style text) : text.all isPrintable = true := by
  cases h with
  | plain h => simp [h.all_isPrintable, all_isPrintable_lineEnd]
  | single h =>
    simp [all_isPrintable_singleText h, all_isPrintable_lineEnd, show isPrintable '\'' = true from rfl]
  | double =>
    simp [-List.all_flatMap, all_isPrintable_double, all_isPrintable_lineEnd,
      show isPrintable '"' = true from rfl]
  | block _ h =>
    simp [all_isPrintable_literalText h, all_isPrintable_blockHints,
      show isPrintable '|' = true from rfl, show isPrintable '\n' = true from rfl]
  | bare => simp [all_isPrintable_blockHints, show isPrintable '|' = true from rfl]

/-- A text of one line gives at most one event, or two for the brackets. -/
theorem Flat.readable {last : Bool} {i : Int} {v : Node} {text : List Char} (h : Flat last i v text) :
    Readable v.events.length text := by
  cases h with
  | leaf h =>
    have hpos := List.length_pos_iff.mpr h.begins.ne_nil
    exact ⟨h.all_isPrintable, by simp only [Node.events, List.length_singleton]; omega⟩
  | emptySeq | emptyMap =>
    exact ⟨by simp [all_isPrintable_lineEnd, isPrintable],
      by simp [Node.events, itemEvents, memberEvents]⟩

namespace Readable

variable {k m n : Nat} {a b : List Char}

theorem append (ha : Readable m a) (hb : Readable n b) : Readable (m + n) (a ++ b) := by
  refine ⟨by simp [ha.printable, hb.printable], ?_⟩
  have := ha.length
  have := hb.length
  rw [List.length_append]
  omega

theorem mono (h : Readable m a) (hk : k ≤ m) : Readable k a :=
  ⟨h.printable, Nat.le_trans hk h.length⟩

theorem spaces (n : Nat) : Readable 0 (List.replicate n ' ') :=
  ⟨by simp [isPrintable], Nat.zero_le _⟩

end Readable

mutual

/-- The text of a node is readable: every event has two characters of its own to pay for it, on the
average. -/
theorem readable_of_lays {last : Bool} {i : Int} {n : Nat} {v : Node} {text : List Char} :
    Lays last i n v text → Readable v.events.length text
  | .flat h => h.readable
  | .seq h => by simpa [Node.events] using readable_of_items h
  | .map h => by simpa [Node.events] using readable_of_members h

theorem readable_of_items {last : Bool} {n : Nat} {vs : List Node} {text : List Char} :
    LaysItems last n vs text → Readable ((itemEvents vs).length + 2) text
  -- A dash and a space pay for the beginning and the end of the sequence.
  | .last h => by
    refine (Readable.append (a := ['-', ' ']) (m := 4) ⟨rfl, by decide⟩ (readable_of_lays h)).mono ?_
    simp [itemEvents]
    omega
  | .cons h hrest => by
    have hrest := (Readable.spaces n).append (readable_of_items hrest)
    refine (Readable.append (a := ['-', ' ']) (m := 4) ⟨rfl, by decide⟩
      ((readable_of_lays h).append hrest)).mono ?_
    simp [itemEvents]
    omega

theorem readable_of_members {last : Bool} {n : Nat} {ms : List (Key × Node)} {text : List Char} :
    LaysMembers last n ms text → Readable ((memberEvents ms).length + 2) text
  | .last h => readable_of_member h
  | .cons h hrest => by
    have hrest := (Readable.spaces n).append (readable_of_members hrest)
    refine ((readable_of_member h).append hrest).mono ?_
    simp [memberEvents]
    omega

theorem readable_of_member {last : Bool} {n : Nat} {m : Key × Node} {text : List Char} :
    LaysMember last n m text → Readable ((memberEvents [m]).length + 2) text
  -- A colon pays for the key, whose text is not empty.
  | .simple hkey _ h => by
    have hpos := List.length_pos_iff.mpr hkey.begins.ne_nil
    refine (Readable.append (m := 2) ⟨hkey.all_isPrintable, by omega⟩
      (Readable.append (a := [':']) (m := 2) ⟨rfl, by decide⟩ (readable_of_value h))).mono ?_
    simp [memberEvents]
    omega
  | .explicit hkey _ h => by
    have hcolon := Readable.append (a := [':', ' ']) (m := 4) ⟨rfl, by decide⟩ (readable_of_lays h)
    have hrest := Readable.append (m := 0) ⟨hkey.all_isPrintable, Nat.zero_le _⟩
      ((Readable.spaces n).append hcolon)
    refine (Readable.append (a := ['?', ' ']) (m := 4) ⟨rfl, by decide⟩ hrest).mono ?_
    simp [memberEvents]
    omega

theorem readable_of_value {last : Bool} {n : Nat} {hangs : Bool} {v : Node} {text : List Char} :
    LaysValue last n hangs v text → Readable v.events.length text
  | .inline h => (Readable.append (a := [' ']) (m := 0) ⟨rfl, by decide⟩ h.readable).mono (by omega)
  | @LaysValue.under _ _ a _ _ _ _ h => by
    refine (Readable.append (a := ['\n']) (m := 0) ⟨rfl, by decide⟩
      ((Readable.spaces a).append (readable_of_members h))).mono ?_
    simp [Node.events]
  | .hanging h => by
    refine (Readable.append (a := ['\n']) (m := 0) ⟨rfl, by decide⟩
      ((Readable.spaces n).append (readable_of_items h))).mono ?_
    simp [Node.events]

end

/-- The text of a node is read to what the node means. -/
theorem parseChars_of_lays {last : Bool} {v : Node} {text : List Char} {d : Nat} {x : Json.Value}
    (h : Lays last (-1) 0 v text) (hmeans : Means d v x) (hd : d ≤ Source.maxDepth) :
    parseChars text = .ok x := by
  have hreadable := readable_of_lays h
  refine parseChars_of_supplies (forbiddenAt?_eq_none hreadable.printable 0) (Scanner.supplies_of_lays h)
    ?_ hmeans hd
  have := hreadable.length
  omega

end QueryPlayground.Yaml
