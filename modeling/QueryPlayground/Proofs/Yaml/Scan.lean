import QueryPlayground.Proofs.Yaml.Cursor
import QueryPlayground.Proofs.Yaml.Supply

/-!
# Scanning line by line

Where the scanner stands is said by the column, the unread text, and the open block collections with
the tokens before them. A column closes the collections that begin right of it; in front of a token
that has been done already, so a scanner behind a node can be told from the line that comes next.

Main statements: `supplies_of_scans`, `Behind.arrives`, `scans_of_indicator` and `scans_of_key`.
-/

namespace QueryPlayground.Yaml

open Scanner (unrollTo)

/-! ## §1 Open collections -/

/-- The tokens so far and the block collections that are open. -/
structure Open where
  tokens : List TokenKind
  /-- The column of the innermost collection, `-1` outside of all. -/
  indent : Int
  /-- The columns around it. -/
  outer : List Int

namespace Open

/-- Tokens are added. -/
def push (o : Open) (ks : List TokenKind) : Open :=
  { o with tokens := o.tokens ++ ks }

/-- A collection begins at a column, unless one does already. -/
def roll (o : Open) (column : Nat) (kind : TokenKind) : Open :=
  if (column : Int) ≤ o.indent then o else ⟨o.tokens ++ [kind], column, o.indent :: o.outer⟩

/-- The collections right of a column are closed. -/
def closeTo (column : Int) (o : Open) : Open :=
  let (indent, outer, closed) := unrollTo column o.outer o.indent 0
  ⟨o.tokens ++ List.replicate closed .blockEnd, indent, outer⟩

end Open

/-- What was closed before is counted on. -/
theorem unrollTo_add (column : Int) (outer : List Int) (indent : Int) (m n : Nat) :
    unrollTo column outer indent (m + n) =
      ((unrollTo column outer indent m).1, (unrollTo column outer indent m).2.1,
        (unrollTo column outer indent m).2.2 + n) := by
  induction outer generalizing indent m with
  | nil => rfl
  | cons i outer ih =>
    simp only [unrollTo]
    split
    · rw [Nat.add_right_comm]
      exact ih i (m + 1)
    · rfl

namespace Open

variable {o : Open}

theorem push_push (o : Open) (ks ks' : List TokenKind) : (o.push ks).push ks' = o.push (ks ++ ks') := by
  simp [push]

/-- A column that is not left of the innermost collection closes none. -/
theorem closeTo_of_le {column : Int} (h : o.indent ≤ column) : o.closeTo column = o := by
  obtain ⟨tokens, indent, outer⟩ := o
  have hlt : ¬ column < indent := Int.not_lt.mpr h
  cases outer <;> simp [closeTo, unrollTo, hlt]

/-- The innermost collection is closed first, and then those around it. -/
theorem closeTo_cons {column indent i : Int} (h : column < indent) (tokens : List TokenKind)
    (outer : List Int) :
    (⟨tokens, indent, i :: outer⟩ : Open).closeTo column =
      (⟨tokens ++ [.blockEnd], i, outer⟩ : Open).closeTo column := by
  have hadd := unrollTo_add column outer i 0 1
  rw [Nat.zero_add] at hadd
  simp only [closeTo, unrollTo, h, if_true, hadd, Nat.zero_add, List.append_assoc, List.singleton_append]
  rw [List.replicate_succ]

/-- Closing up to a column further to the right first makes no difference. -/
theorem closeTo_closeTo {c d : Int} (h : c ≤ d) (o : Open) : (o.closeTo d).closeTo c = o.closeTo c := by
  obtain ⟨tokens, indent, outer⟩ := o
  induction outer generalizing tokens indent with
  | nil => simp [closeTo, unrollTo]
  | cons i outer ih =>
    by_cases hd : d < indent
    · rw [closeTo_cons hd, closeTo_cons (Int.lt_of_le_of_lt h hd)]
      exact ih _ _
    · have hstays := closeTo_of_le (o := ⟨tokens, indent, i :: outer⟩) (Int.not_lt.mp hd)
      rw [hstays]

end Open

namespace Scanner

/-- The collections that a scanner has opened. -/
def opened (s : Scanner) : Open :=
  ⟨s.queue.map (·.kind), s.indent, s.outer⟩

/-- Outside of flow collections the scanner closes just these. -/
theorem opened_unroll {s : Scanner} {column : Int} (h : s.inFlow = false) :
    (s.unroll column).opened = s.opened.closeTo column := by
  simp [unroll, h, opened, Open.closeTo]

theorem unroll_cursor (s : Scanner) (column : Int) : (s.unroll column).cursor = s.cursor := by
  unfold unroll
  split <;> rfl

theorem unroll_keyAllowed (s : Scanner) (column : Int) :
    (s.unroll column).keyAllowed = s.keyAllowed := by
  unfold unroll
  split <;> rfl

theorem opened_take (s : Scanner) (kind : TokenKind) (length : Nat) :
    (s.take kind length).opened = s.opened.push [kind] := by
  simp [take, opened, Open.push]

/-! ## §2 Texts that are scanned -/

/-- The scanner in front of its next token, which has closed the collections that end before it. -/
def prepared (s : Scanner) : Except Failure Scanner :=
  s.ready >>= fun s => .ok (s.unroll s.cursor.column)

/-- A scanner in front of a token reads the rest of the text, and then these are its tokens. -/
inductive Scans : Scanner → List TokenKind → Prop where
  | done {s e : Scanner} : s.cursor.rest = [] → s.readEnd = .ok e → (∀ k ∈ e.keys, k = none) →
      Scans s (e.queue.map (·.kind))
  | step {s m s' : Scanner} {ks : List TokenKind} : s.dispatch s.cursor.rest = .ok m →
      m.prepared = .ok s' → s'.cursor.rest.length < s.cursor.rest.length → Scans s' ks → Scans s ks

/-- A text that is scanned is read to its end within as many steps as it has characters. -/
theorem Scans.exists_reads {s : Scanner} {ks : List TokenKind} (h : s.Scans ks) :
    ∃ n e, n ≤ s.cursor.rest.length ∧ (s.dispatch s.cursor.rest >>= reads n) = .ok e ∧
      e.queue.map (·.kind) = ks ∧ ∀ k ∈ e.keys, k = none := by
  -- Every token takes at least one character, so the length of the rest pays for the steps.
  induction h with
  | @done s e hrest hend hkeys =>
    refine ⟨0, e, Nat.zero_le _, ?_, rfl, hkeys⟩
    rw [hrest, dispatch, hend]
    rfl
  | @step s m s' ks hm hs' hlt _ ih =>
    obtain ⟨n, e, hn, hreads, he, hkeys⟩ := ih
    refine ⟨n + 1, e, Nat.lt_of_le_of_lt hn hlt, ?_, he, hkeys⟩
    have hread : m.readToken = s'.dispatch s'.cursor.rest := by
      rw [readToken_eq, show (m.ready >>= fun s => .ok (s.unroll s.cursor.column)) = .ok s' from hs']
      rfl
    rw [hm]
    show (m.readToken >>= reads n) = .ok e
    rw [hread, hreads]

/-- A text that is scanned supplies its tokens one by one. -/
theorem supplies_of_scans {text : List Char} {s : Scanner} {ks : List TokenKind}
    (hs : (ofText text).prepared = .ok s) (hrest : s.cursor.rest.length ≤ text.length)
    (h : s.Scans ks) : (ofText text).Supplies ks := by
  obtain ⟨n, e, hn, hreads, rfl, hkeys⟩ := h.exists_reads
  have hread : (ofText text).reads (n + 1) = .ok e := by
    have hs : ((ofText text).ready >>= fun s => .ok (s.unroll s.cursor.column)) = .ok s := hs
    rw [reads, readToken_eq, hs]
    exact hreads
  refine supplies_of_reads hread ?_ hkeys (Nat.succ_le_succ (Nat.le_trans hn ?_))
  · intro k hk
    simp [ofText] at hk
  · exact Nat.le_succ_of_le hrest

/-! ## §3 Space in front of a token -/

/-- The character with which a token may begin. -/
def StartsToken (c : Char) : Prop :=
  isBlankChar c = false ∧ isBreakChar c = false ∧ c ≠ '#' ∧ c ≠ Char.ofNat 0xFEFF

instance (c : Char) : Decidable (StartsToken c) :=
  inferInstanceAs (Decidable (_ ∧ _))

/-- A token begins the text, or there is none any more. -/
def AtToken (cs : List Char) : Prop :=
  ∀ c ∈ cs.head?, StartsToken c

theorem atToken_nil : AtToken [] := by
  simp [AtToken]

/-- Spaces are passed over up to the first character that is no blank. -/
theorem skipWhile_spaces {c : Cursor} {n : Nat} {rest : List Char} (tabs : Bool)
    (hc : c.rest = List.replicate n ' ' ++ rest) (h : ∀ d ∈ rest.head?, isBlankChar d = false) :
    (c.skipWhile fun d => d = ' ' || (tabs && d = '\t')) = c.skip n := by
  have htaken : (c.taken fun d => d = ' ' || (tabs && d = '\t')) = List.replicate n ' ' := by
    rw [Cursor.taken, hc, List.takeWhile_append_of_pos (fun d hd => by simp [List.eq_of_mem_replicate hd])]
    cases rest with
    | nil => simp
    | cons d rest =>
      have hd : isBlankChar d = false := h d rfl
      simp only [isBlankChar, Bool.or_eq_false_iff] at hd
      simp [hd]
  rw [Cursor.skipWhile, htaken, List.length_replicate]

/-- Spaces in front of a token are all that is skipped. -/
theorem skipSpaceFrom_token {s : Scanner} {n : Nat} {rest : List Char}
    (hs : s.cursor.rest = List.replicate n ' ' ++ rest) (h : AtToken rest) (fuel : Nat) :
    skipSpaceFrom (fuel + 1) s = { s with cursor := s.cursor.skip n } := by
  have hspaces := skipWhile_spaces (s.inFlow || !s.keyAllowed) hs fun d hd => (h d hd).1
  -- Neither a comment nor a line break comes behind the spaces.
  have hcomment : (s.cursor.skip n).skipComment = s.cursor.skip n := by
    cases rest with
    | nil => simp [Cursor.skipComment, Cursor.rest_skip_spaces hs, startsWith]
    | cons d rest => simp [Cursor.skipComment, Cursor.rest_skip_spaces hs, startsWith, (h d rfl).2.2.1]
  have hstop : (!rest.isEmpty && atBreakOrEnd rest) = false := by
    cases rest with
    | nil => rfl
    | cons d rest => simp [atBreakOrEnd, (h d rfl).2.1]
  simp only [skipSpaceFrom, hspaces, hcomment, Cursor.rest_skip_spaces hs, hstop]
  rfl

/-- A mark of the byte order is passed over only where the text begins with one. -/
theorem skipSpace_eq {s : Scanner} (h : ∀ c ∈ s.cursor.rest.head?, c ≠ Char.ofNat 0xFEFF) :
    s.skipSpace = skipSpaceFrom (s.size + 1) s := by
  have hmark : (s.cursor.index == 0 && startsWith (Char.ofNat 0xFEFF) s.cursor.rest) = false := by
    cases hrest : s.cursor.rest with
    | nil => simp [startsWith]
    | cons c rest =>
      have hc : c ≠ Char.ofNat 0xFEFF := h c (by simp [hrest])
      simp [startsWith, hc]
  simp only [skipSpace, hmark]
  rfl

theorem skipSpace_spaces {s : Scanner} {n : Nat} {rest : List Char}
    (hs : s.cursor.rest = List.replicate n ' ' ++ rest) (h : AtToken rest) :
    s.skipSpace = { s with cursor := s.cursor.skip n } := by
  rw [skipSpace_eq, skipSpaceFrom_token hs h]
  intro c hc
  cases n with
  | zero => exact (h c (by simpa [hs] using hc)).2.2.2
  | succ n =>
    obtain rfl : ' ' = c := by simpa [hs, List.replicate_succ] using hc
    decide

/-- A line break and the spaces behind it are skipped, and a key may begin behind them. -/
theorem skipSpaceFrom_break {s : Scanner} {n : Nat} {rest : List Char}
    (hs : s.cursor.rest = '\n' :: (List.replicate n ' ' ++ rest)) (h : AtToken rest) (fuel : Nat) :
    skipSpaceFrom (fuel + 2) s =
      { s with
        cursor := ⟨rest, s.cursor.index + 1 + n, s.cursor.line + 1, n⟩
        keyAllowed := s.keyAllowed || !s.inFlow } := by
  have hskip : s.cursor.skip 0 = s.cursor := rfl
  -- The loop goes round once for the break and once more for the spaces.
  have hnone := skipWhile_spaces (n := 0) (s.inFlow || !s.keyAllowed) (c := s.cursor) (by simpa using hs)
    (by simp; decide)
  have hcomment : s.cursor.skipComment = s.cursor := by simp [Cursor.skipComment, hs, startsWith]
  have hbreak := Cursor.skipBreak_lineFeed hs
  have hstop : (!s.cursor.rest.isEmpty && atBreakOrEnd s.cursor.rest) = true := by rw [hs]; rfl
  rw [skipSpaceFrom]
  simp only [hnone, hskip, hcomment, hbreak, hstop, if_true]
  rw [skipSpaceFrom_token rfl h]
  simp [Cursor.skip]

theorem skipSpace_break {s : Scanner} {n : Nat} {rest : List Char}
    (hs : s.cursor.rest = '\n' :: (List.replicate n ' ' ++ rest)) (h : AtToken rest) (hsize : 0 < s.size) :
    s.skipSpace =
      { s with
        cursor := ⟨rest, s.cursor.index + 1 + n, s.cursor.line + 1, n⟩
        keyAllowed := s.keyAllowed || !s.inFlow } := by
  have hfuel : s.size + 1 = s.size - 1 + 2 := by omega
  rw [skipSpace_eq (by simp [hs]), hfuel]
  exact skipSpaceFrom_break hs h _

/-! ## §4 Where the scanner stands -/

/-- The scanner is at a column in front of a text, inside block collections, and no key is pending. -/
structure At (s : Scanner) (o : Open) (column : Nat) (text : List Char) : Prop where
  opened : s.opened = o
  column : s.cursor.column = column
  rest : s.cursor.rest = text
  size : text.length ≤ s.size
  taken : s.taken = 0
  keys : s.keys = [none]

theorem inFlow_of_keys {s : Scanner} {k : Option SimpleKey} (h : s.keys = [k]) : s.inFlow = false := by
  simp [inFlow, h]

/-- What comes behind a node. -/
inductive Tail where
  /-- The end of the text. -/
  | done
  /-- A line of a collection around the node. -/
  | line (column : Nat) (rest : List Char)

/-- The text behind a node whose last line is ended. -/
def Tail.text : Tail → List Char
  | .done => []
  | .line column rest => List.replicate column ' ' ++ rest

/-- What can come behind a node inside a collection that begins at a column. -/
def Tail.Fits (indent : Int) : Tail → Prop
  | .done => True
  | .line column rest => (column : Int) ≤ indent ∧ rest ≠ [] ∧ AtToken rest

/-- The scanner has gone on to what comes behind a node. -/
def Arrives (s : Scanner) (o : Open) : Tail → Prop
  | .done => s.cursor.rest = [] ∧ s.opened.closeTo (-1) = o.closeTo (-1) ∧
      ∃ k, s.keys = [k] ∧ ∀ k', k = some k' → k'.required = false
  | .line column rest => s.At (o.closeTo column) column rest ∧ s.keyAllowed = true

/-- The end of a node is next, or the line break there has been passed over, behind which a key may
begin. -/
def Ended (c : Cursor) (allowed : Bool) (line : Nat) (tail : Tail) : Prop :=
  c.rest = '\n' :: tail.text ∧ line ≤ c.line ∨
    (∃ column rest, tail = .line column rest ∧ c.rest = rest ∧ c.column = column ∧ line < c.line ∧
      allowed = true) ∨
    tail = .done ∧ c.rest = []

/-- The scanner has read a node. A key that may have begun on its line has been given up or will be. -/
structure Behind (s : Scanner) (o : Open) (line : Nat) (tail : Tail) : Prop where
  opened : s.opened = o
  taken : s.taken = 0
  size : s.cursor.rest.length < s.size
  key : ∃ k, s.keys = [k] ∧ ∀ k', k = some k' → k'.required = false ∧ k'.mark.line ≤ line
  place : Ended s.cursor s.keyAllowed line tail

theorem dropKey_of_none {s : Scanner} (hk : s.keys = [none]) : s.dropKey = .ok s := by
  simp [dropKey, hk]

/-- A pending key that need not be one is dropped without an error. -/
theorem dropKey_singleton {s : Scanner} {k : Option SimpleKey} (hk : s.keys = [k])
    (h : ∀ k', k = some k' → k'.required = false) : s.dropKey = .ok { s with keys := [none] } := by
  obtain ⟨c, size, queue, taken, indent, outer, allowed, keys⟩ := s
  obtain rfl : keys = [k] := hk
  cases k with
  | none => rfl
  | some k => simp [dropKey, h k rfl]

/-- A pending key goes when the line has ended. -/
theorem dropStaleKeys_singleton {s : Scanner} {k : Option SimpleKey} (hk : s.keys = [k])
    (h : ∀ k', k = some k' → k'.required = false) :
    ∃ k₀, s.dropStaleKeys = .ok { s with keys := [k₀] } ∧
      (∀ k', k₀ = some k' → k'.required = false) ∧
      ((∀ k', k = some k' → k'.mark.line < s.cursor.line) → k₀ = none) := by
  refine ⟨k.filter (!s.isStale ·), dropStaleKeys_eq_ok_iff.mpr ⟨fun k' hk' _ => ?_, by rw [hk]; rfl⟩,
    ?_, ?_⟩
  · rw [hk, List.mem_singleton] at hk'
    exact h k' hk'.symm
  · intro k' hk'
    exact h k' (Option.filter_eq_some_iff.mp hk').1
  · intro hline
    cases k with
    | none => rfl
    | some k =>
      have hstale : s.isStale k = true := by simp [isStale, hline k rfl]
      simp [Option.filter, hstale]

/-- Behind space only keys of an earlier line are dropped. -/
theorem prepared_of {s m : Scanner} (hskip : s.skipSpace = m) {k : Option SimpleKey} (hk : m.keys = [k])
    (h : ∀ k', k = some k' → k'.required = false) :
    ∃ k₀, s.prepared = .ok ({ m with keys := [k₀] }.unroll m.cursor.column) ∧
      (∀ k', k₀ = some k' → k'.required = false) ∧
      ((∀ k', k = some k' → k'.mark.line < m.cursor.line) → k₀ = none) := by
  obtain ⟨k₀, hdrop, hrequired, hline⟩ := dropStaleKeys_singleton hk h
  refine ⟨k₀, ?_, hrequired, hline⟩
  rw [prepared, ready, hskip, hdrop]
  rfl

theorem At.of_unroll {s : Scanner} {column : Nat} {rest : List Char} (hcolumn : s.cursor.column = column)
    (hrest : s.cursor.rest = rest) (hsize : rest.length ≤ s.size) (htaken : s.taken = 0)
    (hkeys : s.keys = [none]) : (s.unroll column).At (s.opened.closeTo column) column rest := by
  have hflow := inFlow_of_keys hkeys
  obtain ⟨hkeys', htaken', hsize'⟩ := unroll_keeps s column
  exact ⟨opened_unroll hflow, by rw [unroll_cursor, hcolumn], by rw [unroll_cursor, hrest], hsize' ▸ hsize,
    htaken'.trans htaken, hkeys'.trans hkeys⟩

/-- The key that may have begun in a node is dropped on any later line. -/
theorem Behind.prepared {s m : Scanner} {o : Open} {line : Nat} {tail : Tail} (h : s.Behind o line tail)
    (hskip : s.skipSpace = m) :
    ∃ k, s.prepared = .ok ({ m with keys := [k] }.unroll m.cursor.column) ∧
      (∀ k', k = some k' → k'.required = false) ∧ (line < m.cursor.line → k = none) := by
  obtain ⟨k, hk, hkey⟩ := h.key
  have hkeys : m.keys = [k] := by rw [← hskip, (skipSpace_keeps s).1, hk]
  obtain ⟨k₀, hprepared, hrequired, hnone⟩ := prepared_of hskip hkeys fun k' hk' => (hkey k' hk').1
  exact ⟨k₀, hprepared, hrequired, fun hline =>
    hnone fun k' hk' => Nat.lt_of_le_of_lt (hkey k' hk').2 hline⟩

/-- The end of the text comes behind a node. -/
theorem Behind.arrives_done {s : Scanner} {o : Open} {line : Nat} (h : s.Behind o line .done) :
    ∃ s', s.prepared = .ok s' ∧ s'.Arrives o .done ∧ s'.cursor.rest.length ≤ s.cursor.rest.length := by
  obtain ⟨m, hskip, hopened, hrest⟩ : ∃ m, s.skipSpace = m ∧ m.opened = o ∧ m.cursor.rest = [] := by
    -- The node is ended by a line break, or its text is the end of the whole text.
    rcases h.place with ⟨hbreak, -⟩ | ⟨column, rest, htail, -⟩ | ⟨-, hrest⟩
    · have hsize : 0 < s.size := Nat.lt_of_le_of_lt (Nat.zero_le _) h.size
      have hbreak : s.cursor.rest = '\n' :: (List.replicate 0 ' ' ++ []) := hbreak
      exact ⟨_, skipSpace_break hbreak atToken_nil hsize, h.opened, rfl⟩
    · cases htail
    · have hspaces : s.cursor.rest = List.replicate 0 ' ' ++ [] := hrest
      exact ⟨_, skipSpace_spaces hspaces atToken_nil, h.opened, by simpa [Cursor.skip] using hrest⟩
  obtain ⟨k, hprepared, hrequired, -⟩ := h.prepared hskip
  have hflow : ({ m with keys := [k] } : Scanner).inFlow = false := rfl
  refine ⟨_, hprepared, ⟨?_, ?_, k, ?_, hrequired⟩, ?_⟩
  · rw [unroll_cursor, hrest]
  · rw [opened_unroll hflow, Open.closeTo_closeTo (by omega)]
    exact congrArg _ hopened
  · rw [(unroll_keeps _ _).1]
  · simp [unroll_cursor, hrest]

/-- Behind space, with no key left, the scanner stands in front of a token. -/
theorem prepared_at {s m : Scanner} {o : Open} {k : Option SimpleKey} {column : Nat} {rest : List Char}
    (hskip : s.skipSpace = m) (hopened : m.opened = o) (hkeys : s.keys = [k])
    (hk : ∀ k', k = some k' → k'.required = false ∧ k'.mark.line < m.cursor.line)
    (hcolumn : m.cursor.column = column) (hrest : m.cursor.rest = rest) (hsize : rest.length ≤ s.size)
    (htaken : s.taken = 0) :
    ∃ s', s.prepared = .ok s' ∧ s'.At (o.closeTo column) column rest ∧ s'.keyAllowed = m.keyAllowed := by
  obtain ⟨hmkeys, hmtaken, hmsize, -⟩ := skipSpace_keeps s
  rw [hskip] at hmkeys hmtaken hmsize
  obtain ⟨k₀, hprepared, -, hnone⟩ := prepared_of hskip (hmkeys.trans hkeys) fun k' hk' => (hk k' hk').1
  obtain rfl := hnone fun k' hk' => (hk k' hk').2
  have hat := At.of_unroll (s := { m with keys := [none] }) hcolumn hrest (hmsize ▸ hsize)
    (hmtaken.trans htaken) rfl
  rw [show ({ m with keys := [none] } : Scanner).opened = o from hopened] at hat
  exact ⟨_, hcolumn ▸ hprepared, hat, unroll_keyAllowed _ _⟩

/-- A line of an outer collection comes behind a node. -/
theorem Behind.arrives_line {s : Scanner} {o : Open} {line column : Nat} {rest : List Char}
    (h : s.Behind o line (.line column rest)) (hrest : AtToken rest) :
    ∃ s', s.prepared = .ok s' ∧ s'.Arrives o (.line column rest) ∧
      s'.cursor.rest.length ≤ s.cursor.rest.length := by
  obtain ⟨m, hskip, hopened, hplace, hline, hallowed⟩ : ∃ m, s.skipSpace = m ∧ m.opened = o ∧
      (m.cursor.column = column ∧ m.cursor.rest = rest) ∧ line < m.cursor.line ∧ m.keyAllowed = true := by
    -- The break is still to be passed over, or that was done in reading the node.
    rcases h.place with ⟨hbreak, hline⟩ | ⟨_, _, htail, hmrest, hcolumn, hline, hallowed⟩ | ⟨htail, -⟩
    · have hsize : 0 < s.size := Nat.lt_of_le_of_lt (Nat.zero_le _) h.size
      obtain ⟨k, hk, -⟩ := h.key
      exact ⟨_, skipSpace_break hbreak hrest hsize, h.opened, ⟨rfl, rfl⟩,
        Nat.lt_succ_of_le hline, by simp [inFlow_of_keys hk]⟩
    · cases htail
      exact ⟨_, skipSpace_spaces (n := 0) (by simpa using hmrest) hrest, h.opened,
        ⟨hcolumn, by simpa [Cursor.skip] using hmrest⟩, hline, hallowed⟩
    · cases htail
  obtain ⟨hcolumn, hmrest⟩ := hplace
  have hle : rest.length ≤ s.cursor.rest.length := by
    rcases h.place with ⟨hbreak, -⟩ | ⟨_, _, htail, hmrest, -⟩ | ⟨htail, -⟩
    · simp [hbreak, Tail.text]
      omega
    · cases htail
      simp [hmrest]
    · cases htail
  obtain ⟨k, hk, hkey⟩ := h.key
  obtain ⟨s', hprepared, hat, hallowed'⟩ := prepared_at hskip hopened hk
    (fun k' hk' => ⟨(hkey k' hk').1, Nat.lt_of_le_of_lt (hkey k' hk').2 hline⟩) hcolumn hmrest
    (Nat.le_trans hle (Nat.le_of_lt h.size)) h.taken
  exact ⟨s', hprepared, ⟨hat, hallowed'.trans hallowed⟩, hat.rest ▸ hle⟩

/-- A node was read: what comes behind it is scanned next. -/
theorem scans_of_behind {s m : Scanner} {o : Open} {line : Nat} {i : Int} {tail : Tail}
    {ks : List TokenKind} (hm : s.dispatch s.cursor.rest = .ok m) (h : m.Behind o line tail)
    (hfits : tail.Fits i) (hlt : m.cursor.rest.length < s.cursor.rest.length)
    (hnext : ∀ s' : Scanner, s'.Arrives o tail → s'.Scans ks) : s.Scans ks := by
  -- The node is not the end of the tokens, so its step is one of a scan.
  obtain ⟨s', hprepared, harrives, hle⟩ : ∃ s', m.prepared = .ok s' ∧ s'.Arrives o tail ∧
      s'.cursor.rest.length ≤ m.cursor.rest.length := by
    cases tail with
    | done => exact h.arrives_done
    | line column rest => exact h.arrives_line hfits.2.2
  exact .step hm hprepared (Nat.lt_of_le_of_lt hle hlt) (hnext s' harrives)

/-- At the end of the text the collections that are open are closed. -/
theorem scans_of_done {s : Scanner} {o : Open} (h : s.Arrives o .done) :
    s.Scans ((o.closeTo (-1)).tokens ++ [.streamEnd]) := by
  obtain ⟨hrest, hopened, k, hk, hrequired⟩ := h
  -- The line is ended first, which nothing but the marks depends on.
  let c :=
    if s.cursor.column == 0 then s.cursor else { s.cursor with line := s.cursor.line + 1, column := 0 }
  let m := ({ s with cursor := c } : Scanner).unroll (-1)
  have hmkeys : m.keys = [k] := (unroll_keeps _ _).1.trans hk
  have hmopened : m.opened = o.closeTo (-1) :=
    (opened_unroll (s := { s with cursor := c }) (inFlow_of_keys hk)).trans hopened
  have hdrop : m.dropKey = .ok { m with keys := [none] } := dropKey_singleton hmkeys hrequired
  have hend : s.readEnd = .ok ({ m with keys := [none], keyAllowed := false }.take .streamEnd 0) := by
    show m.dropKey >>= _ = _
    rw [hdrop]
    rfl
  have hqueue : ({ m with keys := [none], keyAllowed := false }.take .streamEnd 0).queue.map Token.kind =
      (o.closeTo (-1)).tokens ++ [.streamEnd] := by
    rw [← hmopened]
    simp [take, opened]
  exact hqueue ▸ .done hrest hend (by simp [take])

/-! ## §5 Indicators -/

theorem opened_roll {s : Scanner} (h : s.inFlow = false) (column : Nat) (kind : TokenKind) (m : Mark) :
    (s.roll column none kind m).opened = s.opened.roll column kind := by
  have hindent : s.opened.indent = s.indent := rfl
  simp only [roll, h, Bool.false_or, Open.roll, decide_eq_true_eq, hindent]
  split
  · rfl
  · simp [push, opened]

theorem roll_cursor (s : Scanner) (column : Nat) (number : Option Nat) (kind : TokenKind) (m : Mark) :
    (s.roll column number kind m).cursor = s.cursor := by
  unfold roll
  split
  · rfl
  · cases number <;> rfl

/-- A space in front of a token is passed over. -/
theorem At.space {s : Scanner} {o : Open} {n : Nat} {text : List Char} (h : s.At o n (' ' :: text))
    (htext : AtToken text) (hle : o.indent ≤ n) :
    ∃ s', s.prepared = .ok s' ∧ s'.At o (n + 1) text ∧ s'.keyAllowed = s.keyAllowed := by
  have hsize := h.size
  have hcolumn : (s.cursor.skip 1).column = n + 1 := by simp [Cursor.skip, h.column]
  have hrest : (s.cursor.skip 1).rest = text := by simp [Cursor.skip, h.rest]
  obtain ⟨s', hprepared, hat, hallowed⟩ := prepared_at (skipSpace_spaces (n := 1) h.rest htext) h.opened
    h.keys (by simp) hcolumn hrest (Nat.le_of_succ_le hsize) h.taken
  rw [Open.closeTo_of_le (by omega)] at hat
  exact ⟨s', hprepared, hat, hallowed⟩

/-- A line break in front of a token is passed over, and a key may begin behind it. -/
theorem At.break {s : Scanner} {o : Open} {n a : Nat} {text : List Char}
    (h : s.At o n ('\n' :: (List.replicate a ' ' ++ text))) (htext : AtToken text) (hle : o.indent ≤ a) :
    ∃ s', s.prepared = .ok s' ∧ s'.At o a text ∧ s'.keyAllowed = true := by
  have hsize := h.size
  simp only [List.length_cons, List.length_append] at hsize
  have htextSize : text.length ≤ s.size := by omega
  obtain ⟨s', hprepared, hat, hallowed⟩ := prepared_at (skipSpace_break h.rest htext (by omega)) h.opened
    h.keys (by simp) rfl rfl htextSize h.taken
  rw [Open.closeTo_of_le hle] at hat
  exact ⟨s', hprepared, hat, hallowed.trans (by simp [inFlow_of_keys h.keys])⟩

end Scanner

theorem Open.roll_indent {o : Open} {column : Nat} (h : o.indent ≤ column) (kind : TokenKind) :
    (o.roll column kind).indent = column := by
  unfold Open.roll
  split
  · next hle => exact Int.le_antisymm h hle
  · rfl

theorem Open.roll_of_indent {o : Open} {n : Nat} (h : o.indent = n) (kind : TokenKind) :
    o.roll n kind = o := by
  rw [Open.roll, if_pos (Int.le_of_eq h.symm)]

/-- A collection that has begun does not begin again. -/
theorem Open.roll_push {o : Open} {n : Nat} (h : o.indent ≤ n) (kind kind' : TokenKind)
    (ks : List TokenKind) :
    ((o.roll n kind).push ks).roll n kind' = (o.roll n kind).push ks :=
  Open.roll_of_indent (show ((o.roll n kind).push ks).indent = n from Open.roll_indent h kind) kind'

namespace Scanner

/-- An indicator is read, behind the beginning of a collection where none begins at its column yet. -/
theorem scans_of_indicator {s : Scanner} {o : Open} {n : Nat} {c : Char} {text : List Char}
    {kind token : TokenKind} {ks : List TokenKind} (hs : s.At o n (c :: ' ' :: text))
    (hread : s.dispatch (c :: ' ' :: text) =
      .ok ({ s.roll s.cursor.column none kind s.cursor.mark with keyAllowed := true }.take token 1))
    (htext : AtToken text) (hle : o.indent ≤ n)
    (hnext : ∀ s' : Scanner, s'.At ((o.roll n kind).push [token]) (n + 2) text → s'.keyAllowed = true →
      s'.Scans ks) : s.Scans ks := by
  let r := s.roll s.cursor.column none kind s.cursor.mark
  have hat : ({ r with keyAllowed := true }.take token 1).At ((o.roll n kind).push [token]) (n + 1)
      (' ' :: text) := by
    obtain ⟨hrkeys, hrtaken, hrsize⟩ := roll_keeps s s.cursor.column none kind s.cursor.mark
    have hrcursor : r.cursor = s.cursor := roll_cursor ..
    -- The beginning of the collection comes first, then the indicator.
    have hroll : r.opened = o.roll n kind := by
      rw [opened_roll (inFlow_of_keys hs.keys), hs.opened, hs.column]
    have hsize : (' ' :: text).length ≤ r.size := by
      have := hs.size
      show _ ≤ (s.roll s.cursor.column none kind s.cursor.mark).size
      simp only [List.length_cons, hrsize] at this ⊢
      omega
    refine ⟨?_, ?_, ?_, hsize, hrtaken.trans hs.taken, hrkeys.trans hs.keys⟩
    · rw [opened_take, ← hroll]
      rfl
    · simp [take, hrcursor, Cursor.skip, hs.column]
    · simp [take, hrcursor, Cursor.skip, hs.rest]
  have hindent : ((o.roll n kind).push [token]).indent ≤ n := Int.le_of_eq (Open.roll_indent hle kind)
  obtain ⟨s', hprepared, hat', hallowed⟩ := hat.space htext (Int.le_trans hindent (by omega))
  refine .step (hs.rest ▸ hread) hprepared ?_ (hnext s' hat' hallowed)
  simp only [hat'.rest, hs.rest, List.length_cons]
  omega

theorem startsWithThree_of_ne {c d : Char} (h : d ≠ c) (text : List Char) :
    startsWithThree c (d :: text) = false := by
  rcases text with _ | ⟨_, _ | _⟩ <;> simp [startsWithThree, h]

section

variable {s : Scanner} (hkeys : s.keys = [none]) (hallowed : s.keyAllowed = true) (text : List Char)
include hkeys hallowed

/-- A dash in front of a space is the indicator of an item. -/
theorem dispatch_dash : s.dispatch ('-' :: ' ' :: text) =
    .ok ({ s.roll s.cursor.column none .blockSequenceStart s.cursor.mark with keyAllowed := true }.take
      .blockEntry 1) := by
  obtain ⟨hrkeys, -, -⟩ := roll_keeps s s.cursor.column none .blockSequenceStart s.cursor.mark
  have hdrop := dropKey_of_none (hrkeys.trans hkeys)
  have hdocument : startsWithThree '-' ('-' :: ' ' :: text) = false := by
    cases text <;> simp [startsWithThree]
  simp [dispatch, hdocument, startsWithThree_of_ne, atBlankOrEnd, isBlankChar, readBlockEntry, hallowed,
    hdrop, bind, Except.bind, pure, Except.pure]

/-- A question mark in front of a space is that of a key. -/
theorem dispatch_questionMark : s.dispatch ('?' :: ' ' :: text) =
    .ok ({ s.roll s.cursor.column none .blockMappingStart s.cursor.mark with keyAllowed := true }.take
      .key 1) := by
  obtain ⟨hrkeys, -, -⟩ := roll_keeps s s.cursor.column none .blockMappingStart s.cursor.mark
  have hdrop := dropKey_of_none (hrkeys.trans hkeys)
  have hflow := inFlow_of_keys (hrkeys.trans hkeys)
  simp [dispatch, startsWithThree_of_ne, atBlankOrEnd, isBlankChar, readKey, hallowed, hdrop, hflow, bind,
    Except.bind, pure, Except.pure]

/-- A colon in front of a space, where no key is pending, is that of a value. -/
theorem dispatch_colon : s.dispatch (':' :: ' ' :: text) =
    .ok ({ s.roll s.cursor.column none .blockMappingStart s.cursor.mark with keyAllowed := true }.take
      .value 1) := by
  obtain ⟨hrkeys, -, -⟩ := roll_keeps s s.cursor.column none .blockMappingStart s.cursor.mark
  have hflow := inFlow_of_keys (hrkeys.trans hkeys)
  simp [dispatch, startsWithThree_of_ne, atBlankOrEnd, isBlankChar, readValue, hkeys, hallowed, hflow]

end

/-! ## §6 Scalars and keys -/

/-- The key that may begin at a token. -/
def keyHere (s : Scanner) : Option SimpleKey :=
  if s.keyAllowed then
    some
      { required := !s.inFlow && s.indent == s.cursor.column
        number := s.taken + s.queue.length
        index := s.cursor.index
        mark := s.cursor.mark }
  else none

/-- A token at which a key may begin is noted as one. -/
theorem saveKey_of_none {s : Scanner} (hk : s.keys = [none]) :
    s.saveKey = .ok { s with keys := [s.keyHere] } := by
  unfold saveKey keyHere
  split
  · rw [dropKey_of_none hk]
    simp [hk, bind, Except.bind, pure, Except.pure]
  · rw [← hk]

/-- A key stays within reach on its line, for a while. -/
theorem isStale_of_near {s m : Scanner} {k : SimpleKey} (hk : s.keyHere = some k)
    (hline : m.cursor.line = s.cursor.line) (hindex : m.cursor.index ≤ s.cursor.index + longestKey) :
    m.isStale k = false := by
  unfold keyHere at hk
  split at hk
  · cases hk
    simp [isStale, Cursor.mark, hline, hindex]
  · cases hk

/-- Where a collection around it begins further to the left, no key has to begin at a token. -/
theorem keyHere_unneeded {s : Scanner} {o : Open} {n : Nat} {text : List Char} (hs : s.At o n text)
    (hindent : s.keyAllowed = true → o.indent < n) (k : SimpleKey) (hk : s.keyHere = some k) :
    k.required = false ∧ k.mark.line ≤ s.cursor.line := by
  unfold keyHere at hk
  split at hk
  · next hallowed =>
    cases hk
    have hne : s.indent ≠ n := by
      rw [show s.indent = o.indent from congrArg Open.indent hs.opened]
      exact Int.ne_of_lt (hindent hallowed)
    simp [hs.column, hne, Cursor.mark]
  · cases hk

/-- The scanner behind a scalar, with the key that may have begun at it. -/
def pastScalar (s : Scanner) (k : Option SimpleKey) (content : List Char) (style : ScalarStyle)
    (allowed : Bool) (c : Cursor) : Scanner :=
  { s with keys := [k], keyAllowed := allowed }.takeTo (.scalar content style) c

/-- The three kinds of scalars are taken as tokens, and only a block gives up the key that may begin at
it. -/
theorem readQuoted_eq {s : Scanner} {quote : Char} {content : List Char} {c : Cursor}
    (hk : s.keys = [none]) (h : quotedScalar s.size quote s.cursor = .ok (content, c)) :
    s.readQuoted quote = .ok (s.pastScalar s.keyHere content .marked false c) := by
  simp [readQuoted, saveKey_of_none hk, h, pastScalar, bind, Except.bind, pure, Except.pure]

theorem readPlain_eq {s : Scanner} {content : List Char} {broken : Bool} {c : Cursor}
    (hk : s.keys = [none]) (h : plainScalar s.size false s.indent s.cursor = .ok (content, broken, c)) :
    s.readPlain = .ok (s.pastScalar s.keyHere content .plain broken c) := by
  have hflow : ({ s with keys := [s.keyHere] } : Scanner).inFlow = false := rfl
  simp [readPlain, saveKey_of_none hk, hflow, h, pastScalar, bind, Except.bind, pure, Except.pure]

theorem readBlockScalar_eq {s : Scanner} {content : List Char} {c : Cursor} (hk : s.keys = [none])
    (h : blockScalar s.size true s.indent s.cursor = .ok (content, c)) :
    s.readBlockScalar true = .ok (s.pastScalar none content .marked true c) := by
  simp [readBlockScalar, dropKey_of_none hk, h, pastScalar, ← hk, bind, Except.bind, pure, Except.pure]

/-- Behind a scalar comes what comes behind its text. -/
theorem behind_of_scalar {s : Scanner} {o : Open} {n : Nat} {text content : List Char}
    {k : Option SimpleKey} {style : ScalarStyle} {allowed : Bool} {c : Cursor} {tail : Tail}
    (hs : s.At o n text)
    (hk : ∀ k', k = some k' → k'.required = false ∧ k'.mark.line ≤ s.cursor.line)
    (hlt : c.rest.length < text.length) (hplace : Ended c allowed s.cursor.line tail) :
    (s.pastScalar k content style allowed c).Behind (o.push [.scalar content style]) s.cursor.line
      tail where
  opened := by
    rw [← hs.opened]
    simp [pastScalar, takeTo, opened, Open.push]
  taken := hs.taken
  size := Nat.lt_of_lt_of_le hlt hs.size
  key := ⟨k, rfl, hk⟩
  place := hplace

theorem unroll_of_le {s : Scanner} {column : Int} (h : s.indent ≤ column) : s.unroll column = s := by
  have hlt : ¬ column < s.indent := Int.not_lt.mpr h
  unfold unroll
  split
  · rfl
  · cases houter : s.outer <;> simp [unrollTo, hlt, ← houter]

/-- A key that is still within reach stays. -/
theorem prepared_of_fresh {s : Scanner} {rest : List Char} (hrest : s.cursor.rest = rest) (h : AtToken rest)
    (hkeys : ∀ k, some k ∈ s.keys → s.isStale k = false) (hle : s.indent ≤ s.cursor.column) :
    s.prepared = .ok s := by
  have hskip : s.skipSpace = s := skipSpace_spaces (n := 0) (by simpa using hrest) h
  rw [prepared, ready, hskip, dropStaleKeys_eq_self hkeys]
  show Except.ok (s.unroll _) = _
  rw [unroll_of_le hle]

theorem insertAt_last {s : Scanner} {q : List Token} {u : Token} (hq : s.queue = q ++ [u])
    (ht : s.taken = 0) (t : Token) : s.insertAt q.length t = { s with queue := q ++ [t, u] } := by
  simp [insertAt, hq, ht]

/-- The collection of a first key begins in front of the key. -/
theorem opened_key {s : Scanner} {k : SimpleKey} {q : List Token} {u : Token} (hflow : s.inFlow = false)
    (hq : s.queue = q ++ [u]) (ht : s.taken = 0) (hk : k.number = q.length) :
    ((s.insertAt k.number ⟨.key, k.mark, k.mark⟩).roll k.mark.column (some k.number) .blockMappingStart
        k.mark).opened =
      ((⟨q.map (·.kind), s.indent, s.outer⟩ : Open).roll k.mark.column .blockMappingStart).push
        [.key, u.kind] := by
  rw [hk, insertAt_last hq ht]
  have hflow : ({ s with queue := q ++ [⟨.key, k.mark, k.mark⟩, u] } : Scanner).inFlow = false := hflow
  simp only [roll, hflow, Bool.false_or, Open.roll, decide_eq_true_eq]
  split
  · simp [opened, Open.push]
  · simp [insertAt, ht, opened, Open.push]

/-- A colon behind a scalar on the same line makes the scalar a key. -/
theorem scans_of_key {s : Scanner} {o : Open} {n : Nat} {key text content : List Char} {style : ScalarStyle}
    {allowed : Bool} {ks : List TokenKind} (hs : s.At o n (key ++ ':' :: text))
    (hallowed : s.keyAllowed = true) (hle : o.indent ≤ n)
    (hread : s.dispatch (key ++ ':' :: text) =
      .ok (s.pastScalar s.keyHere content style allowed (s.cursor.skip key.length)))
    (hne : key ≠ []) (hlength : key.length ≤ longestKey) (htext : atBlankOrEnd text = true)
    (hnext : ∀ m : Scanner,
      m.At ((o.roll n .blockMappingStart).push [.key, .scalar content style, .value])
        (n + key.length + 1) text → m.keyAllowed = false →
      ∃ s', m.prepared = .ok s' ∧ s'.cursor.rest.length ≤ text.length ∧ s'.Scans ks) :
    s.Scans ks := by
  -- The scalar is noted as a key that may begin here.
  obtain ⟨k, hkey, hnumber, hmark⟩ : ∃ k, s.keyHere = some k ∧ k.number = s.queue.length ∧
      k.mark = s.cursor.mark :=
    ⟨_, by rw [keyHere, if_pos hallowed], by simp [hs.taken], rfl⟩
  have hcolumn : k.mark.column = n := by rw [hmark, ← hs.column, Cursor.mark]
  have hindent : s.indent = o.indent := congrArg Open.indent hs.opened
  let m := s.pastScalar s.keyHere content style allowed (s.cursor.skip key.length)
  have hmkeys : m.keys = [some k] := by rw [← hkey]; rfl
  have hmrest : m.cursor.rest = ':' :: text := by simp [m, pastScalar, takeTo, Cursor.skip, hs.rest]
  have hmcolumn : m.cursor.column = n + key.length := by
    simp [m, pastScalar, takeTo, Cursor.skip, hs.column]
  -- It is still noted in front of the colon, as both are on one line and not far from each other.
  have hprepared : m.prepared = .ok m := by
    refine prepared_of_fresh hmrest (fun c hc => ?_) (fun k' hk' => ?_) ?_
    · obtain rfl : ':' = c := by simpa using hc
      decide
    · obtain rfl : k' = k := by simpa [hmkeys] using hk'
      exact isStale_of_near hkey rfl (Nat.add_le_add_left hlength _)
    · show s.indent ≤ _
      rw [hindent, hmcolumn]
      omega
  -- The colon puts the beginning of the key in front of the scalar.
  let r := (m.insertAt k.number ⟨.key, k.mark, k.mark⟩).roll k.mark.column (some k.number)
    .blockMappingStart k.mark
  let m' := { r with keys := [none], keyAllowed := false }.take .value 1
  have hdispatch : m.dispatch (':' :: text) = .ok m' := by
    simp [dispatch, startsWithThree_of_ne, htext, readValue, hmkeys, m', r]
  have hat : m'.At ((o.roll n .blockMappingStart).push [.key, .scalar content style, .value])
      (n + key.length + 1) text := by
    obtain ⟨hrkeys, hrtaken, hrsize⟩ := roll_keeps (m.insertAt k.number ⟨.key, k.mark, k.mark⟩)
      k.mark.column (some k.number) .blockMappingStart k.mark
    have hrcursor : r.cursor = m.cursor := roll_cursor ..
    have hropened : r.opened = (o.roll n .blockMappingStart).push [.key, .scalar content style] := by
      have h := opened_key (s := m) (k := k) (q := s.queue) rfl rfl hs.taken hnumber
      rw [show (⟨s.queue.map (·.kind), m.indent, m.outer⟩ : Open) = o from hs.opened, hcolumn] at h
      rw [← h, ← hcolumn]
    have hsize : text.length ≤ r.size := by
      have := hs.size
      simp only [List.length_append, List.length_cons] at this
      rw [show r.size = s.size from hrsize]
      omega
    refine ⟨?_, ?_, ?_, hsize, hrtaken.trans hs.taken, rfl⟩
    · rw [opened_take]
      show r.opened.push [.value] = _
      rw [hropened, Open.push_push]
      rfl
    · simp [m', take, hrcursor, Cursor.skip, hmcolumn]
    · simp [m', take, hrcursor, Cursor.skip, hmrest]
  obtain ⟨s', hs', hlt, hscans⟩ := hnext m' hat rfl
  have hpos : 0 < key.length := List.length_pos_iff.mpr hne
  -- Two steps are made, for the scalar and for the colon.
  refine .step (hs.rest ▸ hread) hprepared ?_ (.step (hmrest ▸ hdispatch) hs' ?_ hscans)
  · simp only [hmrest, hs.rest, List.length_append]
    omega
  · simp only [hmrest, List.length_cons]
    omega

/-- A pair of brackets or braces is read. -/
theorem scans_of_pair {s : Scanner} {o : Open} {n : Nat} {i : Int} {a b : Char} {rest : List Char}
    {tail : Tail} {first last : TokenKind} {ks : List TokenKind} (hs : s.At o n (a :: b :: rest))
    (hopen : s.dispatch (a :: b :: rest) = s.readFlowStart first)
    (hclose : ∀ m : Scanner, m.dispatch (b :: rest) = m.readFlowEnd last) (hb : StartsToken b)
    (hrest : rest = '\n' :: tail.text ∨ tail = .done ∧ rest = [])
    (hindent : s.keyAllowed = true → o.indent < n) (hle : o.indent ≤ n) (hfits : tail.Fits i)
    (hnext : ∀ s' : Scanner, s'.Arrives (o.push [first, last]) tail → s'.Scans ks) : s.Scans ks := by
  let m := { s with keys := [none, s.keyHere], keyAllowed := true }.take first 1
  have hread : s.dispatch (a :: b :: rest) = .ok m := by
    rw [hopen, readFlowStart, saveKey_of_none hs.keys]
    rfl
  have hmrest : m.cursor.rest = b :: rest := by simp [m, take, Cursor.skip, hs.rest]
  -- No key is dropped between the brackets, as nothing stands there.
  have hprepared : m.prepared = .ok m := by
    refine prepared_of_fresh hmrest (fun c hc => ?_) (fun k hk => ?_) ?_
    · obtain rfl : b = c := by simpa using hc
      exact hb
    · have hk : s.keyHere = some k := by simpa [m, take, eq_comm] using hk
      exact isStale_of_near hk rfl (Nat.add_le_add_left (by decide) _)
    · show s.indent ≤ (s.cursor.column + 1 : Nat)
      rw [show s.indent = o.indent from congrArg Open.indent hs.opened, hs.column]
      omega
  let m' := { m with keys := [s.keyHere], keyAllowed := false }.take last 1
  have hread' : m.dispatch m.cursor.rest = .ok m' := by
    rw [hmrest, hclose]
    rfl
  have hm'rest : m'.cursor.rest = rest := by simp [m', take, Cursor.skip, hmrest]
  have hsize := hs.size
  simp only [List.length_cons] at hsize
  -- Behind the second bracket the key that may have begun at the first one is still noted.
  have hbehind : m'.Behind (o.push [first, last]) s.cursor.line tail := by
    refine ⟨?_, hs.taken, ?_, ⟨_, rfl, keyHere_unneeded hs hindent⟩, ?_⟩
    · rw [← hs.opened]
      simp [m', m, take, opened, Open.push]
    · rw [hm'rest]
      show rest.length < s.size
      omega
    · rcases hrest with hrest | ⟨htail, hrest⟩
      · exact .inl ⟨hm'rest.trans hrest, Nat.le_refl _⟩
      · exact .inr (.inr ⟨htail, hm'rest.trans hrest⟩)
  refine .step (hs.rest ▸ hread) hprepared (by simp [hmrest, hs.rest]) ?_
  exact scans_of_behind hread' hbehind hfits (by simp [hm'rest, hmrest]) hnext

end Scanner

end QueryPlayground.Yaml
