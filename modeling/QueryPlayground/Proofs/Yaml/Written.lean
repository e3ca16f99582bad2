import QueryPlayground.Proofs.Yaml.Scalars

/-!
# Values that were written

What the writer makes of a value is the text of a node that means the value, line by line: the writer
begins a node where the one before it ended. So the whole text is read back to the value, and without the
blanks at its end to what is left of the value.

Main statements: `parseChars_documentChars` and `parseChars_dropBlanksRight`.
-/

namespace QueryPlayground.Yaml

open Json (Integral Normal SortedKeys Value intChars)
open Text (dropBlanksRight)

/-! ## §1 What is written where -/

/-- The column of the collection around a node, `-1` at the top. -/
def level : Option Nat → Int
  | none => -1
  | some n => n

namespace Writer

/-- Only indicators stand in front of a node on its line. -/
structure Ready (w : Writer) (indent : Option Nat) (out : List Char) : Prop where
  fresh : w.fresh = true
  onward : w.onward = out
  moved : w.indentTo (deeper indent) = ⟨out, deeper indent, true, true⟩

/-- In the beginning nothing stands in front of a node. -/
theorem ready_empty : empty.Ready none [] :=
  ⟨rfl, rfl, rfl⟩

/-- The writer behind an indicator. -/
theorem ready_indicator (out : List Char) (n : Nat) (c : Char) :
    ((⟨out, n, true, true⟩ : Writer).indicator [c] true false true).Ready (some n) (' ' :: c :: out) := by
  have hcolumn : (⟨out, n, true, true⟩ : Writer).indicator [c] true false true =
      ⟨c :: out, n + 1, false, true⟩ := rfl
  -- One blank behind the indicator leads to the column of the node.
  rw [hcolumn]
  refine ⟨rfl, rfl, ?_⟩
  simp [indentTo, deeper, padTo, putAll_eq]

end Writer

/-- A value is written on the line of an indicator, and behind the colon of a simple key. -/
structure Written (d : Nat) (v : Value) : Prop where
  apart : ∀ {w : Writer} {indent : Option Nat} (inMapping : Bool) {out : List Char}, w.Ready indent out →
    ∃ text, Denotes (Lays · (level indent) (deeper indent)) (Means d) v (trimmed? v) text ∧
      (writeValue indent inMapping v w).Ends (text.reverse ++ out)
  inline : ∀ {w : Writer} {n : Nat}, w.fresh = false → w.spaced = false →
    ∃ text, Denotes (LaysValue · n true) (Means d) v (trimmed? v) text ∧
      (writeValue (some n) true v w).Ends (text.reverse ++ w.out)

/-- Items are written, the first of them at the column where the writer is. -/
def WrittenItems (d : Nat) (vs : List Value) : Prop :=
  ∀ {w : Writer} {n : Nat} {out : List Char}, w.indentTo n = ⟨out, n, true, true⟩ →
    ∃ text, Denotes (LaysItems · n) (MeansItems d) vs (trimmedItems? vs) text ∧
      (writeItems n vs w).Ends (text.reverse ++ out)

/-- The same for members, each of them with its key. -/
def WrittenMembers (d : Nat) (ms : List (String × Value)) : Prop :=
  ∀ {w : Writer} {n : Nat} {out : List Char}, w.indentTo n = ⟨out, n, true, true⟩ →
    ∃ text, Denotes (LaysMembers · n) (MeansMembers d) ms (trimmedMembers? ms) text ∧
      (writeMembers n ms w).Ends (text.reverse ++ out)

/-! ## §2 Values on one line -/

section

variable {d : Nat} {v : Value}

/-- A scalar is indented by two from what stands around it. -/
theorem scalarIndent_eq (indent : Option Nat) : (scalarIndent indent : Int) = max (level indent) 0 + 2 := by
  cases indent with
  | none => rfl
  | some n => simp [scalarIndent, level]

/-- A value without lines of its own. -/
theorem written_of_flat
    (h : ∀ (w : Writer) (indent : Option Nat) (inMapping : Bool),
      ∃ text, Denotes (Flat · (level indent)) (Means d) v (trimmed? v) text ∧
        (writeValue indent inMapping v w).Ends (text.reverse ++ w.onward)) : Written d v := by
  constructor
  case apart =>
    intro w indent inMapping out hw
    obtain ⟨text, hdenotes, hends⟩ := h w indent inMapping
    refine ⟨text, ?_, hw.onward ▸ hends⟩
    -- On a line of its own the text is what it is.
    have hlays : Denotes (Lays · (level indent) (deeper indent)) (Means d) v ((trimmed? v).map id)
        ([] ++ text) :=
      hdenotes.map [] id id (fun last a t ha => ⟨.flat ha, ha.begins.ne_nil⟩) fun _ _ _ ha => ha
    simpa using hlays
  case inline =>
    intro w n hfresh hspaced
    obtain ⟨text, hdenotes, hends⟩ := h w (some n) true
    refine ⟨[' '] ++ text, ?_, ?_⟩
    -- Behind a colon a blank comes first.
    · have hlays : Denotes (LaysValue · n true) (Means d) v ((trimmed? v).map id) ([' '] ++ text) :=
        hdenotes.map [' '] id id (fun last a t ha => ⟨.inline ha, ha.begins.ne_nil⟩) fun _ _ _ ha => ha
      simpa using hlays
    · simpa [Writer.onward, hspaced] using hends

/-- A word of the writer. -/
theorem written_of_plain (cs : List Char) {c : Char} (hcs : PlainText cs)
    (hx : resolvePlain (String.ofList cs) = .ok v) (hlast : cs.getLast? = some c)
    (hc : Text.isBlank c = false) (hrest : trimmed? v = some v)
    (hwrite : ∀ (w : Writer) (indent : Option Nat) (inMapping : Bool),
      writeValue indent inMapping v w = w.plain cs) : Written d v := by
  refine written_of_flat fun w indent inMapping => ?_
  rw [hrest, hwrite]
  have hleaf (last : Bool) :
      Leaf last (level indent) (String.ofList cs).toList .plain (cs ++ lineEnd last) := by
    rw [String.toList_ofList]
    exact .plain hcs
  exact kept_written .plain hleaf hlast hc hx rfl (w.plain_out hcs.ne_nil)

/-- No digit is a blank. -/
theorem isBlank_of_isDigit {c : Char} (h : c.isDigit = true) : Text.isBlank c = false := by
  have := toNat_of_isDigit h
  simp only [Text.isBlank, Bool.or_eq_false_iff, Bool.and_eq_false_imp, beq_eq_false_iff_ne,
    decide_eq_true_eq, decide_eq_false_iff_not]
  omega

/-- An integer is a word of digits, maybe with a sign. -/
theorem written_int {n : Int} (hn : Json.IsWord n) : Written d (.int n) := by
  have htext := plainText_intChars n
  have hblank : ∀ c ∈ intChars n, Text.isBlank c = false := by
    obtain ⟨e, ds, he, hds, hint⟩ := intChars_cases n
    have hdigits : ∀ c ∈ e :: ds, Text.isBlank c = false :=
      List.forall_mem_cons.mpr ⟨isBlank_of_isDigit he, fun c hc => isBlank_of_isDigit (hds c hc)⟩
    rcases hint with hint | hint
    · exact hint ▸ hdigits
    · exact hint ▸ List.forall_mem_cons.mpr ⟨rfl, hdigits⟩
  exact written_of_plain (intChars n) htext (resolvePlain_intChars hn)
    (List.getLast?_eq_some_getLast htext.ne_nil) (hblank _ (List.getLast_mem _))
    (by rw [trimmed?] <;> simp) fun _ _ _ => rfl

/-- A string is written in the style that fits it. -/
theorem written_str (s : String) : Written d (.str s) :=
  written_of_flat fun w indent _ => string_written w (scalarIndent_eq indent) d s

/-- A pair of brackets or braces. -/
theorem written_of_pair {a b : Char} {node : Node}
    (hform : ∀ last i, Flat last i node (a :: b :: lineEnd last)) (hmeans : Means d node v)
    (hb : Text.isBlank b = false) (hrest : trimmed? v = some v)
    (hwrite : ∀ (w : Writer) (indent : Option Nat) (inMapping : Bool), writeValue indent inMapping v w =
      (w.indicator [a] true true false).indicator [b] false false false) : Written d v := by
  refine written_of_flat fun w indent inMapping => ?_
  rw [hrest, hwrite]
  refine ⟨[a, b] ++ ['\n'], ⟨⟨node, hform false _, hmeans⟩, ?_⟩, ?_⟩
  · rintro _ ⟨⟩
    -- Neither bracket is a blank, so trimming takes away no more than the end of the line.
    refine ⟨node, ?_, hmeans⟩
    rw [Text.dropBlanksRight_append_lineFeed, Text.dropBlanksRight_eq_self]
    · exact hform true _
    · rintro c hc
      obtain rfl : b = c := by simpa using hc
      exact hb
  · have hclose : ((w.indicator [a] true true false).indicator [b] false false false).out =
        b :: (w.indicator [a] true true false).out := rfl
    have hfresh : ((w.indicator [a] true true false).indicator [b] false false false).fresh = false := by
      simp [Writer.indicator]
    have hends := Writer.ends_of_not_fresh hfresh
    rw [hclose, w.indicator_out [a] true false] at hends
    simpa using hends

end

/-! ## §3 Collections -/

variable {d : Nat}

/-- A single item is written behind its dash. -/
theorem writtenItems_last {v : Value} (hv : Written d v) : WrittenItems d [v] := by
  intro w n out hw
  obtain ⟨text, hdenotes, hends⟩ := hv.apart false (Writer.ready_indicator out n '-')
  refine ⟨['-', ' '] ++ text, ?_, ?_⟩
  · exact hdenotes.map ['-', ' '] ([·]) ([·]) (fun last a t ha => ⟨.last ha, ha.begins.ne_nil⟩)
      fun a y _ ha => .cons ha .nil
  · simpa [writeItems, hw] using hends

/-- An item and the others: the first one ends its line, and the others go on at the column. -/
theorem writtenItems_cons {v v' : Value} {vs : List Value} (hv : Written d v)
    (hrest : WrittenItems d (v' :: vs)) : WrittenItems d (v :: v' :: vs) := by
  intro w n out hw
  obtain ⟨text, hdenotes, hends⟩ := hv.apart false (Writer.ready_indicator out n '-')
  obtain ⟨node, hlays, hmeans⟩ := hdenotes.whole
  obtain ⟨text', hdenotes', hends'⟩ := hrest (hends n)
  refine ⟨('-' :: ' ' :: (text ++ List.replicate n ' ')) ++ text', ?_, ?_⟩
  · refine hdenotes'.map _ (node :: ·) (v :: ·) (fun last a t ha => ⟨?_, ha.begins.ne_nil⟩)
      fun a y _ ha => .cons hmeans ha
    simpa using LaysItems.cons hlays ha
  · simpa [writeItems, hw] using hends'

/-- A sequence is its items, or hangs on the next line at the column of its key. -/
theorem written_arr {v : Value} {vs : List Value} (h : WrittenItems d (v :: vs)) :
    Written (d + 1) (.arr (v :: vs)) := by
  have hrest : trimmed? (.arr (v :: vs)) = (trimmedItems? (v :: vs)).map .arr := rfl
  have hmeans (a : List Node) (y : List Value) (_ : y = v :: vs ∨ trimmedItems? (v :: vs) = some y)
      (ha : MeansItems d a y) : Means (d + 1) (.seq a) (.arr y) := .seq ha
  constructor
  case apart =>
    intro w indent inMapping out hw
    obtain ⟨text, hdenotes, hends⟩ := h hw.moved
    refine ⟨[] ++ text, ?_, ?_⟩
    · exact hrest ▸
        hdenotes.map [] Node.seq Value.arr (fun last a t ha => ⟨.seq ha, ha.begins.ne_nil⟩) hmeans
    · simpa [writeValue, hw.fresh] using hends
  case inline =>
    intro w n hfresh hspaced
    obtain ⟨text, hdenotes, hends⟩ := h (Writer.ends_of_not_fresh hfresh n)
    refine ⟨('\n' :: List.replicate n ' ') ++ text, ?_, ?_⟩
    · exact hrest ▸
        hdenotes.map _ Node.seq Value.arr (fun last a t ha => ⟨.hanging ha, ha.begins.ne_nil⟩) hmeans
    · simpa [writeValue, hfresh] using hends

/-- Trimming the last value leaves the keys. -/
theorem map_fst_trimmedMembers? : (ms : List (String × Value)) → ∀ {xs : List (String × Value)},
    trimmedMembers? ms = some xs → xs.map (·.1) = ms.map (·.1)
  | [], _, h => by
    cases h
    rfl
  | [(k, v)], _, h => by
    obtain ⟨x, -, rfl⟩ := Option.map_eq_some_iff.mp h
    rfl
  | m :: m' :: ms, _, h => by
    obtain ⟨xs, hxs, rfl⟩ := Option.map_eq_some_iff.mp h
    have := map_fst_trimmedMembers? (m' :: ms) hxs
    simpa using this

/-- Keys are in order if the list of them is. -/
theorem sortedKeys_iff {ms : List (String × Value)} : SortedKeys ms ↔ (ms.map (·.1)).Pairwise (· < ·) := by
  rw [SortedKeys, List.pairwise_map]

/-- A node and its key mean a member. -/
def MeansMember (d : Nat) (m : Key × Node) (x : String × Value) : Prop :=
  m.1.text = x.1 ∧ Means d m.2 x.2

/-- A member is written at the column where the writer is. -/
theorem member_written {v : Value} (hv : Written d v) (k : String) {w : Writer} {n : Nat} {out : List Char}
    (hw : w.indentTo n = ⟨out, n, true, true⟩) :
    ∃ text w', (∀ rest, writeMembers n ((k, v) :: rest) w = writeMembers n rest w') ∧
      Denotes (LaysMember · n) (MeansMember d) (k, v) ((trimmed? v).map (k, ·)) text ∧
      w'.Ends (text.reverse ++ out) := by
  -- A simple key stands in front of a colon, and any other one behind a question mark.
  by_cases hk : isSimpleKey k = true
  · obtain ⟨key, style, hkey, hlength, hout⟩ := key_written (⟨out, n, true, true⟩ : Writer)
      (n := scalarIndent (some n)) (Nat.succ_pos _) hk
    let w' := ((⟨out, n, true, true⟩ : Writer).string (scalarIndent (some n)) true k).indicator [':']
      false false false
    have hwout : w'.out = ':' :: (key.reverse ++ out) := congrArg (List.cons ':') hout
    obtain ⟨text, hdenotes, hends⟩ := hv.inline (w := w') (n := n) (by simp [w', Writer.indicator]) rfl
    refine ⟨(key ++ [':']) ++ text, _, fun rest => by rw [writeMembers, hw, if_pos hk], ?_, ?_⟩
    · refine hdenotes.map _ (⟨k, style, true⟩, ·) (k, ·) (fun last a t ha => ⟨?_, ?_⟩)
        fun a y _ ha => ⟨rfl, ha⟩
      · have hmember : LaysMember last n (⟨k, style, true⟩, a) (key ++ ':' :: t) := .simple hkey hlength ha
        simpa using hmember
      · cases ha <;> simp
    · simpa [hwout] using hends
  -- The key is a scalar on its own line, and the value begins on the next one.
  · obtain ⟨key, hdenotes, hends⟩ := string_written (i := n) (n := scalarIndent (some n))
      ((⟨out, n, true, true⟩ : Writer).indicator ['?'] true false true) (scalarIndent_eq (some n)) d k
    obtain ⟨style, hkey⟩ : ∃ style, Leaf false n k.toList style key := by
      obtain ⟨node, hflat, hmeans⟩ := hdenotes.whole
      cases hmeans with
      | scalar hx =>
        obtain rfl := content_of_scalarValue hx
        cases hflat with
        | leaf h => exact ⟨_, h⟩
    rw [(Writer.ready_indicator out n '?').onward] at hends
    have hmoved := hends n
    obtain ⟨text, hdenotes, hends⟩ := hv.apart true
      (Writer.ready_indicator (List.replicate n ' ' ++ (key.reverse ++ ' ' :: '?' :: out)) n ':')
    rw [← hmoved] at hends
    refine ⟨('?' :: ' ' :: (key ++ (List.replicate n ' ' ++ [':', ' ']))) ++ text, _,
      fun rest => by rw [writeMembers, hw, if_neg hk], ?_, ?_⟩
    · refine hdenotes.map _ (⟨k, style, false⟩, ·) (k, ·) (fun last a t ha => ⟨?_, ha.begins.ne_nil⟩)
        fun a y _ ha => ⟨rfl, ha⟩
      have hmember : LaysMember last n (⟨k, style, false⟩, a)
          ('?' :: ' ' :: (key ++ (List.replicate n ' ' ++ ':' :: ' ' :: t))) := .explicit hkey rfl ha
      simpa using hmember
    · simpa using hends

/-- A single member is written as a member. -/
theorem writtenMembers_last {v : Value} (hv : Written d v) (k : String) : WrittenMembers d [(k, v)] := by
  intro w n out hw
  obtain ⟨text, w', hwrite, hdenotes, hends⟩ := member_written hv k hw
  refine ⟨[] ++ text, ?_, hwrite [] ▸ hends⟩
  -- What is left of the mapping is what is left of its only value.
  have hrest : trimmedMembers? [(k, v)] = ((trimmed? v).map (k, ·)).map ([·]) := by
    rw [Option.map_map]
    rfl
  refine hrest ▸ hdenotes.map [] ([·]) ([·]) (fun last a t ha => ⟨.last ha, ha.begins.ne_nil⟩) ?_
  rintro ⟨key, node⟩ ⟨k', y⟩ - ⟨rfl, hmeans⟩
  exact .cons hmeans .nil

/-- A member and the others, as it is with items. -/
theorem writtenMembers_cons {k : String} {v : Value} {m : String × Value} {ms : List (String × Value)}
    (hv : Written d v) (hrest : WrittenMembers d (m :: ms)) : WrittenMembers d ((k, v) :: m :: ms) := by
  intro w n out hw
  obtain ⟨text, w', hwrite, hdenotes, hends⟩ := member_written hv k hw
  obtain ⟨⟨key, node⟩, hlays, rfl, hmeans⟩ := hdenotes.whole
  obtain ⟨text', hdenotes', hends'⟩ := hrest (hends n)
  refine ⟨(text ++ List.replicate n ' ') ++ text', ?_, by simpa [hwrite] using hends'⟩
  refine hdenotes'.map _ ((key, node) :: ·) ((key.text, v) :: ·)
    (fun last a t ha => ⟨?_, ha.begins.ne_nil⟩) fun a y _ ha => .cons hmeans ha
  simpa using LaysMembers.cons hlays ha

/-- A mapping is its members, which stay in order when the last of them is trimmed. -/
theorem written_obj {m : String × Value} {ms : List (String × Value)} (hsorted : SortedKeys (m :: ms))
    (h : WrittenMembers d (m :: ms)) : Written (d + 1) (.obj (m :: ms)) := by
  have hrest : trimmed? (.obj (m :: ms)) = (trimmedMembers? (m :: ms)).map .obj := rfl
  have hmeans (a : List (Key × Node)) (y : List (String × Value))
      (hy : y = m :: ms ∨ trimmedMembers? (m :: ms) = some y) (ha : MeansMembers d a y) :
      Means (d + 1) (.map a) (.obj y) := by
    refine .map ha ?_
    rcases hy with rfl | hy
    · exact hsorted
    · rw [sortedKeys_iff, map_fst_trimmedMembers? _ hy, ← sortedKeys_iff]
      exact hsorted
  constructor
  case apart =>
    intro w indent inMapping out hw
    obtain ⟨text, hdenotes, hends⟩ := h hw.moved
    refine ⟨[] ++ text, ?_, by simpa [writeValue] using hends⟩
    exact hrest ▸
      hdenotes.map [] Node.map Value.obj (fun last a t ha => ⟨.map ha, ha.begins.ne_nil⟩) hmeans
  case inline =>
    intro w n hfresh hspaced
    obtain ⟨text, hdenotes, hends⟩ := h (Writer.ends_of_not_fresh hfresh (n + 2))
    refine ⟨('\n' :: List.replicate (n + 2) ' ') ++ text, ?_, by simpa [writeValue, deeper] using hends⟩
    exact hrest ▸ hdenotes.map _ Node.map Value.obj
      (fun last a t ha => ⟨.under (by omega) ha, ha.begins.ne_nil⟩) hmeans

mutual

/-- Every value without reals is written. -/
theorem written : (v : Value) → {d : Nat} → Normal d v → Integral v → Written d v
  | .null, _, _, _ =>
    written_of_plain ['n', 'u', 'l', 'l'] (plainText_of_shape (by decide) (List.cons_ne_nil _ _))
      rfl rfl rfl rfl fun _ _ _ => rfl
  | .bool true, _, _, _ =>
    written_of_plain ['t', 'r', 'u', 'e'] (plainText_of_shape (by decide) (List.cons_ne_nil _ _))
      rfl rfl rfl rfl fun _ _ _ => rfl
  | .bool false, _, _, _ =>
    written_of_plain ['f', 'a', 'l', 's', 'e'] (plainText_of_shape (by decide) (List.cons_ne_nil _ _))
      rfl rfl rfl rfl fun _ _ _ => rfl
  | .int _, _, .int hn, _ => written_int hn
  | .str s, _, _, _ => written_str s
  | .arr [], _, .arr _, _ =>
    written_of_pair (fun _ _ => .emptySeq) (.seq .nil) (by decide) rfl fun _ _ _ => rfl
  | .arr (v :: vs), _, .arr hnormal, .arr hint =>
    written_arr (writtenItems (v :: vs) (List.cons_ne_nil _ _) hnormal hint)
  | .obj [], _, .obj _ _, _ =>
    written_of_pair (fun _ _ => .emptyMap) (.map .nil .nil) (by decide) rfl fun _ _ _ => rfl
  | .obj (m :: ms), _, .obj hsorted hnormal, .obj hint =>
    written_obj hsorted (writtenMembers (m :: ms) (List.cons_ne_nil _ _) hnormal hint)

/-- Items are written by recursion on the list. -/
theorem writtenItems : (vs : List Value) → {d : Nat} → vs ≠ [] → (∀ v ∈ vs, Normal d v) →
    (∀ v ∈ vs, Integral v) → WrittenItems d vs
  | [v], _, _, hnormal, hint =>
    writtenItems_last (written v (hnormal v List.mem_cons_self) (hint v List.mem_cons_self))
  | v :: w :: vs, _, _, hnormal, hint =>
    writtenItems_cons (written v (hnormal v List.mem_cons_self) (hint v List.mem_cons_self))
      (writtenItems (w :: vs) (List.cons_ne_nil _ _) (fun x hx => hnormal x (List.mem_cons_of_mem _ hx))
        fun x hx => hint x (List.mem_cons_of_mem _ hx))

/-- Members are written by recursion on the list. -/
theorem writtenMembers : (ms : List (String × Value)) → {d : Nat} → ms ≠ [] → (∀ m ∈ ms, Normal d m.2) →
    (∀ m ∈ ms, Integral m.2) → WrittenMembers d ms
  | [(k, v)], _, _, hnormal, hint =>
    writtenMembers_last (written v (hnormal (k, v) List.mem_cons_self) (hint (k, v) List.mem_cons_self)) k
  | (k, v) :: m :: ms, _, _, hnormal, hint =>
    writtenMembers_cons (written v (hnormal (k, v) List.mem_cons_self) (hint (k, v) List.mem_cons_self))
      (writtenMembers (m :: ms) (List.cons_ne_nil _ _) (fun x hx => hnormal x (List.mem_cons_of_mem _ hx))
        fun x hx => hint x (List.mem_cons_of_mem _ hx))

end

/-! ## §4 Documents -/

/-- A whole document is the text of a node that means the value. -/
theorem documentChars_written {v : Value} (hnormal : Normal d v) (hint : Integral v) :
    Denotes (Lays · (-1) 0) (Means d) v (trimmed? v) (documentChars v) := by
  obtain ⟨text, hdenotes, hends⟩ := (written v hnormal hint).apart false Writer.ready_empty
  have hdocument : documentChars v = text := by
    rw [documentChars, hends 0]
    simp
  exact hdocument ▸ hdenotes

/-- The end of the last line is blank. -/
theorem dropBlanksRight_renderChars (v : Value) :
    dropBlanksRight (renderChars v) = dropBlanksRight (documentChars v) := by
  -- The writer ends the last line if something stands on it, and not otherwise.
  have hout (w : Writer) : (w.indentTo 0).out = w.out ∨ (w.indentTo 0).out = '\n' :: w.out := by
    unfold Writer.indentTo
    dsimp only
    split
    · exact .inr (by simp [Writer.padTo, Writer.putAll_eq, Writer.newLine])
    · exact .inl (by simp [Writer.padTo, Writer.putAll_eq])
  rw [renderChars, documentChars]
  rcases hout (writeValue none false v .empty) with h | h
  · rw [h]
  · rw [h, List.reverse_cons, Text.dropBlanksRight_append_lineFeed]

/-- A whole document is read back to the value. -/
theorem parseChars_documentChars {v : Value} (hnormal : Normal d v) (hint : Integral v)
    (hd : d ≤ Source.maxDepth) : parseChars (documentChars v) = .ok v := by
  obtain ⟨node, hlays, hmeans⟩ := (documentChars_written hnormal hint).whole
  exact parseChars_of_lays hlays hmeans hd

/-- Without the blanks at its end a document is read to what is left of the value. -/
theorem parseChars_dropBlanksRight {v w : Value} (hnormal : Normal d v) (hint : Integral v)
    (hd : d ≤ Source.maxDepth) (hw : trimmed? v = some w) :
    parseChars (dropBlanksRight (renderChars v)) = .ok w := by
  obtain ⟨node, hlays, hmeans⟩ := (documentChars_written hnormal hint).trimmed w hw
  rw [dropBlanksRight_renderChars]
  exact parseChars_of_lays hlays hmeans hd

/-! ## §5 What is kept -/

mutual

/-- The string with whose text the text of a value ends. -/
def lastString? : Value → Option String
  | .str s => some s
  | .arr vs => lastStringOfItems? vs
  | .obj ms => lastStringOfMembers? ms
  | _ => none

/-- The string at the end of the items. -/
def lastStringOfItems? : List Value → Option String
  | [] => none
  | [v] => lastString? v
  | _ :: w :: vs => lastStringOfItems? (w :: vs)

/-- The string at the end of the members. -/
def lastStringOfMembers? : List (String × Value) → Option String
  | [] => none
  | [(_, v)] => lastString? v
  | _ :: m :: ms => lastStringOfMembers? (m :: ms)

end

/-- The last string, where it is written without quotes, does not end in a blank. -/
def EndsFirmly (v : Value) : Prop :=
  ∀ s ∈ lastString? v, styleOf false s = .plain ∨ styleOf false s = .literal →
    ∀ c ∈ s.toList.getLast?, Text.isBlank c = false

mutual

/-- A value is left as it is where its last string is. -/
theorem trimmed?_eq_self_iff : (v : Value) →
    (trimmed? v = some v ↔ ∀ s ∈ lastString? v, trimmedString? s = some (.str s))
  | .null => by simp [trimmed?, lastString?]
  | .bool _ => by simp [trimmed?, lastString?]
  | .int _ => by simp [trimmed?, lastString?]
  | .real _ => by simp [trimmed?, lastString?]
  | .str s => by simp [trimmed?, lastString?]
  | .arr vs => by simp [trimmed?, lastString?, trimmedItems?_eq_self_iff vs]
  | .obj ms => by simp [trimmed?, lastString?, trimmedMembers?_eq_self_iff ms]

/-- The same for items. -/
theorem trimmedItems?_eq_self_iff : (vs : List Value) →
    (trimmedItems? vs = some vs ↔ ∀ s ∈ lastStringOfItems? vs, trimmedString? s = some (.str s))
  | [] => by simp [trimmedItems?, lastStringOfItems?]
  | [v] => by simp [trimmedItems?, lastStringOfItems?, trimmed?_eq_self_iff v]
  | v :: w :: vs => by simp [trimmedItems?, lastStringOfItems?, trimmedItems?_eq_self_iff (w :: vs)]

/-- The same for members. -/
theorem trimmedMembers?_eq_self_iff : (ms : List (String × Value)) →
    (trimmedMembers? ms = some ms ↔ ∀ s ∈ lastStringOfMembers? ms, trimmedString? s = some (.str s))
  | [] => by simp [trimmedMembers?, lastStringOfMembers?]
  | [(k, v)] => by simp [trimmedMembers?, lastStringOfMembers?, trimmed?_eq_self_iff v]
  | m :: m' :: ms => by simp [trimmedMembers?, lastStringOfMembers?, trimmedMembers?_eq_self_iff (m' :: ms)]

end

/-- A string is left as it is if nothing of it is blank at its end, or if it stands in quotes. -/
theorem trimmedString?_eq_self_iff {s : String} : trimmedString? s = some (.str s) ↔
    (styleOf false s = .plain ∨ styleOf false s = .literal →
      ∀ c ∈ s.toList.getLast?, Text.isBlank c = false) := by
  have htrim : Text.trimRight s = s ↔ ∀ c, s.toList.getLast? = some c → Text.isBlank c = false := by
    rw [← Text.dropBlanksRight_eq_self_iff, Text.trimRight, ← String.toList_inj, String.toList_ofList]
  have hcases := styleOf_cases false s
  cases hstyle : styleOf false s with
  | single => simp [trimmedString?, hstyle]
  | double => simp [trimmedString?, hstyle]
  | literal => simp [trimmedString?, hstyle, htrim]
  -- A plain text that is trimmed is read anew, and what is read has no blank at its end.
  | plain =>
    rw [hstyle] at hcases
    obtain ⟨hambiguous, hplain, hne⟩ := hcases
    simp only [trimmedString?, hstyle, true_or, forall_true_left]
    constructor
    · intro h
      split at h
      · cases hresolve : resolvePlain (String.ofList (dropBlanksRight s.toList)) with
        | error e => simp [hresolve, Except.toOption] at h
        | ok x =>
          obtain rfl : x = .str s := by simpa [hresolve, Except.toOption] using h
          exact htrim.mp (content_of_resolvePlain hresolve)
      · cases h
    -- Nothing is trimmed, so the text is plain as before.
    · intro h
      have hfit : ((Shape.of s.toList).plain && !s.toList.isEmpty) = true := by simpa [hplain] using hne
      rw [Text.dropBlanksRight_eq_self h, String.ofList_toList, resolvePlain_of_not_ambiguous hambiguous,
        if_pos hfit]
      rfl

mutual

/-- Nothing is left of a value whose last string is lost. -/
theorem trimmed?_eq_none_iff : (v : Value) →
    (trimmed? v = none ↔ ∃ s ∈ lastString? v, trimmedString? s = none)
  | .null => by simp [trimmed?, lastString?]
  | .bool _ => by simp [trimmed?, lastString?]
  | .int _ => by simp [trimmed?, lastString?]
  | .real _ => by simp [trimmed?, lastString?]
  | .str s => by simp [trimmed?, lastString?]
  | .arr vs => by simp [trimmed?, lastString?, trimmedItems?_eq_none_iff vs]
  | .obj ms => by simp [trimmed?, lastString?, trimmedMembers?_eq_none_iff ms]

/-- The same for items. -/
theorem trimmedItems?_eq_none_iff : (vs : List Value) →
    (trimmedItems? vs = none ↔ ∃ s ∈ lastStringOfItems? vs, trimmedString? s = none)
  | [] => by simp [trimmedItems?, lastStringOfItems?]
  | [v] => by simp [trimmedItems?, lastStringOfItems?, trimmed?_eq_none_iff v]
  | v :: w :: vs => by simp [trimmedItems?, lastStringOfItems?, trimmedItems?_eq_none_iff (w :: vs)]

/-- The same for members. -/
theorem trimmedMembers?_eq_none_iff : (ms : List (String × Value)) →
    (trimmedMembers? ms = none ↔ ∃ s ∈ lastStringOfMembers? ms, trimmedString? s = none)
  | [] => by simp [trimmedMembers?, lastStringOfMembers?]
  | [(k, v)] => by simp [trimmedMembers?, lastStringOfMembers?, trimmed?_eq_none_iff v]
  | m :: m' :: ms => by
    simp [trimmedMembers?, lastStringOfMembers?, trimmedMembers?_eq_none_iff (m' :: ms)]

end

/-- A plain text that is no plain text any more without the blanks at its end: nothing is left of it, or
what is left is an indicator or ends in one, or is a number out of range. -/
def LosesForm (s : String) : Prop :=
  styleOf false s = .plain ∧
    (dropBlanksRight s.toList = [] ∨ (Shape.of (dropBlanksRight s.toList)).plain = false ∨
      ∃ e, resolvePlain (String.ofList (dropBlanksRight s.toList)) = .error e)

/-- A string is lost if it is plain and what is left of it is not. -/
theorem trimmedString?_eq_none_iff {s : String} : trimmedString? s = none ↔ LosesForm s := by
  unfold trimmedString? LosesForm
  cases hstyle : styleOf false s with
  | single => simp
  | double => simp
  | literal => simp
  | plain =>
    cases hplain : (Shape.of (dropBlanksRight s.toList)).plain with
    | false => simp [hplain]
    | true =>
      by_cases hnil : dropBlanksRight s.toList = []
      · simp [hnil]
      · cases hresolve : resolvePlain (String.ofList (dropBlanksRight s.toList)) <;>
          simp [hplain, hnil, hresolve, Except.toOption]

/-- A value is kept where nothing of its last string is blank at the end. -/
theorem trimmed?_eq_self_iff_endsFirmly {v : Value} : trimmed? v = some v ↔ EndsFirmly v := by
  simp only [trimmed?_eq_self_iff, EndsFirmly, trimmedString?_eq_self_iff]

end QueryPlayground.Yaml
