import Mathlib
import QueryPlayground.Evaluation
import QueryPlayground.Proofs.Json.Token
import QueryPlayground.Proofs.Path.Grammar

/-!
# Every part of a document has a query

A location goes from a document to a part of it, through members of objects and items of arrays. Its
query names each key in quotes, or behind a point where the key is a name, and each item by its
position from the front or from the end. Whatever the keys and however deep the part, that query is
accepted and answers with the part. A position behind either end of an array answers with `null`, and
no position makes the arithmetic on it leave the machine words.

Main statement: `finds_of_locates`.
-/

namespace QueryPlayground.Path

open QueryPlayground.Json
open QueryPlayground.Text

/-! ## §1 Locations -/

/-- A key between quotes: a backslash stands before each quote and each backslash, and nowhere else. -/
def quotedKey (key : String) : List Char :=
  key.toList.flatMap fun c => if c = '"' ∨ c = '\\' then ['\\', c] else [c]

/-- A position in brackets. -/
def bracketedIndex (i : Int) : List Char :=
  '[' :: (intChars i ++ [']'])

/-- One step from a value to a part of it, and the text of the step. -/
inductive Enters : Value → List Char → Value → Prop where
  | key {members : List (String × Value)} {key : String} {w : Value} :
      Members.get? key members = some w →
      Enters (.obj members) (['[', '"'] ++ quotedKey key ++ ['"', ']']) w
  | name {members : List (String × Value)} {key : String} {w : Value} :
      IsName key.toList → Members.get? key members = some w →
      Enters (.obj members) ('.' :: key.toList) w
  | item {items : List Value} {i : Nat} {w : Value} :
      items[i]? = some w → Enters (.arr items) (bracketedIndex i) w
  | itemFromEnd {items : List Value} {i : Nat} {w : Value} :
      items[i]? = some w → Enters (.arr items) (bracketedIndex (i - items.length)) w

/-- A way from a value to a part of it, and the query of the way. -/
inductive Locates : Value → List Char → Value → Prop where
  | here (v : Value) : Locates v [] v
  | inside {v w u : Value} {cs rest : List Char} :
      Enters v cs w → Locates w rest u → Locates v (cs ++ rest) u

/-- Values whose arrays have no more items than a machine counts, which all values in memory are. -/
inductive Countable : Value → Prop where
  | null : Countable .null
  | bool {b : Bool} : Countable (.bool b)
  | int {n : Int} : Countable (.int n)
  | real {x : Decimal.Double} : Countable (.real x)
  | str {s : String} : Countable (.str s)
  | arr {items : List Value} :
      (items.length : Int) ≤ MachineWord.maxSigned → (∀ v ∈ items, Countable v) →
      Countable (.arr items)
  | obj {members : List (String × Value)} :
      (∀ m ∈ members, Countable m.2) → Countable (.obj members)

/-! ## §2 Texts of steps -/

theorem quotes_quotedKey (key : String) : Quotes (quotedKey key) key.toList := by
  unfold quotedKey
  induction key.toList with
  | nil => exact .nil
  | cons c cs ih =>
    rw [List.flatMap_cons]
    split
    next => exact .escaped c ih
    next hplain =>
      obtain ⟨hquote, hslash⟩ := not_or.mp hplain
      exact .plain hquote hslash ih

theorem decimal_digitChars (n : Nat) : decimal (Decimal.digitChars n) = n := by
  have hstep : (fun (n : Nat) (c : Char) => n * 10 + (c.toNat - 48)) =
      fun n c => 10 * n + (c.toNat - '0'.toNat) := by
    funext n c
    rw [Nat.mul_comm]
    rfl
  have hvalue : digitsValue (Decimal.digitChars n) = Nat.ofDigitChars 10 (Decimal.digitChars n) 0 := by
    rw [digitsValue, hstep]
    rfl
  rw [← digitsValue_eq_decimal, hvalue]
  exact Nat.ofDigitChars_toDigits (by decide) (by decide)

theorem isDigits_digitChars (n : Nat) : IsDigits (Decimal.digitChars n) :=
  ⟨Nat.toDigits_ne_nil, fun _ => isDigit_of_mem_digitChars⟩

theorem numeral_intChars {i : Int} (hleast : MachineWord.minSigned ≤ i)
    (hgreatest : i ≤ MachineWord.maxSigned) : Numeral (intChars i) i := by
  cases i with
  | ofNat n =>
    have hnumeral := Numeral.unsigned (isDigits_digitChars n)
    rw [decimal_digitChars] at hnumeral
    exact hnumeral hgreatest
  | negSucc n =>
    have hnumeral := Numeral.negative (isDigits_digitChars (n + 1))
    rw [decimal_digitChars] at hnumeral
    exact hnumeral hleast

theorem bracketed_bracketedIndex {i : Int} (hleast : MachineWord.minSigned ≤ i)
    (hgreatest : i ≤ MachineWord.maxSigned) : Bracketed (bracketedIndex i) (.index i) :=
  .position (numeral_intChars hleast hgreatest)

/-! ## §3 Positions -/

/-- All numbers that are met on the way from a position to an item are signed machine words. -/
structure FitsWords (items : List Value) (position : Int) : Prop where
  length_le : (items.length : Int) ≤ MachineWord.maxSigned
  le_sum : position < 0 → MachineWord.minSigned ≤ items.length + position
  sum_le : position < 0 → items.length + position ≤ MachineWord.maxSigned

variable {items : List Value} {i : Int} {k : Nat} {v w u : Value}

theorem fitsWords (hitems : (items.length : Int) ≤ MachineWord.maxSigned)
    (hleast : MachineWord.minSigned ≤ i) : FitsWords items i := by
  refine ⟨hitems, ?_, ?_⟩
  · intro _
    omega
  · intro _
    omega

theorem itemAt?_ofNat (items : List Value) (k : Nat) : itemAt? items k = items[k]? := by
  have hk : ¬ (k : Int) < 0 := Int.not_lt.mpr (Int.natCast_nonneg k)
  simp [itemAt?, hk]

theorem itemAt?_sub_length (h : k < items.length) :
    itemAt? items (k - items.length) = items[k]? := by
  have hneg : (k : Int) - items.length < 0 := by omega
  have hsum : (items.length : Int) + (k - items.length) = k := by omega
  have hk : ¬ (k : Int) < 0 := Int.not_lt.mpr (Int.natCast_nonneg k)
  simp only [itemAt?, hneg, if_true, hsum, hk, if_false, Int.toNat_natCast]

theorem itemAt?_of_outside (h : ¬ (-(items.length : Int) ≤ i ∧ i < items.length)) :
    itemAt? items i = none := by
  unfold itemAt?
  dsimp only
  split
  next =>
    -- Counted from the end, the position lies before the first item.
    rw [if_pos (by omega)]
  next =>
    apply List.getElem?_eq_none
    omega

/-! ## §4 Ways -/

/-- A part of a value whose arrays a machine can count is such a value. -/
theorem Countable.entered {cs : List Char} (hv : Countable v) (h : Enters v cs w) : Countable w := by
  have hmember {members : List (String × Value)} {key : String}
      (hmembers : ∀ m ∈ members, Countable m.2) (hget : Members.get? key members = some w) :
      Countable w := by
    induction members with
    | nil => cases hget
    | cons m members ih =>
      rw [Members.get?.eq_def] at hget
      dsimp only at hget
      split at hget
      next =>
        obtain rfl := Option.some.inj hget
        exact hmembers m List.mem_cons_self
      next => exact ih (fun m hm => hmembers m (List.mem_cons_of_mem _ hm)) hget
  cases h with
  | key hget =>
    cases hv with
    | obj hmembers => exact hmember hmembers hget
  | name _ hget =>
    cases hv with
    | obj hmembers => exact hmember hmembers hget
  | item hitem =>
    cases hv with
    | arr _ hitems => exact hitems w (List.mem_of_getElem? hitem)
  | itemFromEnd hitem =>
    cases hv with
    | arr _ hitems => exact hitems w (List.mem_of_getElem? hitem)

/-- The text of a step is a segment that goes on with a path, and the segment selects the part. -/
theorem Enters.segment {cs : List Char} (h : Enters v cs w) (hv : Countable v) :
    ∃ s, (∀ rest path, Continues rest path → Continues (cs ++ rest) (s :: path)) ∧
      ∀ path, select v (s :: path) = select w path := by
  cases h with
  | @key members key _ hget =>
    refine ⟨.field key, fun rest path hrest => ?_, fun path => ?_⟩
    · have hbracketed := Bracketed.quoted (quotes_quotedKey key)
      rw [String.ofList_toList] at hbracketed
      exact .bracketed hbracketed hrest
    · simp [select, step, hget]
  | @name members key _ hname hget =>
    refine ⟨.field key, fun rest path hrest => ?_, fun path => ?_⟩
    · have hpiece := Piece.name hname
      rw [String.ofList_toList] at hpiece
      exact .pointed hpiece hrest
    · simp [select, step, hget]
  | @item items k _ hitem =>
    cases hv with
    | arr hlength _ =>
      obtain ⟨hk, -⟩ := List.getElem?_eq_some_iff.mp hitem
      refine ⟨.index k, fun rest path hrest => ?_, fun path => ?_⟩
      · refine .bracketed (bracketed_bracketedIndex ?_ ?_) hrest
        · exact Int.le_trans (by decide) (Int.natCast_nonneg k)
        · omega
      · simp [select, step, itemAt?_ofNat, hitem]
  | @itemFromEnd items k _ hitem =>
    cases hv with
    | arr hlength _ =>
      obtain ⟨hk, -⟩ := List.getElem?_eq_some_iff.mp hitem
      have hleast : MachineWord.minSigned ≤ k - items.length := by
        simp only [MachineWord.minSigned, MachineWord.maxSigned] at hlength ⊢
        omega
      refine ⟨.index (k - items.length), fun rest path hrest => ?_, fun path => ?_⟩
      · refine .bracketed (bracketed_bracketedIndex hleast ?_) hrest
        exact Int.le_trans (by omega : (k : Int) - items.length ≤ 0) (by decide)
      · simp [select, step, itemAt?_sub_length hk, hitem]

/-- The query of a way, with the text of further segments behind it. -/
theorem Locates.path {cs : List Char} (h : Locates v cs w) (hv : Countable v) :
    ∃ front, (∀ rest path, Continues rest path → Continues (cs ++ rest) (front ++ path)) ∧
      (∀ path, select v (front ++ path) = select w path) ∧ Countable w := by
  induction h with
  | here v => exact ⟨[], fun _ _ hrest => hrest, fun _ => rfl, hv⟩
  | @inside v w u cs more henter _ ih =>
    -- The text of the step stands in front of what the rest of the way is written as.
    obtain ⟨s, htext, hselect⟩ := henter.segment hv
    obtain ⟨front, hmore, hselects, hu⟩ := ih (hv.entered henter)
    refine ⟨s :: front, fun rest path hrest => ?_, fun path => ?_, hu⟩
    · rw [List.append_assoc, List.cons_append]
      exact htext _ _ (hmore rest path hrest)
    · rw [List.cons_append, hselect]
      exact hselects path

/-! ## §5 Queries -/

theorem Continues.writes {cs : List Char} {path : List Segment} (h : Continues cs path) :
    Writes cs path := by
  cases h with
  | nil => exact .blank
  | pointed hpiece hrest => exact .pointed hpiece hrest
  | bracketed hbracketed hrest => exact .path (.bracketed hbracketed) hrest

theorem isNameChar_of_isBlank {c : Char} (h : isBlank c = true) : isNameChar c = false := by
  -- The blanks are few enough to be looked at one by one.
  have hpoint : ∀ n ∈ [9, 10, 11, 12, 13, 32, 0x85, 0xA0, 0x1680, 0x2000, 0x2001, 0x2002, 0x2003,
      0x2004, 0x2005, 0x2006, 0x2007, 0x2008, 0x2009, 0x200A, 0x2028, 0x2029, 0x202F, 0x205F,
      0x3000], isNameChar (Char.ofNat n) = false := by
    decide +kernel
  rw [← Char.ofNat_toNat c]
  apply hpoint
  simp only [isBlank, Bool.or_eq_true, Bool.and_eq_true, decide_eq_true_eq, beq_iff_eq] at h
  simp only [List.mem_cons, List.not_mem_nil, or_false]
  omega

theorem not_isBlank_of_isNameChar {c : Char} (h : isNameChar c = true) : isBlank c = false := by
  cases hblank : isBlank c with
  | false => rfl
  | true =>
    rw [isNameChar_of_isBlank hblank] at h
    cases h

/-- Segments end with a bracket or with a character of a name. -/
theorem Piece.last {cs : List Char} {s : Segment} (h : Piece cs s) :
    ∃ front c, cs = front ++ [c] ∧ isBlank c = false := by
  cases h with
  | name hname =>
    obtain ⟨c, tail, rfl, -⟩ := id hname
    obtain ⟨hstart, htail⟩ := isName_iff.mp hname
    rcases tail.eq_nil_or_concat with rfl | ⟨front, d, rfl⟩
    · exact ⟨[], c, rfl, not_isBlank_of_isNameChar (isNameChar_of_isNameStart hstart)⟩
    · exact ⟨c :: front, d, by simp, not_isBlank_of_isNameChar (htail d (by simp))⟩
  | bracketed hbracketed =>
    cases hbracketed with
    | @quoted body name _ => exact ⟨['[', '"'] ++ body ++ ['"'], ']', by simp, by decide⟩
    | @position body i _ => exact ⟨['['] ++ body, ']', rfl, by decide⟩

/-- So a path, which ends with its last segment, has no blank at its end. -/
theorem Continues.last {cs : List Char} {path : List Segment} (h : Continues cs path) :
    cs = [] ∨ ∃ front c, cs = front ++ [c] ∧ isBlank c = false := by
  have happend {body rest : List Char} (hbody : ∃ front c, body = front ++ [c] ∧ isBlank c = false)
      (hrest : rest = [] ∨ ∃ front c, rest = front ++ [c] ∧ isBlank c = false) :
      ∃ front c, body ++ rest = front ++ [c] ∧ isBlank c = false := by
    rcases hrest with rfl | ⟨front, c, rfl, hc⟩
    · simpa using hbody
    · exact ⟨body ++ front, c, by simp, hc⟩
  induction h with
  | nil => exact .inl rfl
  | @pointed cs rest s path hpiece _ ih =>
    obtain ⟨front, c, htext, hc⟩ := happend hpiece.last ih
    exact .inr ⟨'.' :: front, c, by simp [htext], hc⟩
  | bracketed hbracketed _ ih => exact .inr (happend (Piece.bracketed hbracketed).last ih)

theorem Continues.trims {cs : List Char} {path : List Segment} (h : Continues cs path) :
    Trims cs cs := by
  refine ⟨⟨[], [], by simp, by simp, by simp⟩, fun c hc => ?_, fun c hc => ?_⟩
  · -- A path begins with a point or a bracket.
    cases h with
    | nil => cases hc
    | pointed _ _ =>
      obtain rfl := Option.some.inj hc
      decide
    | bracketed hbracketed _ =>
      obtain ⟨body, rfl⟩ := bracketed_head hbracketed
      obtain rfl := Option.some.inj hc
      decide
  · rcases h.last with rfl | ⟨front, d, rfl, hd⟩
    · cases hc
    · obtain rfl : d = c := by simpa using hc
      exact hd

theorem Continues.parse {cs : List Char} {path : List Segment} (h : Continues cs path) :
    parse (String.ofList cs) = .ok path := by
  have htrim : trimBlanks cs = cs := trimBlanks_of_trims h.trims
  simp only [Path.parse, String.toList_ofList, htrim, parseTrimmed_eq_ok_iff.mpr h.writes,
    Except.mapError]

/-- A query is accepted and answers with the rendering of a value, as documents of all kinds and with
any indentation. -/
structure Finds (d : Document) (query : String) (w : Value) : Prop where
  accepted : ∃ path, parse query = .ok path
  evaluate_eq : ∀ kind indent, EvalRequest.evaluate ⟨query, d, kind, indent⟩ = render w kind indent

theorem finds_of_select {d : Document} {query : String} {path : List Segment} {selected : Option Value}
    (hvalue : d.value = .ok v) (hparse : parse query = .ok path)
    (hselect : select v path = .ok selected) : Finds d query (selected.getD .null) := by
  refine ⟨⟨path, hparse⟩, fun kind indent => ?_⟩
  simp [EvalRequest.evaluate, parseQuery, hparse, hvalue, selectValue, hselect, bind, Except.bind,
    Except.map, Except.mapError]

/-- Whatever a document has at whatever depth, the query of the way there finds it. A position in an
array that is there is computed with in machine words, and finds `null` where the array has no item. -/
theorem finds_of_locates {d : Document} (hvalue : d.value = .ok v) (hv : Countable v) :
    (∀ query w, Locates v query w → Finds d (String.ofList query) w) ∧
      ∀ query items, Locates v query (.arr items) →
        ∀ i, MachineWord.minSigned ≤ i → i ≤ MachineWord.maxSigned →
          FitsWords items i ∧
            (¬ (-(items.length : Int) ≤ i ∧ i < items.length) →
              Finds d (String.ofList (query ++ bracketedIndex i)) .null) := by
  constructor
  · intro query w h
    -- Nothing stands behind the query of the whole way.
    obtain ⟨front, htext, hselect, -⟩ := h.path hv
    have hparse := (htext [] [] .nil).parse
    have hselected := hselect []
    simp only [List.append_nil] at hparse hselected
    exact finds_of_select hvalue hparse hselected
  · intro query items h i hleast hgreatest
    obtain ⟨front, htext, hselect, hitems⟩ := h.path hv
    cases hitems with
    | arr hlength _ =>
      refine ⟨fitsWords hlength hleast, fun houtside => ?_⟩
      have hcontinues := Continues.bracketed (bracketed_bracketedIndex hleast hgreatest) .nil
      rw [List.append_nil] at hcontinues
      have hselected : select v (front ++ [.index i]) = .ok none := by
        rw [hselect]
        simp [select, step, itemAt?_of_outside houtside]
      exact finds_of_select hvalue (htext _ _ hcontinues).parse hselected

/-- A key with a quote, a backslash, a line end and brackets, an empty key, a name and positions from
both ends, and the least position of all. -/
theorem finds_of_locates_odd_keys :
    let text := "\x7b\"\\\"\\\\\\n. ][\":[7,[\x7b\"\":\x7b\"é_1\":[\"x\"]\x7d\x7d]]\x7d"
    let query := "[\"\\\"\\\\\n. ][\"][-1][0][\"\"].é_1"
    ∃ v, Document.value ⟨text, .json⟩ = .ok v ∧ Countable v ∧
      Locates v query.toList (.arr [.str "x"]) ∧
      Finds ⟨text, .json⟩ query (.arr [.str "x"]) ∧
      Finds ⟨text, .json⟩ (query ++ "[-9223372036854775808]") .null := by
  intro text query
  let inner : Value := .arr [.str "x"]
  let w : Value := .obj [("\"\\\n. ][", .arr [.int 7, .arr [.obj [("", .obj [("é_1", inner)])]]])]
  have hvalue : Document.value ⟨text, .json⟩ = .ok w := by cbv
  obtain ⟨cs, hlocates, hcs⟩ : ∃ cs, Locates w cs inner ∧ cs = query.toList := by
    have hname : IsName "é_1".toList :=
      ⟨'é', ['_', '1'], by decide, by decide,
        List.forall_mem_cons.mpr ⟨by decide, List.forall_mem_singleton.mpr (by decide)⟩⟩
    exact ⟨_, .inside (@Enters.key _ "\"\\\n. ][" _ rfl) (.inside (@Enters.itemFromEnd _ 1 _ rfl)
      (.inside (@Enters.item _ 0 _ rfl) (.inside (@Enters.key _ "" _ rfl)
        (.inside (@Enters.name _ "é_1" _ hname rfl) (.here _))))), by decide⟩
  subst hcs
  have hone {u : Value} (hu : Countable u) : Countable (.arr [u]) :=
    .arr (show ((1 : Nat) : Int) ≤ MachineWord.maxSigned by decide) (by simpa)
  have hmember {k : String} {u : Value} (hu : Countable u) : Countable (.obj [(k, u)]) :=
    .obj (by simpa)
  have hcount : Countable w := by
    refine hmember (.arr (by decide) ?_)
    simpa using ⟨Countable.int, hone (hmember (hmember (hone .str)))⟩
  obtain ⟨hfinds, hindex⟩ := finds_of_locates hvalue hcount
  refine ⟨w, hvalue, hcount, hlocates, ?_, ?_⟩
  · have h := hfinds _ _ hlocates
    rwa [String.ofList_toList] at h
  · have h := (hindex _ _ hlocates MachineWord.minSigned (by decide) (by decide)).2 (by decide)
    rwa [show String.ofList (query.toList ++ bracketedIndex MachineWord.minSigned) =
      query ++ "[-9223372036854775808]" by decide] at h

end QueryPlayground.Path
