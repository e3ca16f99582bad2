import QueryPlayground.Json.Codec
import QueryPlayground.Proofs.Json.Spelling

/-!
# The texts of records

A record is spelled by an object with its fields in any order, space wherever it is allowed, and
members that nobody asked for in between. The reader of a schema takes each such text to the record
in normal form, where the fields stand in declared order and those that are left out have the value
of an absent one.

Main statements: `SpellsAs.parse` and `Codec.parse_of_spellsAs`.
-/

namespace QueryPlayground.Json

open QueryPlayground.Decimal

/-- The fields of a record as a schema declares them. -/
abbrev Fields := List (String × Schema × Option Value)

/-! ## §1 The grammar -/

/-- A text that is passed over, with the space in front of it, up to what ends a number. -/
def IsPassed (cs : List Char) : Prop :=
  ∀ rest, EndsNumber rest → skipValue (cs ++ rest) = .ok rest

mutual

/-- A text without space at its ends that spells a value of a schema, which is in normal form, with
at most so many levels of records. -/
inductive SpellsAs : Schema → Nat → Value → List Char → Prop where
  | text {expected : String} {d : Nat} {s : String} :
      SpellsAs (.text expected) d (.str s) (quote s)
  | integer {least greatest : Int} {expected : String} {d : Nat} {n : Int} :
      IsWord n → least ≤ n → n ≤ greatest →
      SpellsAs (.integer least greatest expected) d (.int n) (intChars n)
  | choice {spellings : List (String × String)} {d : Nat} {s name : String} :
      spellings.lookup s = some name → SpellsAs (.choice spellings) d (.str name) (quote s)
  | null {item : Schema} {d : Nat} : SpellsAs (.optional item) d .null ['n', 'u', 'l', 'l']
  | present {expected : String} {d : Nat} {s : String} :
      SpellsAs (.optional (.text expected)) d (.str s) (quote s)
  | yes {d : Nat} : SpellsAs .flag d (.bool true) ['t', 'r', 'u', 'e']
  | no {d : Nat} : SpellsAs .flag d (.bool false) ['f', 'a', 'l', 's', 'e']
  | emptyList {item : Schema} {d : Nat} {a : List Char} :
      IsGap a → SpellsAs (.list item) (d + 1) (.arr []) ('[' :: (a ++ [']']))
  | list {item : Schema} {d : Nat} {vs : List Value} {cs : List Char} :
      SpellsList item d vs cs → SpellsAs (.list item) (d + 1) (.arr vs) ('[' :: (cs ++ [']']))
  | record {owner : String} {fields : Fields} {d : Nat} {found members : List (String × Value)}
      {cs : List Char} :
      SpellsFields fields d [] found cs → finishRecord fields found = .ok members →
      SpellsAs (.record owner fields) (d + 1) (.obj members) ('{' :: (cs ++ ['}']))

/-- The items of a list between its brackets, of which there is at least one. -/
inductive SpellsList : Schema → Nat → List Value → List Char → Prop where
  | last {item : Schema} {d : Nat} {v : Value} {a cs b : List Char} :
      IsGap a → SpellsAs item d v cs → IsGap b → SpellsList item d [v] (a ++ (cs ++ b))
  | cons {item : Schema} {d : Nat} {v : Value} {vs : List Value} {a cs b more : List Char} :
      IsGap a → SpellsAs item d v cs → IsGap b → SpellsList item d vs more →
      SpellsList item d (v :: vs) (a ++ (cs ++ (b ++ ',' :: more)))

/-- A member of a record, beside the fields that were found before and behind it. -/
inductive SpellsField : Fields → Nat → List (String × Value) → List (String × Value) →
    List Char → Prop where
  | known {fields : Fields} {d : Nat} {found : List (String × Value)} {k : String}
      {schema : Schema} {absent : Option Value} {w : Value} {a b cs : List Char} :
      IsGap a → IsGap b → fields.lookup k = some (schema, absent) → found.lookup k = none →
      SpellsAs schema d w cs →
      SpellsField fields d found ((k, w) :: found) (quote k ++ (a ++ ':' :: (b ++ cs)))
  | unknown {fields : Fields} {d : Nat} {found : List (String × Value)} {k : String}
      {a cs : List Char} :
      IsGap a → fields.lookup k = none → IsPassed cs →
      SpellsField fields d found found (quote k ++ (a ++ ':' :: cs))

/-- The members of a record between its braces, of which there is at least one. -/
inductive SpellsFields : Fields → Nat → List (String × Value) → List (String × Value) →
    List Char → Prop where
  | last {fields : Fields} {d : Nat} {found found' : List (String × Value)} {a b cs : List Char} :
      IsGap a → SpellsField fields d found found' cs → IsGap b →
      SpellsFields fields d found found' (a ++ (cs ++ b))
  | cons {fields : Fields} {d : Nat} {found found' found'' : List (String × Value)}
      {a b cs more : List Char} :
      IsGap a → SpellsField fields d found found' cs → IsGap b →
      SpellsFields fields d found' found'' more →
      SpellsFields fields d found found'' (a ++ (cs ++ (b ++ ',' :: more)))

end

/-! ## §2 Scalars -/

/-- A spelled value begins with a character of its own, which closes nothing. -/
theorem SpellsAs.head {schema : Schema} {d : Nat} {w : Value} {cs : List Char}
    (h : SpellsAs schema d w cs) : ∃ c rest, cs = c :: rest ∧ isSpace c = false ∧ c ≠ ']' := by
  cases h with
  | integer hn => exact (Spells.int (d := 0) hn).head
  | text | choice | null | present | yes | no | emptyList | list | record =>
    exact ⟨_, _, rfl, by decide, by decide⟩

theorem SpellsAs.isSharp {schema : Schema} {d : Nat} {w : Value} {cs : List Char}
    (h : SpellsAs schema d w cs) : IsSharp cs := by
  obtain ⟨c, rest, hcs, hc, -⟩ := h.head
  exact ⟨c, rest, hcs, hc⟩

theorem SpellsAs.length_pos {schema : Schema} {d : Nat} {w : Value} {cs : List Char}
    (h : SpellsAs schema d w cs) : 0 < cs.length := by
  obtain ⟨c, rest, rfl, -⟩ := h.head
  exact Nat.succ_pos _

theorem SpellsField.length_pos {fields : Fields} {d : Nat} {found found' : List (String × Value)}
    {cs : List Char} (h : SpellsField fields d found found' cs) : 0 < cs.length := by
  cases h <;> simp [quote]

theorem skipSpace_null (rest : List Char) :
    skipSpace (['n', 'u', 'l', 'l'] ++ rest) = 'n' :: 'u' :: 'l' :: 'l' :: rest :=
  skipSpace_of_isSharp (isSharp_cons (by decide) _)

theorem readText_quote (expected s : String) (rest : List Char) :
    readText expected (quote s ++ rest) = .ok (s, rest) := by
  rw [readText, skipSpace_of_isSharp ((isSharp_quote s).append rest), quote_append]
  exact string_quote s rest

theorem readInteger_intChars {least greatest n : Int} (hn : IsWord n) (hleast : least ≤ n)
    (hgreatest : n ≤ greatest) (expected : String) {rest : List Char} (hrest : EndsNumber rest) :
    readInteger least greatest expected (intChars n ++ rest) = .ok (.int n, rest) := by
  have hrange : inRange least greatest expected (.int n) rest = .ok (.int n, rest) := by
    simp [inRange, hleast, hgreatest]
  rcases number_intChars hn hrest with ⟨c, ds, hds, hc, hread⟩ | ⟨ds, hds, hread⟩
  · have hminus : c ≠ '-' := by
      rintro rfl
      exact absurd hc (by decide)
    rw [hds, List.cons_append, readInteger,
      skipSpace_of_isSharp (isSharp_cons (not_isSpace_of_isDigit hc) _)]
    split <;> simp_all [bind, Except.bind]
  · rw [hds, List.cons_append, readInteger, skipSpace_of_isSharp (isSharp_cons (by decide) _)]
    simp [hread, hrange, bind, Except.bind]

theorem readChoice_quote {spellings : List (String × String)} {s name : String}
    (h : spellings.lookup s = some name) (depth : Nat) (rest : List Char) :
    readChoice depth spellings (quote s ++ rest) = .ok (.str name, rest) := by
  have hread := readText_quote "variant identifier" s rest
  rw [quote_append] at hread ⊢
  rw [readChoice, skipSpace_of_isSharp (isSharp_cons (by decide) _)]
  simp [readName, hread, h, bind, Except.bind, pure, Except.pure]

/-! ## §3 Passing over a number -/

theorem skipAfterDigits_of_endsNumber {rest : List Char} (h : EndsNumber rest) :
    skipAfterDigits rest = .ok rest := by
  cases rest with
  | nil => simp [skipAfterDigits, skipExponentIfAny, startsWithExponent]
  | cons c rest =>
    obtain ⟨-, hpoint, -, -⟩ := h c rfl
    rw [skipAfterDigits]
    · simp [skipExponentIfAny, h.startsWithExponent]
    · rintro tail ⟨rfl, -⟩
      exact hpoint rfl

theorem dropWhile_isDigit_append {ds rest : List Char} (hds : ∀ d ∈ ds, d.isDigit = true)
    (hrest : startsWithDigit rest = false) : (ds ++ rest).dropWhile Char.isDigit = rest := by
  rw [List.dropWhile_append_of_pos hds]
  cases rest with
  | nil => rfl
  | cons c rest =>
    have hc : c.isDigit = false := hrest
    simp [hc]

theorem skipNumber_digitChars (n : Nat) {rest : List Char} (h : EndsNumber rest) :
    skipNumber (digitChars n ++ rest) = .ok rest := by
  by_cases hn : n = 0
  · subst hn
    show skipNumber ('0' :: rest) = _
    simp [skipNumber, h.startsWithDigit, skipAfterDigits_of_endsNumber h]
  · obtain ⟨d, ds, hds, hd⟩ := exists_digitChars n
    have hzero : d ≠ '0' := by
      rintro rfl
      exact head?_digitChars hn (by rw [hds]; rfl)
    have hdrop := dropWhile_isDigit_append (fun _ => isDigit_of_mem_digitChars (n := n))
      h.startsWithDigit
    rw [hds, List.cons_append] at hdrop ⊢
    simp [skipNumber, hzero, hd, hdrop, skipAfterDigits_of_endsNumber h]

theorem skipScalar_of_isDigit {c : Char} {cs after rest : List Char}
    (hspace : skipSpace cs = c :: after) (hdigit : c.isDigit = true)
    (h : skipNumber (c :: after) = .ok rest) : skipScalar cs = .ok (none, rest) := by
  have hne {e : Char} (he : e.isDigit = false) : c ≠ e := by
    rintro rfl
    exact Bool.noConfusion (hdigit.symm.trans he)
  rw [skipScalar, hspace]
  split
  case h_9 => simp_all [Except.map]
  all_goals
    rename_i heq
    first
    | exact absurd heq (List.cons_ne_nil _ _)
    | exact absurd (List.cons.inj heq).1 (hne (by decide))

/-- A natural number is passed over whatever its size. -/
theorem isPassed_digitChars (n : Nat) : IsPassed (digitChars n) := by
  intro rest hrest
  obtain ⟨d, ds, hds, hd⟩ := exists_digitChars n
  have hskip := skipNumber_digitChars n hrest
  have hscalar : skipScalar (digitChars n ++ rest) = .ok (none, rest) := by
    rw [hds, List.cons_append] at hskip ⊢
    exact skipScalar_of_isDigit
      (skipSpace_of_isSharp (isSharp_cons (not_isSpace_of_isDigit hd) _)) hd hskip
  rw [skipValue, skipValueFrom, hscalar]
  simp [skipClosers]

/-! ## §4 Reading -/

namespace Schema

theorem readMembers_of_closed {fields : Fields} {found members : List (String × Value)}
    (hfinish : finishRecord fields found = .ok members) (fuel depth : Nat) (first : Bool)
    {a : List Char} (ha : IsGap a) (rest : List Char) :
    Schema.readMembers (fuel + 1) depth fields first found (a ++ '}' :: rest) =
      .ok (.obj members, rest) := by
  rw [Schema.readMembers, nextKey_of_closed ha]
  simp only [hfinish, afterClose_append ha (by decide : isSpace '}' = false)]

/-- Space in front of a value does not count. -/
theorem readFrom_append {schema : Schema} {d : Nat} {w : Value} {a cs : List Char} (ha : IsGap a)
    (h : SpellsAs schema d w cs) (fuel : Nat) (rest : List Char) :
    Schema.readFrom (fuel + 2) d schema (a ++ (cs ++ rest)) =
      Schema.readFrom (fuel + 2) d schema (cs ++ rest) := by
  have hskip : skipSpace (a ++ (cs ++ rest)) = skipSpace (cs ++ rest) := by
    rw [skipSpace_append ha (h.isSharp.append rest), skipSpace_of_isSharp (h.isSharp.append rest)]
  cases h <;> rw [Schema.readFrom, Schema.readFrom]
  case text => rw [readText, readText, hskip]
  case integer => rw [readInteger, readInteger, hskip]
  case choice => rw [readChoice, readChoice, hskip]
  case null =>
    rw [hskip, skipSpace_null]
    rfl
  case yes | no => rw [readFlag, readFlag, hskip]
  case present s =>
    have hquote := skipSpace_of_isSharp ((isSharp_quote s).append rest)
    rw [Schema.readFrom, Schema.readFrom, readText, readText, hskip, hquote, quote_append]
  case emptyList | list | record => rw [hskip]

/-- What is read at some amount of fuel: every value of a schema that is spelled in front, and the
items and members that are left of a list or a record whose first ones are read. -/
structure Reads (fuel : Nat) : Prop where
  value {schema : Schema} {d : Nat} {w : Value} {a cs rest : List Char} :
    IsGap a → SpellsAs schema d w cs → 2 * cs.length ≤ fuel → EndsNumber rest →
    Schema.readFrom fuel d schema (a ++ (cs ++ rest)) = .ok (w, rest)
  list {item : Schema} {d : Nat} {vs : List Value} {a cs : List Char} (done : List Value)
    (rest : List Char) (first : Bool) :
    IsGap a → SpellsList item d vs cs → 2 * cs.length + 2 ≤ fuel →
    Schema.readList fuel d item first done (a ++ (lead first ++ (cs ++ ']' :: rest))) =
      .ok (.arr (done.reverse ++ vs), rest)
  members {fields : Fields} {d : Nat} {found found' members : List (String × Value)}
    {a cs : List Char} (rest : List Char) (first : Bool) :
    IsGap a → SpellsFields fields d found found' cs → finishRecord fields found' = .ok members →
    2 * cs.length + 2 ≤ fuel →
    Schema.readMembers fuel d fields first found (a ++ (lead first ++ (cs ++ '}' :: rest))) =
      .ok (.obj members, rest)

theorem readList_of_closed (fuel depth : Nat) (item : Schema) (first : Bool) (done : List Value)
    {a : List Char} (ha : IsGap a) (rest : List Char) :
    Schema.readList (fuel + 1) depth item first done (a ++ ']' :: rest) =
      .ok (.arr done.reverse, rest) := by
  rw [Schema.readList, nextItem_of_closed ha]
  simp only [afterClose_append ha (by decide : isSpace ']' = false)]

/-- Behind an item the reader goes on with those that are left. -/
theorem Reads.item {fuel : Nat} (h : Reads fuel) {item : Schema} {d : Nat} {v : Value}
    {a b cs rest : List Char} (ha : IsGap a) (hb : IsGap b) (hv : SpellsAs item d v cs)
    (first : Bool) (done : List Value) (hfuel : 2 * cs.length ≤ fuel) (hrest : EndsNumber rest) :
    Schema.readList (fuel + 1) d item first done (a ++ (lead first ++ (b ++ (cs ++ rest)))) =
      Schema.readList fuel d item false (v :: done) rest := by
  have hread : Schema.readFrom fuel d item (cs ++ rest) = .ok (v, rest) :=
    h.value isGap_nil hv hfuel hrest
  rw [Schema.readList, nextItem_of_head hv.head ha hb]
  simp only [hread]

/-- An item of a schema takes one round of the reader. -/
theorem Reads.list_succ {fuel : Nat} (h : Reads fuel) {item : Schema} {d : Nat}
    {vs done : List Value} {a cs rest : List Char} (first : Bool) (ha : IsGap a)
    (hvs : SpellsList item d vs cs) (hfuel : 2 * cs.length + 2 ≤ fuel + 1) :
    Schema.readList (fuel + 1) d item first done (a ++ (lead first ++ (cs ++ ']' :: rest))) =
      .ok (.arr (done.reverse ++ vs), rest) := by
  cases hvs with
  | @last _ _ v b cs e hb hv he =>
    have hpos := hv.length_pos
    simp only [List.length_append] at hfuel
    obtain ⟨fuel, rfl⟩ : ∃ n, fuel = n + 1 := ⟨fuel - 1, by omega⟩
    simp only [List.append_assoc]
    rw [h.item ha hb hv first done (by omega) (endsNumber_append he (by simp) rest),
      readList_of_closed fuel d item false _ he]
    simp
  | @cons _ _ v vs b cs e more hb hv he hmore =>
    simp only [List.length_append, List.length_cons] at hfuel
    have hmore' := h.list (v :: done) rest false he hmore (by omega)
    simp only [List.append_assoc, List.cons_append]
    rw [h.item ha hb hv first done (by omega) (endsNumber_append he (by simp) _)]
    simpa [lead] using hmore'

/-- Behind a member the reader goes on with those that are left. -/
theorem Reads.field {fuel : Nat} (h : Reads fuel) {fields : Fields} {d : Nat}
    {found found' : List (String × Value)} {a b cs rest : List Char} (ha : IsGap a) (hb : IsGap b)
    (hfield : SpellsField fields d found found' cs) (first : Bool) (hfuel : 2 * cs.length ≤ fuel)
    (hrest : EndsNumber rest) :
    Schema.readMembers (fuel + 1) d fields first found
        (a ++ (lead first ++ (b ++ (cs ++ rest)))) =
      Schema.readMembers fuel d fields false found' rest := by
  cases hfield with
  | @known _ _ _ k schema absent w c e cs hc he hlookup hnew hvalue =>
    simp only [List.length_append, List.length_cons] at hfuel
    have hread : Schema.readFrom fuel d schema (e ++ (cs ++ rest)) = .ok (w, rest) :=
      h.value he hvalue (by omega) hrest
    simp only [List.append_assoc, List.cons_append]
    rw [Schema.readMembers, nextKey_of_quote ha hb]
    simp only [string_quote, hlookup, hnew, Option.isSome_none, colon_append hc, hread]
    rfl
  | @unknown _ _ _ k c cs hc hlookup hpassed =>
    simp only [List.append_assoc, List.cons_append]
    rw [Schema.readMembers, nextKey_of_quote ha hb]
    simp only [string_quote, hlookup, colon_append hc, hpassed rest hrest]

theorem reads (fuel : Nat) : Reads fuel := by
  induction fuel with
  | zero =>
    constructor
    case value =>
      intro schema d w a cs rest _ h hfuel _
      have := h.length_pos
      omega
    case list => intros; omega
    case members => intros; omega
  | succ fuel ih =>
    constructor
    case value =>
      intro schema d w a cs rest ha h hfuel hrest
      obtain ⟨more, rfl⟩ : ∃ more, fuel = more + 1 := ⟨fuel - 1, by have := h.length_pos; omega⟩
      rw [readFrom_append ha h]
      cases h with
      | text =>
        rw [Schema.readFrom, readText_quote]
        rfl
      | integer hn hleast hgreatest =>
        rw [Schema.readFrom, readInteger_intChars hn hleast hgreatest _ hrest]
      | choice hlookup => rw [Schema.readFrom, readChoice_quote hlookup]
      | null =>
        rw [Schema.readFrom, skipSpace_null]
        simp [word, bind, Except.bind, pure, Except.pure]
      | @present expected d s =>
        rw [Schema.readFrom, skipSpace_of_isSharp ((isSharp_quote s).append rest),
          Schema.readFrom, readText_quote]
        simp [quote_append, bind, Except.bind, pure, Except.pure]
      | yes | no => simp [Schema.readFrom, readFlag, skipSpace, isSpace, word, Except.map]
      | @emptyList item d a ha =>
        rw [List.cons_append, List.append_assoc, Schema.readFrom,
          skipSpace_of_isSharp (isSharp_cons (by decide) _)]
        exact readList_of_closed more d item true [] ha rest
      | @list item d vs cs hvs =>
        simp only [List.length_cons, List.length_append, List.length_nil] at hfuel
        rw [List.cons_append, List.append_assoc, Schema.readFrom,
          skipSpace_of_isSharp (isSharp_cons (by decide) _)]
        exact ih.list [] rest true isGap_nil hvs (by omega)
      | @record owner fields d found members cs hfields hfinish =>
        simp only [List.length_cons, List.length_append, List.length_nil] at hfuel
        rw [List.cons_append, List.append_assoc, Schema.readFrom,
          skipSpace_of_isSharp (isSharp_cons (by decide) _)]
        exact ih.members rest true isGap_nil hfields hfinish (by omega)
    case list => exact fun _ _ first ha hvs hfuel => ih.list_succ first ha hvs hfuel
    case members =>
      intro fields d found found' members a cs rest first ha hfields hfinish hfuel
      cases hfields with
      | @last _ _ _ _ b cs e hb hfield he =>
        simp only [List.length_append] at hfuel
        obtain ⟨fuel, rfl⟩ : ∃ n, fuel = n + 1 := ⟨fuel - 1, by have := hfield.length_pos; omega⟩
        simp only [List.append_assoc]
        rw [ih.field ha hb hfield first (by omega) (endsNumber_append he (by simp) rest),
          readMembers_of_closed hfinish fuel d false he]
      | @cons _ _ _ found₁ _ b cs e more hb hfield he hmore =>
        simp only [List.length_append, List.length_cons] at hfuel
        have hmore' := ih.members rest false he hmore hfinish (by omega)
        simp only [List.append_assoc, List.cons_append]
        rw [ih.field ha hb hfield first (by omega) (endsNumber_append he (by simp) _)]
        simpa [lead] using hmore'

end Schema

/-- A text that spells a value of a schema is read to the value. -/
theorem SpellsAs.parse {schema : Schema} {w : Value} {text : String}
    (h : SpellsAs schema maxDepth w text.toList) : schema.parse text = .ok w := by
  have hread : Schema.readFrom (2 * enough text.toList + 64) maxDepth schema text.toList =
      .ok (w, []) := by
    have hfuel : 2 * text.toList.length ≤ 2 * enough text.toList + 64 := by
      simp only [enough]
      omega
    simpa using (Schema.reads _).value isGap_nil h hfuel (endsNumber_of_isGap isGap_nil)
  simp [Schema.parse, Schema.parseChars, hread, atEnd, skipSpace, bind, Except.bind, pure,
    Except.pure, Except.mapError]

theorem Codec.parse_of_spellsAs {α : Type} {codec : Codec α} {w : Value} {a : α} {text : String}
    (h : SpellsAs codec.schema maxDepth w text.toList) (hdecode : codec.decode? w = some a) :
    codec.parse text = .ok a := by
  simp [Codec.parse, h.parse, hdecode, bind, Except.bind, pure, Except.pure]

/-! ## §5 Compact texts -/

theorem spellsAs_text (d : Nat) (s : String) :
    SpellsAs textSchema d (.str s) (Value.str s).compactChars :=
  .text

theorem spellsAs_unsigned {expected : String} (d : Nat) {n : Nat}
    (h : n ≤ MachineWord.maxUnsigned) :
    SpellsAs (.integer 0 MachineWord.maxUnsigned expected) d (.int n)
      (Value.int n).compactChars := by
  have hleast : (0 : Int) ≤ n := Int.natCast_nonneg n
  refine .integer ⟨hleast.trans' (by decide), ?_⟩ hleast ?_ <;> exact_mod_cast h

/-- The fields that are found when these members are written, in order. -/
inductive Gathers (fields : Fields) (d : Nat) :
    List (String × Value) → List (String × Value) → List (String × Value) → Prop where
  | nil {found : List (String × Value)} : Gathers fields d [] found found
  | known {ms found out : List (String × Value)} {k : String} {schema : Schema}
      {absent : Option Value} {v w : Value} :
      fields.lookup k = some (schema, absent) → found.lookup k = none →
      SpellsAs schema d w v.compactChars → Gathers fields d ms ((k, w) :: found) out →
      Gathers fields d ((k, v) :: ms) found out
  | unknown {ms found out : List (String × Value)} {k : String} {v : Value} :
      fields.lookup k = none → IsPassed v.compactChars → Gathers fields d ms found out →
      Gathers fields d ((k, v) :: ms) found out

/-- The members of an object are the fields of a record where each of them is gathered or passed over.
-/
theorem Gathers.spellsFields {fields : Fields} {d : Nat} {ms found out : List (String × Value)}
    (h : Gathers fields d ms found out) (hne : ms ≠ []) :
    SpellsFields fields d found out (Value.compactMembers ms) := by
  induction h with
  | nil => exact absurd rfl hne
  | @known ms found out k schema absent v w hlookup hnew hvalue hms ih =>
    have hfield := SpellsField.known isGap_nil isGap_nil hlookup hnew hvalue
    cases hms with
    | nil => simpa [Value.compactMembers] using SpellsFields.last isGap_nil hfield isGap_nil
    | known | unknown =>
      simpa [Value.compactMembers] using
        SpellsFields.cons isGap_nil hfield isGap_nil (ih (List.cons_ne_nil _ _))
  | @unknown ms found out k v hlookup hpassed hms ih =>
    have hfield : SpellsField fields d found found _ := .unknown isGap_nil hlookup hpassed
    cases hms with
    | nil => simpa [Value.compactMembers] using SpellsFields.last isGap_nil hfield isGap_nil
    | known | unknown =>
      simpa [Value.compactMembers] using
        SpellsFields.cons isGap_nil hfield isGap_nil (ih (List.cons_ne_nil _ _))

/-- The compact text of an object spells the record that its members gather. -/
theorem Gathers.spellsAs {fields : Fields} {d : Nat} {ms found members : List (String × Value)}
    (h : Gathers fields d ms [] found) (hne : ms ≠ [])
    (hfinish : finishRecord fields found = .ok members) (owner : String) :
    SpellsAs (.record owner fields) (d + 1) (.obj members) (Value.obj ms).compactChars :=
  .record (h.spellsFields hne) hfinish

end QueryPlayground.Json
