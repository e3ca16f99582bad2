import QueryPlayground.Json.Codec
import QueryPlayground.Proofs.Json.Normal

/-!
# What the readers of a schema have done

Each reader of a schema has one lemma that says all it can have done where it gives a value: which
characters it found in front of it, which readers it called, and with what it went on. Whatever is
proved of values that were read is a case analysis over these steps.

Main statements: `Schema.valueStep_of_readFrom`, `Schema.listStep_of_readList`,
`Schema.itemsStep_of_readItems` and `Schema.membersStep_of_readMembers`.
-/

namespace QueryPlayground.Json

/-! ## §1 Separators -/

theorem nextItem_eq_none {first : Bool} {cs : List Char} (h : nextItem first cs = .ok none) :
    skipSpace cs = ']' :: afterClose cs := by
  unfold nextItem at h
  split at h
  next => simp at h
  next hspace => rw [afterClose, hspace, List.drop_one, List.tail_cons]
  next =>
    split at h
    next => simp at h
    next =>
      split at h
      next => split at h <;> simp at h
      next => simp at h

/-- An item begins behind the space in front of it, or behind a comma. -/
theorem nextItem_eq_some {first : Bool} {cs rest : List Char}
    (h : nextItem first cs = .ok (some rest)) :
    (∃ c after, rest = c :: after ∧ c ≠ ']') ∧
      (first = true ∧ skipSpace cs = rest ∨
        first = false ∧ ∃ after, skipSpace cs = ',' :: after ∧ skipSpace after = rest) := by
  -- The cases are those of the reader, of which the failures are left out.
  unfold nextItem at h
  split at h
  next => simp at h
  next => simp at h
  next c after hclose hspace =>
    split at h
    next hfirst =>
      cases h
      exact ⟨⟨c, after, rfl, hclose⟩, .inl ⟨hfirst, hspace⟩⟩
    next hfirst =>
      split at h
      next hcomma =>
        subst hcomma
        split at h
        next => simp at h
        next => simp at h
        next rest' hne hclose' =>
          cases h
          obtain ⟨d, tail, htail⟩ := List.exists_cons_of_ne_nil hne
          refine ⟨⟨d, tail, htail, fun hd => hclose' tail (by rw [htail, hd])⟩,
            .inr ⟨by simpa using hfirst, after, hspace, rfl⟩⟩
      next => simp at h

theorem nextKey_eq_none {first : Bool} {cs : List Char} (h : nextKey first cs = .ok none) :
    skipSpace cs = '}' :: afterClose cs := by
  unfold nextKey at h
  split at h
  next => simp at h
  next hspace => rw [afterClose, hspace, List.drop_one, List.tail_cons]
  next =>
    split at h
    next => split at h <;> simp at h
    next =>
      split at h
      next => split at h <;> simp at h
      next => simp at h

/-- A key begins with a quote, behind the space in front of it or behind a comma. -/
theorem nextKey_eq_some {first : Bool} {cs key : List Char}
    (h : nextKey first cs = .ok (some key)) :
    first = true ∧ skipSpace cs = '"' :: key ∨
      first = false ∧ ∃ after, skipSpace cs = ',' :: after ∧ skipSpace after = '"' :: key := by
  -- The same cases, where what follows the space must be a quote.
  unfold nextKey at h
  split at h
  next => simp at h
  next => simp at h
  next c after hclose hspace =>
    split at h
    next hfirst =>
      split at h
      next hquote =>
        cases h
        exact .inl ⟨hfirst, hquote ▸ hspace⟩
      next => simp at h
    next hfirst =>
      split at h
      next hcomma =>
        subst hcomma
        split at h
        next => simp at h
        next hquote =>
          cases h
          exact .inr ⟨by simpa using hfirst, after, hspace, hquote⟩
        next => simp at h
        next => simp at h
      next => simp at h

theorem colon_eq_ok {cs rest : List Char} (h : colon cs = .ok rest) :
    skipSpace cs = ':' :: rest := by
  unfold colon at h
  split at h
  next => simp at h
  next hspace =>
    cases h
    exact hspace
  next => simp at h

/-! ## §2 Scalars -/

theorem Schema.map_eq_ok {ε α β : Type} {x : Except ε α} {f : α → β} {b : β} (h : x.map f = .ok b) :
    ∃ a, x = .ok a ∧ f a = b := by
  cases x with
  | error e => cases h
  | ok a => exact ⟨a, rfl, Except.ok.inj h⟩

/-- A value that is refused is not read. -/
theorem Schema.refuse_ne_ok {α : Type} {expected : String} {cs : List Char} {a : α} :
    refuse expected cs ≠ .ok a := by
  unfold refuse
  split
  · simp
  · simp
  · split <;> simp

theorem readText_eq_ok {expected s : String} {cs rest : List Char}
    (h : readText expected cs = .ok (s, rest)) :
    ∃ after, skipSpace cs = '"' :: after ∧ string after = .ok (s, rest) := by
  unfold readText at h
  split at h
  next => simp at h
  next after hspace => exact ⟨after, hspace, h⟩
  next => exact absurd h Schema.refuse_ne_ok

theorem readFlag_eq_ok {cs rest : List Char} {v : Value} (h : readFlag cs = .ok (v, rest)) :
    ∃ after, (skipSpace cs = 't' :: after ∧ word ['r', 'u', 'e'] after = .ok rest ∧
        v = .bool true) ∨
      (skipSpace cs = 'f' :: after ∧ word ['a', 'l', 's', 'e'] after = .ok rest ∧
        v = .bool false) := by
  unfold readFlag at h
  split at h
  next => simp at h
  next after hspace =>
    obtain ⟨_, hword, hpair⟩ := Schema.map_eq_ok h
    cases hpair
    exact ⟨after, .inl ⟨hspace, hword, rfl⟩⟩
  next after hspace =>
    obtain ⟨_, hword, hpair⟩ := Schema.map_eq_ok h
    cases hpair
    exact ⟨after, .inr ⟨hspace, hword, rfl⟩⟩
  next => exact absurd h Schema.refuse_ne_ok

theorem inRange_eq_ok {least greatest : Int} {expected : String} {v w : Value}
    {cs rest : List Char} (h : inRange least greatest expected v cs = .ok (w, rest)) :
    ∃ n, least ≤ n ∧ n ≤ greatest ∧ v = .int n ∧ w = .int n ∧ rest = cs := by
  unfold inRange at h
  split at h
  next n =>
    split at h
    next hrange =>
      cases h
      exact ⟨n, hrange.1, hrange.2, rfl, rfl, rfl⟩
    next => simp at h
  next => simp at h

/-- An integer of a range is a number in front of the text. -/
theorem readInteger_eq_ok {least greatest : Int} {expected : String} {v : Value}
    {cs rest : List Char} (h : readInteger least greatest expected cs = .ok (v, rest)) :
    ∃ n, least ≤ n ∧ n ≤ greatest ∧ v = .int n ∧
      ((∃ after, skipSpace cs = '-' :: after ∧ number true after = .ok (.int n, rest)) ∨
        ∃ c after, skipSpace cs = c :: after ∧ c.isDigit = true ∧
          number false (c :: after) = .ok (.int n, rest)) := by
  unfold readInteger at h
  split at h
  next => simp at h
  next after hspace =>
    obtain ⟨⟨w, more⟩, hnumber, h⟩ := bind_eq_ok h
    obtain ⟨n, hleast, hgreatest, rfl, rfl, rfl⟩ := inRange_eq_ok h
    exact ⟨n, hleast, hgreatest, rfl, .inl ⟨after, hspace, hnumber⟩⟩
  next c after _ hspace =>
    split at h
    next hdigit =>
      obtain ⟨⟨w, more⟩, hnumber, h⟩ := bind_eq_ok h
      obtain ⟨n, hleast, hgreatest, rfl, rfl, rfl⟩ := inRange_eq_ok h
      exact ⟨n, hleast, hgreatest, rfl, .inr ⟨c, after, hspace, hdigit, hnumber⟩⟩
    next => exact absurd h Schema.refuse_ne_ok

theorem readName_eq_ok {spellings : List (String × String)} {cs rest : List Char} {v : Value}
    (h : readName spellings cs = .ok (v, rest)) :
    ∃ s name after, spellings.lookup s = some name ∧ v = .str name ∧
      skipSpace cs = '"' :: after ∧ string after = .ok (s, rest) := by
  obtain ⟨⟨s, more⟩, hread, h⟩ := bind_eq_ok h
  obtain ⟨after, hspace, hstring⟩ := readText_eq_ok hread
  dsimp only at h
  split at h
  next name hlookup =>
    cases h
    exact ⟨s, name, after, hlookup, rfl, hspace, hstring⟩
  next => simp at h

theorem readUnit_eq_ok {cs rest : List Char} (h : readUnit cs = .ok rest) :
    ∃ after, skipSpace cs = 'n' :: after ∧ word ['u', 'l', 'l'] after = .ok rest := by
  unfold readUnit at h
  split at h
  next => simp at h
  next after hspace => exact ⟨after, hspace, h⟩
  next => exact absurd h Schema.refuse_ne_ok

/-- One of several spellings is a string, or the only member of an object, which is `null`. -/
theorem readChoice_eq_ok {depth : Nat} {spellings : List (String × String)} {cs rest : List Char}
    {v : Value} (h : readChoice depth spellings cs = .ok (v, rest)) :
    ∃ s name, spellings.lookup s = some name ∧ v = .str name ∧
      ((∃ after, skipSpace cs = '"' :: after ∧ string after = .ok (s, rest)) ∨
        ∃ after key more value unit, 0 < depth ∧ skipSpace cs = '{' :: after ∧
          skipSpace after = '"' :: key ∧ string key = .ok (s, more) ∧ colon more = .ok value ∧
          readUnit value = .ok unit ∧ skipSpace unit = '}' :: rest) := by
  unfold readChoice at h
  split at h
  next => simp at h
  next after hspace =>
    obtain ⟨s, name, more, hlookup, hv, hquote, hstring⟩ := readName_eq_ok h
    rw [skipSpace_of_isSharp (isSharp_cons (by decide) _)] at hquote
    cases hquote
    exact ⟨s, name, hlookup, hv, .inl ⟨after, hspace, hstring⟩⟩
  next after hspace =>
    split at h
    next => simp at h
    next hdepth =>
      obtain ⟨⟨w, more⟩, hname, h⟩ := bind_eq_ok h
      obtain ⟨value, hcolon, h⟩ := bind_eq_ok h
      obtain ⟨unit, hunit, h⟩ := bind_eq_ok h
      obtain ⟨s, name, key, hlookup, hw, hquote, hstring⟩ := readName_eq_ok hname
      split at h
      next => simp at h
      next hclose =>
        cases h
        exact ⟨s, name, hlookup, hw, .inr ⟨after, key, more, value, unit, Nat.pos_of_ne_zero hdepth,
          hspace, hquote, hstring, hcolon, hunit, hclose⟩⟩
      next => simp at h
  next => simp at h

namespace Schema

theorem endItems_eq_ok {cs rest : List Char} (h : endItems cs = .ok rest) :
    skipSpace cs = ']' :: rest := by
  unfold endItems at h
  split at h
  next => simp at h
  next hspace =>
    cases h
    exact hspace
  next => split at h <;> simp at h
  next => simp at h

/-! ## §3 Values, lists and records -/

variable {fuel depth total : Nat} {owner : String} {schema item : Schema}
  {fields : List (String × Schema × Option Value)} {first : Bool} {v : Value} {cs rest : List Char}

/-- What reading a value has done. -/
inductive ValueStep (fuel : Nat) : Nat → Schema → List Char → Value → List Char → Prop where
  | text {depth : Nat} {expected s : String} {cs rest : List Char} :
      readText expected cs = .ok (s, rest) →
      ValueStep fuel depth (.text expected) cs (.str s) rest
  | flag {depth : Nat} {v : Value} {cs rest : List Char} :
      readFlag cs = .ok (v, rest) → ValueStep fuel depth .flag cs v rest
  | integer {depth : Nat} {least greatest : Int} {expected : String} {v : Value}
      {cs rest : List Char} :
      readInteger least greatest expected cs = .ok (v, rest) →
      ValueStep fuel depth (.integer least greatest expected) cs v rest
  | choice {depth : Nat} {spellings : List (String × String)} {v : Value} {cs rest : List Char} :
      readChoice depth spellings cs = .ok (v, rest) →
      ValueStep fuel depth (.choice spellings) cs v rest
  | null {depth : Nat} {item : Schema} {cs after rest : List Char} :
      skipSpace cs = 'n' :: after → word ['u', 'l', 'l'] after = .ok rest →
      ValueStep fuel depth (.optional item) cs .null rest
  | present {depth : Nat} {item : Schema} {v : Value} {cs rest : List Char} :
      readFrom fuel depth item cs = .ok (v, rest) →
      ValueStep fuel depth (.optional item) cs v rest
  | list {depth : Nat} {item : Schema} {v : Value} {cs after rest : List Char} :
      skipSpace cs = '[' :: after → readList fuel depth item true [] after = .ok (v, rest) →
      ValueStep fuel (depth + 1) (.list item) cs v rest
  | array {depth : Nat} {owner : String} {fields : List (String × Schema × Option Value)}
      {v : Value} {cs after rest : List Char} :
      skipSpace cs = '[' :: after →
      readItems fuel depth owner fields.length fields true [] after = .ok (v, rest) →
      ValueStep fuel (depth + 1) (.record owner fields) cs v rest
  | object {depth : Nat} {owner : String} {fields : List (String × Schema × Option Value)}
      {v : Value} {cs after rest : List Char} :
      skipSpace cs = '{' :: after → readMembers fuel depth fields true [] after = .ok (v, rest) →
      ValueStep fuel (depth + 1) (.record owner fields) cs v rest

/-- What reading a list has done from an item on: it has closed it, or read the item and gone on. -/
inductive ListStep (fuel depth : Nat) (item : Schema) (first : Bool) (done : List Value)
    (cs : List Char) : Value → List Char → Prop where
  | close : nextItem first cs = .ok none →
      ListStep fuel depth item first done cs (.arr done.reverse) (afterClose cs)
  | item {after last rest : List Char} {w v : Value} :
      nextItem first cs = .ok (some after) → readFrom fuel depth item after = .ok (w, last) →
      readList fuel depth item false (w :: done) last = .ok (v, rest) →
      ListStep fuel depth item first done cs v rest

/-- What reading a record as an array has done from a field on: it has closed it behind the last one,
filled in a field that is absent, or read the field, and gone on. -/
inductive ItemsStep (fuel depth : Nat) (owner : String) (total : Nat) (first : Bool)
    (done : List (String × Value)) (cs : List Char) :
    List (String × Schema × Option Value) → Value → List Char → Prop where
  | close {rest : List Char} : skipSpace cs = ']' :: rest →
      ItemsStep fuel depth owner total first done cs [] (.obj done.reverse) rest
  | absent {name : String} {schema : Schema} {w v : Value} {rest : List Char}
      {fields : List (String × Schema × Option Value)} :
      nextItem first cs = .ok none →
      readItems fuel depth owner total fields first ((name, w) :: done) cs = .ok (v, rest) →
      ItemsStep fuel depth owner total first done cs ((name, schema, some w) :: fields) v rest
  | field {name : String} {schema : Schema} {absent : Option Value} {w v : Value}
      {after last rest : List Char} {fields : List (String × Schema × Option Value)} :
      nextItem first cs = .ok (some after) → readFrom fuel depth schema after = .ok (w, last) →
      readItems fuel depth owner total fields false ((name, w) :: done) last = .ok (v, rest) →
      ItemsStep fuel depth owner total first done cs ((name, schema, absent) :: fields) v rest

/-- What reading a record as an object has done from a member on: it has closed it, passed over a
member that nobody knows, or read a field that was not there before, and gone on. -/
inductive MembersStep (fuel depth : Nat) (fields : List (String × Schema × Option Value))
    (first : Bool) (found : List (String × Value)) (cs : List Char) : Value → List Char → Prop where
  | close {members : List (String × Value)} :
      nextKey first cs = .ok none → finishRecord fields found = .ok members →
      MembersStep fuel depth fields first found cs (.obj members) (afterClose cs)
  | unknown {name : String} {v : Value} {key after value last rest : List Char} :
      nextKey first cs = .ok (some key) → string key = .ok (name, after) →
      colon after = .ok value → fields.lookup name = none → skipValue value = .ok last →
      readMembers fuel depth fields false found last = .ok (v, rest) →
      MembersStep fuel depth fields first found cs v rest
  | field {name : String} {schema : Schema} {absent : Option Value} {w v : Value}
      {key after value last rest : List Char} :
      nextKey first cs = .ok (some key) → string key = .ok (name, after) →
      colon after = .ok value → fields.lookup name = some (schema, absent) →
      found.lookup name = none → readFrom fuel depth schema value = .ok (w, last) →
      readMembers fuel depth fields false ((name, w) :: found) last = .ok (v, rest) →
      MembersStep fuel depth fields first found cs v rest

/-- What a schema reads is read in one of the ways of a step: the other branches of the reader are
failures and give no value. -/
theorem valueStep_of_readFrom (h : readFrom (fuel + 1) depth schema cs = .ok (v, rest)) :
    ValueStep fuel depth schema cs v rest := by
  cases schema <;> rw [readFrom] at h
  case text =>
    obtain ⟨⟨s, more⟩, hread, h⟩ := bind_eq_ok h
    cases h
    exact .text hread
  case flag => exact .flag h
  case integer => exact .integer h
  case choice => exact .choice h
  case optional =>
    split at h
    next hspace =>
      obtain ⟨_, hword, h⟩ := bind_eq_ok h
      cases h
      exact .null hspace hword
    next => exact .present h
  case list =>
    split at h
    next => simp at h
    next hspace =>
      split at h
      next => simp at h
      next => exact .list hspace h
    next => exact absurd h refuse_ne_ok
  case record =>
    split at h
    next => simp at h
    next hspace =>
      split at h
      next => simp at h
      next => exact .array hspace h
    next hspace =>
      split at h
      next => simp at h
      next => exact .object hspace h
    next => exact absurd h refuse_ne_ok

theorem listStep_of_readList {done : List Value}
    (h : readList (fuel + 1) depth item first done cs = .ok (v, rest)) :
    ListStep fuel depth item first done cs v rest := by
  rw [readList] at h
  split at h
  next => simp at h
  next hnext =>
    cases h
    exact .close hnext
  next hnext =>
    split at h
    next => simp at h
    next hread => exact .item hnext hread h

/-- An item of a record that is written as an array is taken by the next field that is left. -/
theorem itemsStep_of_readItems {done : List (String × Value)}
    (h : readItems (fuel + 1) depth owner total fields first done cs = .ok (v, rest)) :
    ItemsStep fuel depth owner total first done cs fields v rest := by
  rw [readItems.eq_def] at h
  dsimp only at h
  split at h
  next =>
    obtain ⟨_, hend, h⟩ := bind_eq_ok h
    cases h
    exact .close (endItems_eq_ok hend)
  next =>
    split at h
    next => simp at h
    next hnext =>
      split at h
      next => exact .absent hnext h
      next => simp at h
    next hnext =>
      split at h
      next => simp at h
      next hread => exact .field hnext hread h

/-- A member is the end, one that the record does not know, or one that it has not seen yet. -/
theorem membersStep_of_readMembers {found : List (String × Value)}
    (h : readMembers (fuel + 1) depth fields first found cs = .ok (v, rest)) :
    MembersStep fuel depth fields first found cs v rest := by
  rw [readMembers] at h
  split at h
  next => simp at h
  next hnext =>
    split at h
    next hfinish =>
      cases h
      exact .close hnext hfinish
    next => simp at h
  next hnext =>
    split at h
    next => simp at h
    next hkey =>
      split at h
      next hlookup =>
        split at h
        next => simp at h
        next hcolon =>
          split at h
          next => simp at h
          next hskip => exact .unknown hnext hkey hcolon hlookup hskip h
      next hlookup =>
        split at h
        next => simp at h
        next hnew =>
          split at h
          next => simp at h
          next hcolon =>
            split at h
            next => simp at h
            next hread =>
              exact .field hnext hkey hcolon hlookup (Option.not_isSome_iff_eq_none.mp hnew) hread h

/-- The value of a whole text is one that was read with fuel and depth enough. -/
theorem exists_readFrom_of_parse {text : String} (h : schema.parse text = .ok v) :
    ∃ rest, readFrom (2 * enough text.toList + 64) maxDepth schema text.toList = .ok (v, rest) := by
  obtain ⟨w, hw⟩ : ∃ w, schema.parseChars text.toList = .ok w := by
    cases hparse : schema.parseChars text.toList <;> simp_all [Schema.parse, Except.mapError]
  simp only [Schema.parse, hw, Except.mapError] at h
  cases h
  obtain ⟨⟨u, rest⟩, hread, h⟩ := bind_eq_ok hw
  obtain ⟨-, -, h⟩ := bind_eq_ok h
  cases h
  exact ⟨rest, hread⟩

end Schema

end QueryPlayground.Json
