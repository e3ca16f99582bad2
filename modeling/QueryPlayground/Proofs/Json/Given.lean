import Mathlib.Data.List.Forall2
import QueryPlayground.Proofs.Json.Passing
import QueryPlayground.Proofs.Json.Shape

/-!
# What a text gives for a record

A text of a record is an object or an array. Which of its members or items stand for which fields can
be told without reading their values, by passing over them. The reader of a schema gives each field
that is there the value that its own text has, and each one that is not there its value of an absent
field.

Main statements: `Schema.fills_of_readsTo`, `Schema.ReadsTo.means_of_plain` and
`Schema.ReadsTo.means_of_names`.
-/

namespace QueryPlayground.Json

/-! ## §1 Members and items of a text -/

/-- The members of an object from here on: their names, and the texts that begin with their values. -/
inductive Entries : Bool → List Char → List (String × List Char) → Prop where
  | nil {first : Bool} {cs : List Char} : nextKey first cs = .ok none → Entries first cs []
  | cons {first : Bool} {cs key after value rest : List Char} {k : String}
      {given : List (String × List Char)} :
      nextKey first cs = .ok (some key) → string key = .ok (k, after) → colon after = .ok value →
      skipValue value = .ok rest → Entries false rest given →
      Entries first cs ((k, value) :: given)

/-- The items of an array from here on: the texts that begin with them. -/
inductive Items : Bool → List Char → List (List Char) → Prop where
  | nil {first : Bool} {cs : List Char} : nextItem first cs = .ok none → Items first cs []
  | cons {first : Bool} {cs item rest : List Char} {items : List (List Char)} :
      nextItem first cs = .ok (some item) → skipValue item = .ok rest → Items false rest items →
      Items first cs (item :: items)

/-- What a text gives for a record of named fields: the members of an object, or the items of an array
in the order of the fields. -/
inductive Gives (names : List String) : List Char → List (String × List Char) → Prop where
  | object {cs rest : List Char} {given : List (String × List Char)} :
      skipSpace cs = '{' :: rest → Entries true rest given → Gives names cs given
  | array {cs rest : List Char} {items : List (List Char)} :
      skipSpace cs = '[' :: rest → Items true rest items → items.length ≤ names.length →
      Gives names cs (names.zip items)

theorem Entries.unique {first : Bool} {cs : List Char} {given given' : List (String × List Char)}
    (h : Entries first cs given) (h' : Entries first cs given') : given' = given := by
  induction h generalizing given' with
  | nil hnext =>
    cases h' with
    | nil => rfl
    | cons hnext' => simp [hnext] at hnext'
  | cons hnext hkey hcolon hskip _ ih =>
    cases h' with
    | nil hnext' => simp [hnext] at hnext'
    | cons hnext' hkey' hcolon' hskip' hmore =>
      cases hnext.symm.trans hnext'
      cases hkey.symm.trans hkey'
      cases hcolon.symm.trans hcolon'
      cases hskip.symm.trans hskip'
      rw [ih hmore]

theorem Items.unique {first : Bool} {cs : List Char} {items items' : List (List Char)}
    (h : Items first cs items) (h' : Items first cs items') : items' = items := by
  induction h generalizing items' with
  | nil hnext =>
    cases h' with
    | nil => rfl
    | cons hnext' => simp [hnext] at hnext'
  | cons hnext hskip _ ih =>
    cases h' with
    | nil hnext' => simp [hnext] at hnext'
    | cons hnext' hskip' hmore =>
      cases hnext.symm.trans hnext'
      cases hskip.symm.trans hskip'
      rw [ih hmore]

/-- A text gives one thing for a record. -/
theorem Gives.unique {names : List String} {cs : List Char} {given given' : List (String × List Char)}
    (h : Gives names cs given) (h' : Gives names cs given') : given' = given := by
  cases h with
  | object hspace hentries =>
    cases h' with
    | object hspace' hentries' =>
      cases hspace.symm.trans hspace'
      exact hentries.unique hentries'
    | array hspace' => simp [hspace] at hspace'
  | array hspace hitems =>
    cases h' with
    | object hspace' => simp [hspace] at hspace'
    | array hspace' hitems' =>
      cases hspace.symm.trans hspace'
      rw [hitems.unique hitems']

/-- What a text means that begins with a value: the value, or a name that is the only member of an
object, which is `null`. -/
def Means (cs : List Char) (v : Value) : Prop :=
  ∃ w rest, Value.read cs = .ok (w, rest) ∧
    (w = v ∨ ∃ name, w = .obj [(name, .null)] ∧ v = .str name)

/-! ## §2 Records -/

namespace Schema

/-- A text that begins with what the reader of a schema takes for a value. -/
def ReadsTo (schema : Schema) (cs : List Char) (v : Value) : Prop :=
  ∃ fuel depth rest, depth ≤ maxDepth ∧ Schema.readFrom fuel depth schema cs = .ok (v, rest)

/-- A member that is what a text gives for a field: the value of what is there for it, or the one of
an absent field. -/
structure FilledBy (given : List (String × List Char)) (f : String × Schema × Option Value)
    (m : String × Value) : Prop where
  name : m.1 = f.1
  absent : f.1 ∉ given.map Prod.fst → f.2.2 = some m.2
  present : ∀ {cs}, (f.1, cs) ∈ given → f.2.1.ReadsTo cs m.2

/-- The members of a record that are what a text gives for its fields. -/
abbrev Fills (fields : List (String × Schema × Option Value)) (given : List (String × List Char))
    (members : List (String × Value)) : Prop :=
  List.Forall₂ (FilledBy given) fields members

variable {fields : List (String × Schema × Option Value)} {members : List (String × Value)}

/-- The fields that are found while members are read, beside those that were found before. -/
structure Finds (fields : List (String × Schema × Option Value)) (given : List (String × List Char))
    (found found' : List (String × Value)) : Prop where
  absent : ∀ {name}, name ∉ given.map Prod.fst → found'.lookup name = found.lookup name
  present : ∀ {name schema absent cs}, fields.lookup name = some (schema, absent) →
    (name, cs) ∈ given → found.lookup name = none ∧
      ∃ v, found'.lookup name = some v ∧ schema.ReadsTo cs v

theorem Finds.nil (found : List (String × Value)) : Finds fields [] found found :=
  ⟨fun _ => rfl, fun _ h => (List.not_mem_nil h).elim⟩

theorem Finds.unknown {given : List (String × List Char)} {found found' : List (String × Value)}
    (h : Finds fields given found found') {name : String} (hname : fields.lookup name = none)
    (cs : List Char) : Finds fields ((name, cs) :: given) found found' := by
  constructor
  case absent =>
    intro other hother
    exact h.absent fun hmem => hother (List.mem_cons_of_mem _ hmem)
  case present =>
    intro other schema absent cs' hlookup hmem
    rcases List.mem_cons.mp hmem with heq | hmem
    · cases heq
      simp [hname] at hlookup
    · exact h.present hlookup hmem

theorem Finds.known {given : List (String × List Char)} {found found' : List (String × Value)}
    {name : String} {schema : Schema} {absent : Option Value} {v : Value} {cs : List Char}
    (h : Finds fields given ((name, v) :: found) found')
    (hname : fields.lookup name = some (schema, absent)) (hnew : found.lookup name = none)
    (hread : schema.ReadsTo cs v) : Finds fields ((name, cs) :: given) found found' := by
  -- A second value for the field would have been refused.
  have hlast : name ∉ given.map Prod.fst := by
    intro hmem
    obtain ⟨⟨_, cs'⟩, hgiven, rfl⟩ := List.mem_map.mp hmem
    simpa using (h.present hname hgiven).1
  have hother {other : String} (hne : other ≠ name) :
      ((name, v) :: found).lookup other = found.lookup other := by
    rw [List.lookup_cons, beq_eq_false_iff_ne.mpr hne]
  constructor
  case absent =>
    intro other hmem
    simp only [List.map_cons, List.mem_cons, not_or] at hmem
    rw [h.absent hmem.2, hother hmem.1]
  case present =>
    intro other schema' absent' cs' hlookup hmem
    rcases List.mem_cons.mp hmem with heq | hmore
    · cases heq
      cases hlookup.symm.trans hname
      exact ⟨hnew, v, by rw [h.absent hlast]; simp, hread⟩
    · have hne : other ≠ name := ne_of_mem_of_not_mem (List.mem_map_of_mem hmore) hlast
      rw [← hother hne]
      exact h.present hlookup hmore

/-- What an object has for its fields is found, and makes the members of the record. -/
theorem exists_finds_of_readMembers {fuel depth : Nat} {first : Bool}
    {found : List (String × Value)} {v : Value} {cs rest : List Char} (hdepth : depth ≤ maxDepth)
    (h : Schema.readMembers fuel depth fields first found cs = .ok (v, rest)) :
    ∃ given found' members, Entries first cs given ∧ Finds fields given found found' ∧
      finishRecord fields found' = .ok members ∧ v = .obj members := by
  -- By induction on the fuel: the first key ends the members, is one that nobody knows or names a
  -- field.
  induction fuel generalizing first found cs with
  | zero => simp [Schema.readMembers] at h
  | succ fuel ih =>
    cases membersStep_of_readMembers h with
    | close hnext hfinish => exact ⟨[], found, _, .nil hnext, .nil found, hfinish, rfl⟩
    | unknown hnext hkey hcolon hlookup hskip h =>
      obtain ⟨given, found', members, hentries, hfinds, hfinish⟩ := ih h
      exact ⟨_, found', members, .cons hnext hkey hcolon hskip hentries, hfinds.unknown hlookup _,
        hfinish⟩
    | field hnext hkey hcolon hlookup hnew hread h =>
      obtain ⟨given, found', members, hentries, hfinds, hfinish⟩ := ih h
      have hknown := hfinds.known hlookup hnew ⟨_, _, _, hdepth, hread⟩
      exact ⟨_, found', members, .cons hnext hkey hcolon (skipValue_of_readFrom hread) hentries,
        hknown, hfinish⟩

/-- The fields that were found and those that are absent make up a record that is filled. -/
theorem fills_of_finishRecord {given : List (String × List Char)} {found : List (String × Value)}
    (hfound : ∀ f ∈ fields, ∀ v, (found.lookup f.1).or f.2.2 = some v → FilledBy given f (f.1, v))
    (h : finishRecord fields found = .ok members) : Fills fields given members := by
  induction fields generalizing members with
  | nil =>
    cases h
    exact .nil
  | cons f fields ih =>
    -- What was found for the first field, or its value of an absent one, is the first member.
    obtain ⟨name, schema, absent⟩ := f
    obtain ⟨hfirst, hothers⟩ := List.forall_mem_cons.mp hfound
    have hcons {v : Value} (hv : (found.lookup name).or absent = some v)
        (h : (finishRecord fields found).map ((name, v) :: ·) = .ok members) :
        Fills ((name, schema, absent) :: fields) given members := by
      obtain ⟨others, hfinish, rfl⟩ := map_eq_ok h
      exact .cons (hfirst v hv) (ih hothers hfinish)
    simp only [finishRecord] at h
    split at h
    next v hlookup => exact hcons (by simp [hlookup]) h
    next hlookup =>
      split at h
      next v => exact hcons (by simp [hlookup]) h
      next => simp at h

/-- An item that is there stands for the first of the fields that are left. -/
theorem Fills.cons_item {name : String} {schema : Schema} {absent : Option Value} {v : Value}
    {item : List Char} {items : List (List Char)}
    (h : Fills fields ((fields.map Prod.fst).zip items) members)
    (hname : name ∉ fields.map Prod.fst) (hread : schema.ReadsTo item v) :
    Fills ((name, schema, absent) :: fields)
      ((((name, schema, absent) :: fields).map Prod.fst).zip (item :: items))
      ((name, v) :: members) := by
  rw [List.map_cons, List.zip_cons_cons]
  constructor
  · constructor
    case name => rfl
    case absent => simp
    case present =>
      intro cs hcs
      rcases List.mem_cons.mp hcs with heq | hmem
      · cases heq
        exact hread
      · exact (hname (List.of_mem_zip hmem).1).elim
  · -- The other fields have other names, so the item changes nothing for them.
    refine List.Forall₂.imp ?_ ((List.forall₂_and_left fields members).mpr ⟨fun f hf => hf, h⟩)
    rintro f m ⟨hf, hm⟩
    have hne : f.1 ≠ name := ne_of_mem_of_not_mem (List.mem_map_of_mem hf) hname
    constructor
    case name => exact hm.name
    case absent =>
      intro hmem
      exact hm.absent fun hmore => hmem (List.mem_cons_of_mem _ hmore)
    case present =>
      intro cs hcs
      rcases List.mem_cons.mp hcs with heq | hmem
      · exact (hne (Prod.mk.inj heq).1).elim
      · exact hm.present hmem

/-- An array is read field by field, and the fields behind its last item are absent. -/
theorem exists_fills_of_readItems {fuel depth total : Nat} {owner : String} {first : Bool}
    {done : List (String × Value)} {v : Value} {cs rest : List Char} (hdepth : depth ≤ maxDepth)
    (hnames : (fields.map Prod.fst).Nodup)
    (h : Schema.readItems fuel depth owner total fields first done cs = .ok (v, rest)) :
    ∃ items members, Items first cs items ∧ items.length ≤ fields.length ∧
      Fills fields ((fields.map Prod.fst).zip items) members ∧
      v = .obj (done.reverse ++ members) := by
  -- By induction on the fuel: the array is closed, has no item for a field, or has one.
  induction fuel generalizing fields first done cs with
  | zero => simp [Schema.readItems] at h
  | succ fuel ih =>
    cases itemsStep_of_readItems h with
    | close hspace =>
      have hnext : nextItem first cs = .ok none := by
        rw [nextItem, hspace]
        rfl
      exact ⟨[], [], .nil hnext, Nat.le_refl _, .nil, by simp⟩
    | @absent name _ w _ _ fields hnext h =>
      rw [List.map_cons, List.nodup_cons] at hnames
      obtain ⟨items, members, hitems, -, hfills, hv⟩ := ih hnames.2 h
      -- Nothing is there for the fields behind it either.
      obtain rfl : items = [] := by
        cases hitems with
        | nil => rfl
        | cons hnext' => simp [hnext] at hnext'
      refine ⟨[], (name, w) :: members, hitems, Nat.zero_le _, ?_, by simpa using hv⟩
      rw [List.zip_nil_right] at hfills ⊢
      exact .cons ⟨rfl, fun _ => rfl, fun hmem => (List.not_mem_nil hmem).elim⟩ hfills
    | @field name _ _ w _ _ _ _ fields hnext hread h =>
      rw [List.map_cons, List.nodup_cons] at hnames
      obtain ⟨items, members, hitems, hlength, hfills, hv⟩ := ih hnames.2 h
      exact ⟨_, (name, w) :: members, .cons hnext (skipValue_of_readFrom hread) hitems,
        Nat.succ_le_succ hlength, hfills.cons_item hnames.1 ⟨_, _, _, hdepth, hread⟩,
        by simpa using hv⟩

theorem readsTo_of_parse {schema : Schema} {text : String} {v : Value}
    (h : schema.parse text = .ok v) : schema.ReadsTo text.toList v := by
  obtain ⟨rest, hread⟩ := exists_readFrom_of_parse h
  exact ⟨_, _, rest, Nat.le_refl _, hread⟩

/-- A record is filled by what its text gives. -/
theorem fills_of_readsTo {owner : String} {v : Value} {cs : List Char}
    (hnames : (fields.map Prod.fst).Nodup) (h : (Schema.record owner fields).ReadsTo cs v) :
    ∃ given members, Gives (fields.map Prod.fst) cs given ∧ Fills fields given members ∧
      v = .obj members := by
  obtain ⟨fuel, depth, rest, hdepth, h⟩ := h
  cases fuel with
  | zero => simp [Schema.readFrom] at h
  | succ fuel =>
    -- An array fills the fields in their order, and an object by their names.
    cases valueStep_of_readFrom h with
    | array hspace h =>
      obtain ⟨items, members, hitems, hlength, hfills, hv⟩ :=
        exists_fills_of_readItems (Nat.le_of_succ_le hdepth) hnames h
      exact ⟨_, members, .array hspace hitems (by simpa using hlength), hfills, hv⟩
    | object hspace h =>
      obtain ⟨given, found, members, hentries, hfinds, hfinish, hv⟩ :=
        exists_finds_of_readMembers (Nat.le_of_succ_le hdepth) h
      refine ⟨given, members, .object hspace hentries, fills_of_finishRecord ?_ hfinish, hv⟩
      rintro ⟨name, schema, absent⟩ hf w hw
      refine ⟨rfl, fun hmem => ?_, fun {cs} hmem => ?_⟩
      · simpa [hfinds.absent hmem] using hw
      · obtain ⟨-, u, hu, hread⟩ := hfinds.present (lookup_of_mem hnames hf) hmem
        obtain rfl : u = w := by simpa [hu] using hw
        exact hread

/-- Each field has its member. -/
theorem Fills.member? {given : List (String × List Char)} (h : Fills fields given members)
    (hnames : (fields.map Prod.fst).Nodup) {f : String × Schema × Option Value} (hf : f ∈ fields) :
    ∃ v, (Value.obj members).member? f.1 = some v ∧ FilledBy given f (f.1, v) := by
  simp only [Value.member?]
  induction h with
  | nil => cases hf
  | @cons g m fields members hm _ ih =>
    obtain ⟨name, v⟩ := m
    obtain rfl : name = g.1 := hm.name
    rw [List.map_cons, List.nodup_cons] at hnames
    rcases List.mem_cons.mp hf with rfl | hf
    · exact ⟨v, by rw [Members.get?, if_pos rfl], hm⟩
    · have hne : f.1 ≠ g.1 := ne_of_mem_of_not_mem (List.mem_map_of_mem hf) hnames.1
      rw [Members.get?, if_neg hne]
      exact ih hnames.2 hf

/-- Where nothing is given, each field has its value of an absent field. -/
theorem member?_of_finishRecord_nil (h : finishRecord fields [] = .ok members)
    (hnames : (fields.map Prod.fst).Nodup) {f : String × Schema × Option Value} (hf : f ∈ fields) :
    ∃ v, (Value.obj members).member? f.1 = some v ∧ f.2.2 = some v := by
  have hfills : Fills fields [] members := by
    refine fills_of_finishRecord ?_ h
    intro g _ v hv
    exact ⟨rfl, fun _ => by simpa using hv, fun hmem => (List.not_mem_nil hmem).elim⟩
  obtain ⟨v, hv, hfilled⟩ := hfills.member? hnames hf
  exact ⟨v, hv, hfilled.absent List.not_mem_nil⟩

/-! ## §3 Values of fields -/

/-- A schema without records, optional values and choices. -/
inductive Plain : Schema → Prop where
  | text {expected : String} : Plain (.text expected)
  | flag : Plain .flag
  | integer {least greatest : Int} {expected : String} : Plain (.integer least greatest expected)
  | list {item : Schema} : Plain item → Plain (.list item)

theorem readValue_skipSpace (fuel depth : Nat) (cs : List Char) :
    readValue (fuel + 1) depth (skipSpace cs) = readValue (fuel + 1) depth cs := by
  rw [readValue, readValue, skipSpace, skipSpace, List.dropWhile_idempotent]

theorem readValue_of_readText {expected s : String} {cs rest : List Char}
    (h : readText expected cs = .ok (s, rest)) (fuel depth : Nat) :
    readValue (fuel + 1) depth cs = .ok (.str s, rest) := by
  obtain ⟨after, hspace, hstring⟩ := readText_eq_ok h
  simp [readValue, hspace, hstring, bind, Except.bind, pure, Except.pure]

theorem readValue_of_readFlag {cs rest : List Char} {v : Value} (h : readFlag cs = .ok (v, rest))
    (fuel depth : Nat) : readValue (fuel + 1) depth cs = .ok (v, rest) := by
  obtain ⟨_, ⟨hspace, hword, rfl⟩ | ⟨hspace, hword, rfl⟩⟩ := readFlag_eq_ok h
  · simp [readValue, hspace, hword, bind, Except.bind, pure, Except.pure]
  · simp [readValue, hspace, hword, bind, Except.bind, pure, Except.pure]

theorem readValue_of_readInteger {least greatest : Int} {expected : String} {v : Value}
    {cs rest : List Char} (h : readInteger least greatest expected cs = .ok (v, rest))
    (fuel depth : Nat) : readValue (fuel + 1) depth cs = .ok (v, rest) := by
  obtain ⟨n, -, -, rfl, ⟨after, hspace, hnumber⟩ | ⟨c, after, hspace, hdigit, hnumber⟩⟩ :=
    readInteger_eq_ok h
  · simp [readValue, hspace, hnumber]
  · rw [← readValue_skipSpace, hspace, readValue_of_isDigit fuel depth hdigit, hnumber]

/-- What is read of plain values at some amount of fuel is read whatever is expected, with fuel that is
enough for any text. -/
structure ReadsPlain (fuel : Nat) : Prop where
  value {depth depth' more : Nat} {schema : Schema} {v : Value} {cs rest : List Char} :
    schema.Plain → Schema.readFrom fuel depth schema cs = .ok (v, rest) → depth ≤ depth' →
      2 * cs.length < more → readValue more depth' cs = .ok (v, rest)
  list {depth depth' more : Nat} {item : Schema} {first : Bool} {done : List Value} {v : Value}
    {cs rest : List Char} :
    item.Plain → Schema.readList fuel depth item first done cs = .ok (v, rest) → depth ≤ depth' →
      2 * cs.length + 1 < more → Json.readItems more depth' first done cs = .ok (v, rest)

theorem ReadsPlain.value_succ {fuel : Nat} (ih : ReadsPlain fuel) {depth depth' more : Nat}
    {schema : Schema} {v : Value} {cs rest : List Char} (hplain : schema.Plain)
    (h : Schema.readFrom (fuel + 1) depth schema cs = .ok (v, rest)) (hdepth : depth ≤ depth')
    (hmore : 2 * cs.length < more) : readValue more depth' cs = .ok (v, rest) := by
  obtain ⟨more, rfl⟩ : ∃ n, more = n + 1 := ⟨more - 1, by omega⟩
  cases hplain <;> cases valueStep_of_readFrom h
  case text h => exact readValue_of_readText h more depth'
  case flag h => exact readValue_of_readFlag h more depth'
  case integer h => exact readValue_of_readInteger h more depth'
  case list hitem _ _ hspace h =>
    have hafter := length_of_skipSpace hspace
    obtain ⟨depth', rfl⟩ : ∃ n, depth' = n + 1 := ⟨depth' - 1, by omega⟩
    rw [readValue, hspace]
    exact ih.list hitem h (Nat.le_of_succ_le_succ hdepth) (by omega)

theorem length_le_of_nextItem {first : Bool} {cs item : List Char}
    (h : nextItem first cs = .ok (some item)) : item.length ≤ cs.length := by
  obtain ⟨-, ⟨-, rfl⟩ | ⟨-, after, hspace, rfl⟩⟩ := nextItem_eq_some h
  · exact length_dropWhile_le isSpace cs
  · exact (length_dropWhile_le isSpace after).trans (length_of_skipSpace hspace).le

theorem readsPlain (fuel : Nat) : ReadsPlain fuel := by
  induction fuel with
  | zero => constructor <;> intros <;> simp_all [Schema.readFrom, Schema.readList]
  | succ fuel ih =>
    constructor
    case value => exact ih.value_succ
    case list =>
      intro depth depth' more item first done v cs rest hitem h hdepth hmore
      obtain ⟨more, rfl⟩ : ∃ n, more = n + 1 := ⟨more - 1, by omega⟩
      rw [Json.readItems]
      cases listStep_of_readList h with
      | close hnext => simp only [hnext]
      | @item after last _ w _ hnext hread h =>
        have hafter := length_le_of_nextItem hnext
        have hlast := ((readsPassed fuel).value hread).length_lt
        -- The item took a character, which pays for the step.
        have hvalue : readValue more depth' after = .ok (w, last) :=
          ih.value hitem hread hdepth (by omega)
        simp only [hnext, hvalue]
        exact ih.list hitem h hdepth (by omega)

theorem ReadsTo.means_of_plain {schema : Schema} {cs : List Char} {v : Value}
    (h : schema.ReadsTo cs v) (hplain : schema.Plain) : Means cs v := by
  obtain ⟨fuel, depth, rest, hdepth, h⟩ := h
  refine ⟨v, rest, (readsPlain fuel).value hplain h hdepth ?_, .inl rfl⟩
  simp only [enough]
  omega

/-- An object of a name and `null` is read as such. -/
theorem readValue_of_unit {s : String} {cs after key more value unit rest : List Char}
    (hspace : skipSpace cs = '{' :: after) (hquote : skipSpace after = '"' :: key)
    (hstring : string key = .ok (s, more)) (hcolon : colon more = .ok value)
    (hunit : readUnit value = .ok unit) (hclose : skipSpace unit = '}' :: rest) (fuel depth : Nat) :
    readValue (fuel + 3) (depth + 1) cs = .ok (.obj [(s, .null)], rest) := by
  have hfirst : nextKey true after = .ok (some key) := by simp [nextKey, hquote]
  have hlast : nextKey false unit = .ok none := by simp [nextKey, hclose]
  have hvalue : readValue (fuel + 1) depth value = .ok (.null, unit) := by
    obtain ⟨_, hnull, hword⟩ := readUnit_eq_ok hunit
    simp [readValue, hnull, hword, bind, Except.bind, pure, Except.pure]
  have hend : Json.readMembers (fuel + 1) depth false [(s, .null)] unit =
      .ok (.obj [(s, .null)], rest) := by
    simp [Json.readMembers, hlast, afterClose, hclose]
  rw [readValue, hspace]
  simp only [Json.readMembers, hfirst, hstring, hcolon, hvalue]
  exact hend

/-- A name that has no other spelling is read as itself. -/
theorem ReadsTo.means_of_names {l : List String} {cs : List Char} {v : Value}
    (h : (Schema.choice (Json.names l)).ReadsTo cs v) : Means cs v := by
  obtain ⟨fuel, depth, rest, hdepth, h⟩ := h
  cases fuel with
  | zero => simp [Schema.readFrom] at h
  | succ fuel =>
    rw [Schema.readFrom] at h
    obtain ⟨s, name, hlookup, rfl, hread⟩ := readChoice_eq_ok h
    obtain rfl := eq_of_lookup_names hlookup
    rcases hread with ⟨after, hspace, hstring⟩ | ⟨after, key, more, value, unit, -, hspace, hquote,
      hstring, hcolon, hunit, hclose⟩
    · refine ⟨.str s, rest, ?_, .inl rfl⟩
      simp [Value.read, enough, readValue, hspace, hstring, bind, Except.bind, pure, Except.pure]
    · refine ⟨.obj [(s, .null)], rest, ?_, .inr ⟨s, rfl, rfl⟩⟩
      -- The brace is a character, so the fuel is enough for the object and the `null` in it.
      have hcs := length_of_skipSpace hspace
      have hfuel : enough cs = 2 * cs.length - 1 + 3 := by
        simp only [enough]
        omega
      rw [Value.read, hfuel]
      exact readValue_of_unit hspace hquote hstring hcolon hunit hclose _ _

end Schema

end QueryPlayground.Json
