import QueryPlayground.Configuration
import QueryPlayground.Proofs.Json.Given
import QueryPlayground.Proofs.Json.Written

/-!
# What a file says of the settings

Settings that are read from a file are what the file says: a field that is there has its own value and
one that is not has its default, whichever sections and fields are there and in whatever order. What
is written for them has all fields and is read as the same settings again.

Main statements: `Configuration.saidBy_of_parse` and `Configuration.parse_pretty`.
-/

namespace QueryPlayground

open QueryPlayground.Json

namespace Configuration

/-! ## §1 Sections and fields -/

/-- The sections with the names of their fields. -/
def sections : List (String × List String) :=
  [("store", ["path", "max_entries", "max_entry_size"]),
    ("apply", ["auto_apply", "debounce_ms", "indent", "eval_timeout_ms"]),
    ("evaluator", ["engine", "program", "args"]),
    ("share", ["base_url", "max_payload_chars", "expiration_secs", "connect_timeout_secs"]),
    ("logging", ["level"])]

/-- The value of a field of a section, as it is written. -/
def value? (c : Configuration) (part field : String) : Option Value :=
  (((codec "").encode c).member? part).bind (·.member? field)

/-- A field has the value that the text of it means where there is one, and otherwise its default. -/
structure FieldSaid (c blank : Configuration) (part field : String)
    (given : List (String × List Char)) : Prop where
  absent : field ∉ given.map Prod.fst → c.value? part field = blank.value? part field
  present : ∀ cs, (field, cs) ∈ given → ∃ v, c.value? part field = some v ∧ Means cs v

/-- The fields of a section are what the text of it gives for them where there is one, and otherwise
their defaults. -/
structure SectionSaid (c blank : Configuration) (part : String) (fields : List String)
    (given : List (String × List Char)) : Prop where
  absent : part ∉ given.map Prod.fst →
    ∀ field ∈ fields, c.value? part field = blank.value? part field
  present : ∀ cs, (part, cs) ∈ given →
    ∃ found, Gives fields cs found ∧ ∀ field ∈ fields, c.FieldSaid blank part field found

/-- The settings that a text says. -/
def SaidBy (c : Configuration) (store : String) (cs : List Char) : Prop :=
  ∃ given, Gives (sections.map Prod.fst) cs given ∧
    ∀ part fields, (part, fields) ∈ sections → c.SectionSaid (default store) part fields given

/-! ## §2 Values and settings -/

/-- A value with a text is that string. -/
theorem eq_str_of_text? {v : Value} {s : String} (h : v.text? = some s) : v = .str s := by
  cases v <;> simp_all [Value.text?]

/-- A value with a truth value is that one. -/
theorem eq_bool_of_flag? {v : Value} {b : Bool} (h : v.flag? = some b) : v = .bool b := by
  cases v <;> simp_all [Value.flag?]

/-- A value with a natural number is that integer. -/
theorem eq_int_of_nat? {v : Value} {n : Nat} (h : v.nat? = some n) : v = .int n := by
  unfold Value.nat? at h
  split at h
  next =>
    cases h
    rfl
  next => cases h

/-- A value with items is the array of them. -/
theorem eq_arr_of_items? {v : Value} {vs : List Value} (h : v.items? = some vs) : v = .arr vs := by
  cases v <;> simp_all [Value.items?]

/-- Values that all have texts are those strings. -/
theorem eq_map_str_of_mapM {vs : List Value} {ts : List String} (h : vs.mapM Value.text? = some ts) :
    vs = ts.map .str := by
  induction vs generalizing ts with
  | nil =>
    cases h
    rfl
  | cons v vs ih =>
    rw [List.mapM_cons] at h
    obtain ⟨t, ht, h⟩ := Option.bind_eq_some_iff.mp h
    obtain ⟨ts', hts, h⟩ := Option.bind_eq_some_iff.mp h
    cases h
    rw [eq_str_of_text? ht, ih hts, List.map_cons]

/-- The name of an engine is the one by which it is found. -/
theorem name_of_ofName? {s : String} {e : Engine} (h : Engine.ofName? s = some e) : s = e.name := by
  have hname := List.find?_some h
  exact (beq_iff_eq.mp hname).symm

/-- An object is told by the names of its members and the member of each name. -/
theorem obj_eq_of_member? {members members' : List (String × Value)}
    (hnames : members'.map Prod.fst = members.map Prod.fst) (hnodup : (members'.map Prod.fst).Nodup)
    (h : ∀ m ∈ members', (Value.obj members).member? m.1 = some m.2) :
    Value.obj members' = .obj members := by
  congr 1
  simp only [Value.member?] at h
  -- By induction on the members: the first name of both is the same, and no later one is equal to
  -- it.
  induction members' generalizing members with
  | nil => exact (List.map_eq_nil_iff.mp hnames.symm).symm
  | cons m members' ih =>
    obtain ⟨name, v⟩ := m
    obtain ⟨⟨name', w⟩, rest, rfl, hname, hrest⟩ := List.map_eq_cons_iff.mp hnames.symm
    obtain rfl : name' = name := hname
    obtain ⟨hfirst, hothers⟩ := List.forall_mem_cons.mp h
    rw [List.map_cons, List.nodup_cons] at hnodup
    obtain rfl : w = v := by simpa [Members.get?] using hfirst
    rw [ih hrest.symm hnodup.2]
    intro m hm
    have hne : m.1 ≠ name' := ne_of_mem_of_not_mem (List.mem_map_of_mem hm) hnodup.1
    simpa [Members.get?, hne] using hothers m hm

/-- One of several names stands for itself. -/
theorem lookup_names {l : List String} {s : String} (h : s ∈ l) :
    (Json.names l).lookup s = some s := by
  induction l with
  | nil => cases h
  | cons n l ih =>
    rw [Json.names, List.map_cons, List.lookup_cons]
    split
    next heq => rw [beq_iff_eq.mp heq]
    next hne =>
      have hmem := (List.mem_cons.mp h).resolve_left (beq_eq_false_iff_ne.mp hne)
      exact ih hmem

/-! ## §3 Sections -/

/-- A field that may be absent: a text, a truth value, a size, a name or a list of texts. -/
inductive IsField : String × Schema × Option Value → Prop where
  | text {name expected s : String} : IsField (name, .text expected, some (.str s))
  | flag {name : String} {b : Bool} : IsField (name, .flag, some (.bool b))
  | size {name expected : String} {n : Nat} : n ≤ MachineWord.maxUnsigned →
      IsField (name, .integer 0 MachineWord.maxUnsigned expected, some (.int n))
  | name {name s : String} {l : List String} : s ∈ l →
      IsField (name, .choice (Json.names l), some (.str s))
  | texts {name expected : String} : IsField (name, .list (.text expected), some (.arr []))

/-- A field of that kind can be told from its text. -/
theorem IsField.definite {f : String × Schema × Option Value} (h : IsField f) (d : Nat) :
    f.2.1.Definite (d + 1) := by
  cases h with
  | text => exact .text
  | flag => exact .flag
  | size => exact .integer (by decide) (Int.le_refl _)
  | name => exact .names
  | texts => exact .list .text

/-- The value of a field that is absent is one of its kind. -/
theorem IsField.admits {f : String × Schema × Option Value} (h : IsField f) {v : Value}
    (hv : f.2.2 = some v) : f.2.1.Admits v := by
  cases h <;> cases hv
  case text => exact .text
  case flag => exact .flag
  case size n hn => exact .integer (Int.natCast_nonneg n) (Int.ofNat_le.mpr hn)
  case name s l hs => exact .choice (lookup_names hs)
  case texts => exact .list (by simp)

/-- A text that is read for a field means what is read. -/
theorem IsField.means {f : String × Schema × Option Value} (h : IsField f) {cs : List Char}
    {v : Value} (hv : f.2.1.ReadsTo cs v) : Means cs v := by
  cases h with
  | text => exact hv.means_of_plain .text
  | flag => exact hv.means_of_plain .flag
  | size => exact hv.means_of_plain .integer
  | name => exact hv.means_of_names
  | texts => exact hv.means_of_plain (.list .text)

/-- A codec of a section and its default: a text is a record of some fields of which none has to be
there, the record of none of them is the default, and what is read for settings is what is written
for them. -/
structure IsSection {α : Type} (k : Codec α) (blank : α) (fields : Fields) : Prop where
  schema : ∃ owner, k.schema = .record owner fields
  ne_nil : fields ≠ []
  nodup : (fields.map Prod.fst).Nodup
  settable : ∀ f ∈ fields, IsField f
  blank : ∃ members, k.encode blank = .obj members ∧ finishRecord fields [] = .ok members
  encode : ∀ {members a}, members.map Prod.fst = fields.map Prod.fst →
    k.decode? (.obj members) = some a → k.encode a = .obj members

/-- The codec of the place and limits of the history. -/
theorem Store.isSection (path : String) :
    IsSection (Store.codec path) (.default path)
      [("path", pathSchema, some (.str path)), ("max_entries", sizeSchema, some (.int 100)),
        ("max_entry_size", sizeSchema, some (.int 50000))] := by
  refine ⟨⟨_, rfl⟩, List.cons_ne_nil _ _, by simp, ?_, ⟨_, rfl, rfl⟩, ?_⟩
  · simp only [List.forall_mem_cons]
    exact ⟨.text, .size (by decide), .size (by decide), by simp⟩
  · intro members s hnames h
    simp only [Store.codec, Option.bind_eq_bind, Option.bind_eq_some_iff] at h
    -- Each member is what was decoded from it, so writing the section gives the members again.
    obtain ⟨_, hpath, _, htext, _, hentries, _, hcount, _, hsize, _, hlimit, h⟩ := h
    cases h
    rw [eq_str_of_text? htext] at hpath
    rw [eq_int_of_nat? hcount] at hentries
    rw [eq_int_of_nat? hlimit] at hsize
    exact obj_eq_of_member? hnames.symm (by simp) (by simp [hpath, hentries, hsize])

/-- The codec of what is done when inputs change. -/
theorem Apply.isSection :
    IsSection Apply.codec .default
      [("auto_apply", .flag, some (.bool true)), ("debounce_ms", unsignedSchema, some (.int 500)),
        ("indent", sizeSchema, some (.int 2)),
        ("eval_timeout_ms", unsignedSchema, some (.int 30000))] := by
  refine ⟨⟨_, rfl⟩, List.cons_ne_nil _ _, by simp, ?_, ⟨_, rfl, rfl⟩, ?_⟩
  · simp only [List.forall_mem_cons]
    exact ⟨.flag, .size (by decide), .size (by decide), .size (by decide), by simp⟩
  · intro members a hnames h
    simp only [Apply.codec, Option.bind_eq_bind, Option.bind_eq_some_iff] at h
    obtain ⟨_, hauto, _, hflag, _, hdebounce, _, hquiet, _, hindent, _, hspaces, _, htimeout, _,
      hlimit, h⟩ := h
    cases h
    rw [eq_bool_of_flag? hflag] at hauto
    rw [eq_int_of_nat? hquiet] at hdebounce
    rw [eq_int_of_nat? hspaces] at hindent
    rw [eq_int_of_nat? hlimit] at htimeout
    exact obj_eq_of_member? hnames.symm (by simp) (by simp [hauto, hdebounce, hindent, htimeout])

/-- The codec of the engine and its program. -/
theorem Evaluator.isSection :
    IsSection Evaluator.codec .default
      [("engine", .choice (Json.names ["builtin", "command"]), some (.str "builtin")),
        ("program", textSchema, some (.str "jq")), ("args", .list textSchema, some (.arr []))] := by
  refine ⟨⟨_, rfl⟩, List.cons_ne_nil _ _, by simp, ?_, ⟨_, rfl, rfl⟩, ?_⟩
  · simp only [List.forall_mem_cons]
    exact ⟨.name (by simp), .text, .texts, by simp⟩
  · intro members e hnames h
    simp only [Evaluator.codec, Option.bind_eq_bind, Option.bind_eq_some_iff] at h
    obtain ⟨_, hengine, _, ⟨_, htext, hname⟩, _, hprogram, _, hcommand, _, hargs, _, hitems, _, hlist,
      h⟩ := h
    cases h
    -- The name is the one that the engine has, and the arguments are texts.
    rw [eq_str_of_text? htext, name_of_ofName? hname] at hengine
    rw [eq_str_of_text? hcommand] at hprogram
    rw [eq_arr_of_items? hitems, eq_map_str_of_mapM hlist] at hargs
    exact obj_eq_of_member? hnames.symm (by simp) (by simp [hengine, hprogram, hargs])

/-- The codec of what is shared and where. -/
theorem Share.isSection :
    IsSection Share.codec .default
      [("base_url", textSchema, some (.str Share.default.baseUrl)),
        ("max_payload_chars", sizeSchema, some (.int 500000)),
        ("expiration_secs", unsignedSchema, some (.int 604800)),
        ("connect_timeout_secs", unsignedSchema, some (.int 5))] := by
  refine ⟨⟨_, rfl⟩, List.cons_ne_nil _ _, by simp, ?_, ⟨_, rfl, rfl⟩, ?_⟩
  · simp only [List.forall_mem_cons]
    exact ⟨.text, .size (by decide), .size (by decide), .size (by decide), by simp⟩
  · intro members s hnames h
    simp only [Share.codec, Option.bind_eq_bind, Option.bind_eq_some_iff] at h
    obtain ⟨_, hurl, _, htext, _, hchars, _, hpayload, _, hexpiration, _, hkept, _, htimeout, _,
      hlimit, h⟩ := h
    cases h
    rw [eq_str_of_text? htext] at hurl
    rw [eq_int_of_nat? hpayload] at hchars
    rw [eq_int_of_nat? hkept] at hexpiration
    rw [eq_int_of_nat? hlimit] at htimeout
    exact obj_eq_of_member? hnames.symm (by simp) (by simp [hurl, hchars, hexpiration, htimeout])

/-- The codec of the log. -/
theorem Logging.isSection :
    IsSection Logging.codec .default [("level", textSchema, some (.str "warn"))] := by
  refine ⟨⟨_, rfl⟩, List.cons_ne_nil _ _, by simp, ?_, ⟨_, rfl, rfl⟩, ?_⟩
  · simp only [List.forall_mem_cons]
    exact ⟨.text, by simp⟩
  · intro members l hnames h
    simp only [Logging.codec, Option.bind_eq_bind, Option.bind_eq_some_iff] at h
    obtain ⟨_, hlevel, _, htext, h⟩ := h
    cases h
    rw [eq_str_of_text? htext] at hlevel
    exact obj_eq_of_member? hnames.symm (by simp) (by simp [hlevel])

/-! ## §4 What is said of a section -/

namespace IsSection

variable {α : Type} {k : Codec α} {blank : α} {fields : Fields}

/-- The default of a section is a record of its schema. -/
theorem admits_blank (h : IsSection k blank fields) : k.schema.Admits (k.encode blank) := by
  obtain ⟨owner, hschema⟩ := h.schema
  obtain ⟨members, hmembers, hfinish⟩ := h.blank
  rw [hschema, hmembers]
  exact Schema.admits_of_finishRecord_nil hfinish

/-- A section can be told from its text, two levels deep. -/
theorem definite (h : IsSection k blank fields) (d : Nat) : k.schema.Definite (d + 2) := by
  obtain ⟨owner, hschema⟩ := h.schema
  rw [hschema]
  refine .record h.ne_nil h.nodup (fun f hf => (h.settable f hf).definite d) ?_
  intro f hf v hv
  exact (h.settable f hf).admits hv

/-- What was read for a section is what is written for it. -/
theorem encode_of_admits (h : IsSection k blank fields) {v : Value} {a : α}
    (hv : k.schema.Admits v) (hdecode : k.decode? v = some a) : k.encode a = v := by
  obtain ⟨owner, hschema⟩ := h.schema
  rw [hschema] at hv
  cases hv with
  | record hnames => exact h.encode hnames hdecode

/-- A section is what its text says, and its default where there is none. -/
theorem said (h : IsSection k blank fields) {c d : Configuration} {part : String} {v : Value}
    {given : List (String × List Char)} (hc : ((codec "").encode c).member? part = some v)
    (hd : ((codec "").encode d).member? part = some (k.encode blank))
    (hfilled : Schema.FilledBy given (part, k.schema, some (k.encode blank)) (part, v)) :
    c.SectionSaid d part (fields.map Prod.fst) given := by
  constructor
  case absent =>
    intro habsent field _
    have hv : some (k.encode blank) = some v := hfilled.absent habsent
    -- The section is the default one as a whole.
    rw [value?, value?, hc, hd, hv]
  case present =>
    intro cs hpresent
    have hread : k.schema.ReadsTo cs v := hfilled.present hpresent
    obtain ⟨owner, hschema⟩ := h.schema
    rw [hschema] at hread
    obtain ⟨found, members, hgives, hfills, rfl⟩ := Schema.fills_of_readsTo h.nodup hread
    refine ⟨found, hgives, fun field hfield => ?_⟩
    obtain ⟨f, hf, rfl⟩ := List.mem_map.mp hfield
    obtain ⟨w, hw, hfilled⟩ := hfills.member? h.nodup hf
    obtain ⟨blanks, hblanks, hfinish⟩ := h.blank
    -- A field that is absent has its value of the record without fields, which is the default.
    obtain ⟨u, hu, habsent⟩ := Schema.member?_of_finishRecord_nil hfinish h.nodup hf
    have hcw : c.value? part f.1 = some w := by rw [value?, hc, Option.bind_some, hw]
    have hdu : d.value? part f.1 = some u := by rw [value?, hd, Option.bind_some, hblanks, hu]
    constructor
    case absent =>
      intro hmem
      rw [hcw, hdu, ← habsent]
      exact (hfilled.absent hmem).symm
    case present =>
      intro cs hcs
      exact ⟨w, hcw, (h.settable f hf).means (hfilled.present hcs)⟩

end IsSection

/-! ## §5 What is said of all settings -/

/-- The sections as fields of the whole. -/
def sectionFields (store : String) : Fields :=
  [("store", (Store.codec store).schema, some ((Store.codec store).encode (.default store))),
    ("apply", Apply.codec.schema, some (Apply.codec.encode .default)),
    ("evaluator", Evaluator.codec.schema, some (Evaluator.codec.encode .default)),
    ("share", Share.codec.schema, some (Share.codec.encode .default)),
    ("logging", Logging.codec.schema, some (Logging.codec.encode .default))]

/-- The schema of all settings is the record of the sections. -/
theorem codec_schema (store : String) :
    (codec store).schema = .record "Config" (sectionFields store) :=
  rfl

/-- No two sections have one name. -/
theorem nodup_sectionFields (store : String) : ((sectionFields store).map Prod.fst).Nodup := by
  simp [sectionFields]

/-- All settings can be told from their text, three levels deep. -/
theorem definite_codec (store : String) (d : Nat) : (codec store).schema.Definite (d + 3) := by
  refine .record (List.cons_ne_nil _ _) (nodup_sectionFields store) ?_ ?_
  · simp only [List.forall_mem_cons]
    exact ⟨(Store.isSection store).definite d, Apply.isSection.definite d,
      Evaluator.isSection.definite d, Share.isSection.definite d, Logging.isSection.definite d,
      by simp⟩
  · simp only [List.forall_mem_cons, Option.some.injEq, forall_eq']
    exact ⟨(Store.isSection store).admits_blank, Apply.isSection.admits_blank,
      Evaluator.isSection.admits_blank, Share.isSection.admits_blank,
      Logging.isSection.admits_blank, by simp⟩

/-- What the reader makes of a text is what the text says. -/
theorem saidBy_of_readsTo {store : String} {c : Configuration} {cs : List Char}
    (h : (codec store).schema.ReadsTo cs ((codec store).encode c)) : c.SaidBy store cs := by
  rw [codec_schema] at h
  obtain ⟨given, members, hgives, hfills, hc⟩ :=
    Schema.fills_of_readsTo (nodup_sectionFields store) h
  -- Each of the five sections is found among the members and is said by its own text.
  have hsaid {α : Type} {k : Codec α} {blank : α} {fields : Fields} {part : String}
      (hsection : IsSection k blank fields)
      (hpart : (part, k.schema, some (k.encode blank)) ∈ sectionFields store)
      (hd : ((codec "").encode (default store)).member? part = some (k.encode blank)) :
      c.SectionSaid (default store) part (fields.map Prod.fst) given := by
    obtain ⟨v, hv, hfilled⟩ := hfills.member? (nodup_sectionFields store) hpart
    rw [← hc] at hv
    exact hsection.said hv hd hfilled
  refine ⟨given, hgives, ?_⟩
  intro part fields hpart
  simp only [sections, List.mem_cons, Prod.mk.injEq, List.not_mem_nil, or_false] at hpart
  rcases hpart with ⟨rfl, rfl⟩ | ⟨rfl, rfl⟩ | ⟨rfl, rfl⟩ | ⟨rfl, rfl⟩ | ⟨rfl, rfl⟩
  · exact hsaid (Store.isSection store) (by simp [sectionFields]) rfl
  · exact hsaid Apply.isSection (by simp [sectionFields]) rfl
  · exact hsaid Evaluator.isSection (by simp [sectionFields]) rfl
  · exact hsaid Share.isSection (by simp [sectionFields]) rfl
  · exact hsaid Logging.isSection (by simp [sectionFields]) rfl

/-- What is read for all settings is what is written for them. -/
theorem encode_of_admits {store : String} {v : Value} {c : Configuration}
    (hv : (codec store).schema.Admits v) (h : (codec store).decode? v = some c) :
    (codec store).encode c = v := by
  -- Each section of the settings is the member that it was decoded from.
  have hmember {α : Type} {k : Codec α} {blank : α} {fields : Fields} {part : String} {w : Value}
      {a : α} (hsection : IsSection k blank fields)
      (hpart : (part, k.schema, some (k.encode blank)) ∈ sectionFields store)
      (hw : v.member? part = some w) (hdecode : k.decode? w = some a) :
      v.member? part = some (k.encode a) := by
    obtain ⟨u, hu, hadmits⟩ := (definite_codec store 0).member? hv hpart
    cases hw.symm.trans hu
    rw [hw, hsection.encode_of_admits hadmits hdecode]
  simp only [codec, Option.bind_eq_bind, Option.bind_eq_some_iff] at h
  obtain ⟨_, hstore, _, hstore', _, happly, _, happly', _, hevaluator, _, hevaluator', _, hshare, _,
    hshare', _, hlogging, _, hlogging', h⟩ := h
  cases h
  have hstore := hmember (Store.isSection store) (by simp [sectionFields]) hstore hstore'
  have happly := hmember Apply.isSection (by simp [sectionFields]) happly happly'
  have hevaluator := hmember Evaluator.isSection (by simp [sectionFields]) hevaluator hevaluator'
  have hshare := hmember Share.isSection (by simp [sectionFields]) hshare hshare'
  have hlogging := hmember Logging.isSection (by simp [sectionFields]) hlogging hlogging'
  cases hv with
  | record hnames =>
    exact obj_eq_of_member? hnames.symm (by simp)
      (by simp [hstore, happly, hevaluator, hshare, hlogging])

/-! ## §6 Loading and saving -/

/-- Settings are read from the value that is written for them. -/
theorem exists_value_of_parse {store text : String} {c : Configuration}
    (h : (codec store).parse text = .ok c) :
    (codec store).schema.parse text = .ok ((codec store).encode c) ∧
      (codec store).decode? ((codec store).encode c) = some c := by
  obtain ⟨v, hv, h⟩ := bind_eq_ok h
  split at h
  next hdecode =>
    cases h
    rw [encode_of_admits (Schema.admits_of_parse hv) hdecode]
    exact ⟨hv, hdecode⟩
  next => simp at h

/-- Settings that were read are what the text says. -/
theorem saidBy_of_parse {store text : String} {c : Configuration}
    (h : (codec store).parse text = .ok c) : c.SaidBy store text.toList :=
  saidBy_of_readsTo (Schema.readsTo_of_parse (exists_value_of_parse h).1)

/-- What is written for settings that were read is read as the same. -/
theorem parse_pretty {store text : String} {c : Configuration}
    (h : (codec store).parse text = .ok c) (indent : Nat) :
    (codec store).parse (((codec store).encode c).pretty indent) = .ok c := by
  obtain ⟨hparse, hdecode⟩ := exists_value_of_parse h
  have hread := (definite_codec store 124).parse_pretty (Schema.admits_of_parse hparse) indent
  rw [Codec.parse, hread]
  simp [hdecode, bind, Except.bind, pure, Except.pure]

/-- A text is loaded if it is read and has no flaw. -/
theorem load_eq_ok_iff {store text : String} {c : Configuration} :
    load store (some text) = .ok c ↔ (codec store).parse text = .ok c ∧ c.validate = .ok () := by
  rw [load]
  -- A text is refused by the reader or for its first flaw, and otherwise loaded.
  cases (codec store).parse text with
  | error e => simp [Except.mapError, bind, Except.bind]
  | ok c' =>
    cases hvalid : c'.validate with
    | error e =>
      simp only [Except.mapError, hvalid, bind, Except.bind, reduceCtorEq, false_iff, not_and]
      rintro h hc
      cases h
      simp [hvalid] at hc
    | ok =>
      simp only [Except.mapError, hvalid, bind, Except.bind, pure, Except.pure]
      constructor
      · intro h
        cases h
        exact ⟨rfl, hvalid⟩
      · rintro ⟨h, -⟩
        cases h
        rfl

/-- The defaults have no flaw. -/
theorem validate_default (store : String) : (default store).validate = .ok () := by
  -- Where the history is kept plays no part in what is valid.
  have hflaw : (default store).flaw? = (default "").flaw? := rfl
  rw [validate, hflaw, show (default "").flaw? = none by decide]

/-- Settings that are loaded have no flaw. -/
theorem validate_of_load {store : String} {text : Option String} {c : Configuration}
    (h : load store text = .ok c) : c.validate = .ok () := by
  cases text with
  | none =>
    cases h
    exact validate_default store
  | some text => exact (load_eq_ok_iff.mp h).2

/-- Settings without a flaw are saved as they are written. -/
theorem save_of_validate {store : String} {c : Configuration} (h : c.validate = .ok ()) :
    save store c = .ok (((codec store).encode c).pretty 2) := by
  simp [save, h, bind, Except.bind, pure, Except.pure]

/-- Settings with a flaw are not saved. -/
theorem save_of_flaw {store : String} {c : Configuration} {e : Error} (h : c.validate = .error e) :
    save store c = .error e := by
  simp [save, h, bind, Except.bind]

/-- Settings that were loaded from a text are saved to one from which they are loaded again. -/
theorem exists_save_of_load {store text : String} {c : Configuration}
    (h : load store (some text) = .ok c) :
    ∃ saved, save store c = .ok saved ∧ load store (some saved) = .ok c := by
  obtain ⟨hparse, hvalid⟩ := load_eq_ok_iff.mp h
  exact ⟨_, save_of_validate hvalid, load_eq_ok_iff.mpr ⟨parse_pretty hparse 2, hvalid⟩⟩

end Configuration

end QueryPlayground
