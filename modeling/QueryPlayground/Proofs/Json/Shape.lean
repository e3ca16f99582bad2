import Mathlib.Data.List.Nodup
import QueryPlayground.Proofs.Json.Inversion

/-!
# The values that texts of a schema have

Whatever a text looks like, the value that the reader of a schema takes from it has the shape of the
schema: numbers are in range, names are main ones, and a record has its fields in declared order, each
with a value of its own schema or with the one of an absent field. So what is made of the value need
not look at the text again.

Main statement: `Schema.admits_of_parse`.
-/

namespace QueryPlayground.Json

/-! ## §1 Values of a schema -/

mutual

/-- A value in normal form that has the shape of a schema. -/
inductive Schema.Admits : Schema → Value → Prop where
  | text {expected : String} {s : String} : Admits (.text expected) (.str s)
  | flag {b : Bool} : Admits .flag (.bool b)
  | integer {least greatest n : Int} {expected : String} :
      least ≤ n → n ≤ greatest → Admits (.integer least greatest expected) (.int n)
  | choice {spellings : List (String × String)} {s name : String} :
      spellings.lookup s = some name → Admits (.choice spellings) (.str name)
  | null {item : Schema} : Admits (.optional item) .null
  | present {item : Schema} {v : Value} : Admits item v → Admits (.optional item) v
  | list {item : Schema} {vs : List Value} : (∀ v ∈ vs, Admits item v) → Admits (.list item) (.arr vs)
  | record {owner : String} {fields : List (String × Schema × Option Value)}
      {members : List (String × Value)} :
      members.map Prod.fst = fields.map Prod.fst → (∀ m ∈ members, AdmitsMember fields m) →
      Admits (.record owner fields) (.obj members)

/-- A member that a record has read, or that stands for a field that is absent. -/
inductive Schema.AdmitsMember : List (String × Schema × Option Value) → String × Value → Prop where
  | read {fields : List (String × Schema × Option Value)} {name : String} {schema : Schema}
      {absent : Option Value} {v : Value} :
      (name, schema, absent) ∈ fields → Admits schema v → AdmitsMember fields (name, v)
  | absent {fields : List (String × Schema × Option Value)} {name : String} {schema : Schema}
      {v : Value} : (name, schema, some v) ∈ fields → AdmitsMember fields (name, v)

end

namespace Schema

variable {fields all : List (String × Schema × Option Value)} {members : List (String × Value)}

/-! ## §2 Scalars -/

theorem mem_of_lookup {α : Type} {l : List (String × α)} {k : String} {a : α}
    (h : l.lookup k = some a) : (k, a) ∈ l := by
  obtain ⟨before, after, rfl, -⟩ := List.lookup_eq_some_iff.mp h
  exact List.mem_append_cons_self

theorem lookup_of_mem {α : Type} {l : List (String × α)} (hl : (l.map Prod.fst).Nodup)
    {k : String} {a : α} (h : (k, a) ∈ l) : l.lookup k = some a := by
  induction l with
  | nil => cases h
  | cons x l ih =>
    obtain ⟨k', a'⟩ := x
    rw [List.map_cons, List.nodup_cons] at hl
    rcases List.mem_cons.mp h with heq | hmem
    · cases heq
      simp
    · have hne : k ≠ k' := ne_of_mem_of_not_mem (List.mem_map_of_mem hmem) hl.1
      rw [List.lookup_cons, beq_eq_false_iff_ne.mpr hne]
      exact ih hl.2 hmem

theorem eq_of_lookup_names {l : List String} {s name : String}
    (h : (Json.names l).lookup s = some name) : s = name := by
  obtain ⟨n, -, hn⟩ := List.mem_map.mp (mem_of_lookup h)
  cases hn
  rfl

theorem admits_of_readFlag {cs rest : List Char} {v : Value} (h : readFlag cs = .ok (v, rest)) :
    Admits .flag v := by
  obtain ⟨_, ⟨-, -, rfl⟩ | ⟨-, -, rfl⟩⟩ := readFlag_eq_ok h
  · exact .flag
  · exact .flag

theorem admits_of_readInteger {least greatest : Int} {expected : String} {cs rest : List Char}
    {v : Value} (h : readInteger least greatest expected cs = .ok (v, rest)) :
    Admits (.integer least greatest expected) v := by
  obtain ⟨n, hleast, hgreatest, rfl, -⟩ := readInteger_eq_ok h
  exact .integer hleast hgreatest

theorem admits_of_readChoice {depth : Nat} {spellings : List (String × String)}
    {cs rest : List Char} {v : Value} (h : readChoice depth spellings cs = .ok (v, rest)) :
    Admits (.choice spellings) v := by
  obtain ⟨s, name, hlookup, rfl, -⟩ := readChoice_eq_ok h
  exact .choice hlookup

/-! ## §3 Records -/

/-- The fields that were found, with the values of the absent ones, are all fields of a record. -/
theorem admits_of_finishRecord {found : List (String × Value)}
    (hfound : ∀ m ∈ found, AdmitsMember all m) (hfields : ∀ f ∈ fields, f ∈ all)
    (h : finishRecord fields found = .ok members) :
    members.map Prod.fst = fields.map Prod.fst ∧ ∀ m ∈ members, AdmitsMember all m := by
  induction fields generalizing members with
  | nil =>
    cases h
    simp
  | cons f fields ih =>
    obtain ⟨name, schema, absent⟩ := f
    -- Both ways to fill in the first field put it in front of the others.
    have hfirst {v : Value} (hv : AdmitsMember all (name, v))
        (h : (finishRecord fields found).map ((name, v) :: ·) = .ok members) :
        members.map Prod.fst = name :: fields.map Prod.fst ∧ ∀ m ∈ members, AdmitsMember all m := by
      obtain ⟨others, hothers, rfl⟩ := map_eq_ok h
      obtain ⟨hnames, hmembers⟩ := ih (fun f hf => hfields f (List.mem_cons_of_mem _ hf)) hothers
      refine ⟨by simp [hnames], fun m hm => ?_⟩
      rcases List.mem_cons.mp hm with rfl | hm
      · exact hv
      · exact hmembers m hm
    simp only [finishRecord] at h
    split at h
    next v hlookup => exact hfirst (hfound _ (mem_of_lookup hlookup)) h
    next =>
      split at h
      next v => exact hfirst (.absent (hfields _ List.mem_cons_self)) h
      next => simp at h

/-- What is read at some amount of fuel has the shape of its schema, if what was read before has. -/
structure ReadsShape (fuel : Nat) : Prop where
  value {depth : Nat} {schema : Schema} {v : Value} {cs rest : List Char} :
    Schema.readFrom fuel depth schema cs = .ok (v, rest) → Admits schema v
  list {depth : Nat} {item : Schema} {first : Bool} {done : List Value} {v : Value}
    {cs rest : List Char} :
    Schema.readList fuel depth item first done cs = .ok (v, rest) →
      (∀ w ∈ done, Admits item w) → Admits (.list item) v
  items {depth total : Nat} {owner : String} {all fields : List (String × Schema × Option Value)}
    {first : Bool} {done : List (String × Value)} {v : Value} {cs rest : List Char} :
    Schema.readItems fuel depth owner total fields first done cs = .ok (v, rest) →
      done.reverse.map Prod.fst ++ fields.map Prod.fst = all.map Prod.fst →
      (∀ f ∈ fields, f ∈ all) → (∀ m ∈ done, AdmitsMember all m) → Admits (.record owner all) v
  members {depth : Nat} {owner : String} {fields : List (String × Schema × Option Value)}
    {first : Bool} {found : List (String × Value)} {v : Value} {cs rest : List Char} :
    Schema.readMembers fuel depth fields first found cs = .ok (v, rest) →
      (∀ m ∈ found, AdmitsMember fields m) → Admits (.record owner fields) v

theorem ReadsShape.value_succ {fuel : Nat} (ih : ReadsShape fuel) {depth : Nat} {schema : Schema}
    {v : Value} {cs rest : List Char}
    (h : Schema.readFrom (fuel + 1) depth schema cs = .ok (v, rest)) : Admits schema v := by
  cases valueStep_of_readFrom h with
  | text => exact .text
  | flag h => exact admits_of_readFlag h
  | integer h => exact admits_of_readInteger h
  | choice h => exact admits_of_readChoice h
  | null => exact .null
  | present h => exact .present (ih.value h)
  | list _ h => exact ih.list h (by simp)
  | array _ h => exact ih.items h (by simp) (fun f hf => hf) (by simp)
  | object _ h => exact ih.members h (by simp)

theorem readsShape (fuel : Nat) : ReadsShape fuel := by
  induction fuel with
  | zero =>
    constructor <;> intros <;>
      simp_all [Schema.readFrom, Schema.readList, Schema.readItems, Schema.readMembers]
  | succ fuel ih =>
    constructor
    case value => exact ih.value_succ
    case list =>
      intro depth item first done v cs rest h hdone
      cases listStep_of_readList h with
      | close => exact .list (by simpa using hdone)
      | item _ hread h => exact ih.list h (List.forall_mem_cons.mpr ⟨ih.value hread, hdone⟩)
    case items =>
      intro depth total owner all fields first done v cs rest h hnames hfields hdone
      cases itemsStep_of_readItems h with
      | close => exact .record (by simpa using hnames) (by simpa using hdone)
      | absent _ h =>
        -- The first of the fields that are left moves to those that are done.
        obtain ⟨hfirst, hothers⟩ := List.forall_mem_cons.mp hfields
        exact ih.items h (by simpa using hnames) hothers
          (List.forall_mem_cons.mpr ⟨.absent hfirst, hdone⟩)
      | field _ hread h =>
        obtain ⟨hfirst, hothers⟩ := List.forall_mem_cons.mp hfields
        exact ih.items h (by simpa using hnames) hothers
          (List.forall_mem_cons.mpr ⟨.read hfirst (ih.value hread), hdone⟩)
    case members =>
      intro depth owner fields first found v cs rest h hfound
      cases membersStep_of_readMembers h with
      | close _ hfinish =>
        obtain ⟨hnames, hmembers⟩ := admits_of_finishRecord hfound (fun f hf => hf) hfinish
        exact .record hnames hmembers
      | unknown _ _ _ _ _ h => exact ih.members h hfound
      | field _ _ _ hlookup _ hread h =>
        exact ih.members h
          (List.forall_mem_cons.mpr ⟨.read (mem_of_lookup hlookup) (ih.value hread), hfound⟩)

/-! ## §4 Whole texts -/

/-- A text that is read has a value of the schema. -/
theorem admits_of_parse {schema : Schema} {text : String} {v : Value}
    (h : schema.parse text = .ok v) : Admits schema v := by
  obtain ⟨rest, hread⟩ := exists_readFrom_of_parse h
  exact (readsShape _).value hread

theorem exists_get? {name : String} (h : name ∈ members.map Prod.fst) :
    ∃ w, Members.get? name members = some w ∧ (name, w) ∈ members := by
  induction members with
  | nil => cases h
  | cons m members ih =>
    obtain ⟨key, v⟩ := m
    by_cases hkey : name = key
    · subst hkey
      exact ⟨v, by simp [Members.get?], List.mem_cons_self⟩
    · have hothers : name ∈ members.map Prod.fst := by simpa [hkey] using h
      obtain ⟨w, hget, hmem⟩ := ih hothers
      exact ⟨w, by simp [Members.get?, hkey, hget], List.mem_cons_of_mem _ hmem⟩

/-- A record has a member for each of its fields: one that was read, or the one of an absent field. -/
theorem Admits.member? {owner : String} {v : Value} (h : Admits (.record owner fields) v)
    (hnodup : (fields.map Prod.fst).Nodup) {name : String} {schema : Schema}
    {absent : Option Value} (hfield : (name, schema, absent) ∈ fields) :
    ∃ w, v.member? name = some w ∧ (Admits schema w ∨ absent = some w) := by
  cases h with
  | @record _ _ members hnames hmembers =>
    obtain ⟨w, hget, hmem⟩ : ∃ w, Members.get? name members = some w ∧ (name, w) ∈ members := by
      refine exists_get? ?_
      rw [hnames]
      exact List.mem_map_of_mem hfield
    refine ⟨w, hget, ?_⟩
    cases hmembers _ hmem with
    | read hother hw =>
      cases List.inj_on_of_nodup_map hnodup hother hfield rfl
      exact .inl hw
    | absent hother =>
      cases List.inj_on_of_nodup_map hnodup hother hfield rfl
      exact .inr rfl

/-- So it has one that was read for each field that may not be absent. -/
theorem Admits.required {owner : String} {v : Value} (h : Admits (.record owner fields) v)
    (hnodup : (fields.map Prod.fst).Nodup) {name : String} {schema : Schema}
    (hfield : (name, schema, none) ∈ fields) : ∃ w, v.member? name = some w ∧ Admits schema w := by
  obtain ⟨w, hw, hadmits | habsent⟩ := h.member? hnodup hfield
  · exact ⟨w, hw, hadmits⟩
  · cases habsent

end Schema

end QueryPlayground.Json
