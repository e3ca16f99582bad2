import QueryPlayground.Proofs.Json.Record
import QueryPlayground.Proofs.Json.Shape

/-!
# Values that are written whole

A record without optional parts is written with all its fields, also those that were absent where it
was read from. So the text that is written for a value of such a schema, one item a line, is read as
the value again, whatever the value was read from.

Main statement: `Schema.Definite.parse_pretty`.
-/

namespace QueryPlayground.Json

open QueryPlayground.Decimal

namespace Schema

/-- A schema whose values are written as they are read: its integers fit in words, its names have no
other spellings, nothing in it is optional, and an absent field has a value of its own schema. The
number is how deep its values nest. -/
inductive Definite : Schema → Nat → Prop where
  | text {expected : String} {d : Nat} : Definite (.text expected) d
  | flag {d : Nat} : Definite .flag d
  | integer {least greatest : Int} {expected : String} {d : Nat} :
      MachineWord.minSigned ≤ least → greatest ≤ MachineWord.maxUnsigned →
      Definite (.integer least greatest expected) d
  | names {l : List String} {d : Nat} : Definite (.choice (Json.names l)) d
  | list {item : Schema} {d : Nat} : Definite item d → Definite (.list item) (d + 1)
  | record {owner : String} {fields : List (String × Schema × Option Value)} {d : Nat} :
      fields ≠ [] → (fields.map Prod.fst).Nodup → (∀ f ∈ fields, Definite f.2.1 d) →
      (∀ f ∈ fields, ∀ v, f.2.2 = some v → f.2.1.Admits v) →
      Definite (.record owner fields) (d + 1)

theorem finishRecord_of_lookup {fields : List (String × Schema × Option Value)}
    {found members : List (String × Value)} (hnames : members.map Prod.fst = fields.map Prod.fst)
    (h : ∀ m ∈ members, found.lookup m.1 = some m.2) :
    finishRecord fields found = .ok members := by
  induction fields generalizing members with
  | nil =>
    obtain rfl : members = [] := List.map_eq_nil_iff.mp hnames
    rfl
  | cons f fields ih =>
    obtain ⟨name, schema, absent⟩ := f
    obtain ⟨m, members, rfl⟩ : ∃ m ms, members = m :: ms := by
      cases members with
      | nil => simp at hnames
      | cons m ms => exact ⟨m, ms, rfl⟩
    obtain ⟨rfl, hothers⟩ := List.cons.inj hnames
    obtain ⟨hfirst, hmembers⟩ := List.forall_mem_cons.mp h
    simp [finishRecord, hfirst, ih hothers hmembers, Except.map]

theorem spellsList_pretty {item : Schema} {d indent level : Nat} {vs : List Value} {b : List Char}
    (hb : IsGap b) (h : ∀ v ∈ vs, SpellsAs item d v (v.prettyChars indent level)) (hne : vs ≠ []) :
    SpellsList item d vs (Value.prettyItems indent level vs ++ b) := by
  have hline := isGap_newLine indent level
  induction vs with
  | nil => exact absurd rfl hne
  | cons v rest ih =>
    obtain ⟨hv, hrest⟩ := List.forall_mem_cons.mp h
    cases rest with
    | nil => simpa [Value.prettyItems] using SpellsList.last hline hv hb
    | cons w rest =>
      have hmore := ih hrest (List.cons_ne_nil w rest)
      simpa [Value.prettyItems] using SpellsList.cons hline hv isGap_nil hmore

/-- The fields of a record that are written one a line are found in order. -/
theorem spellsFields_pretty {fields : Fields} {d indent level : Nat}
    {found ms : List (String × Value)} {b : List Char} (hb : IsGap b)
    (hnames : (ms.map Prod.fst).Nodup) (hnew : ∀ m ∈ ms, found.lookup m.1 = none)
    (h : ∀ m ∈ ms, ∃ schema absent, fields.lookup m.1 = some (schema, absent) ∧
      SpellsAs schema d m.2 (m.2.prettyChars indent level)) (hne : ms ≠ []) :
    SpellsFields fields d found (ms.reverse ++ found) (Value.prettyMembers indent level ms ++ b) := by
  have hline := isGap_newLine indent level
  have hspace : IsGap [' '] := isGap_singleton rfl
  induction ms generalizing found with
  | nil => exact absurd rfl hne
  | cons m rest ih =>
    obtain ⟨k, v⟩ := m
    obtain ⟨⟨schema, absent, hlookup, hv⟩, hrest⟩ := List.forall_mem_cons.mp h
    obtain ⟨hfirst, hothers⟩ := List.forall_mem_cons.mp hnew
    rw [List.map_cons, List.nodup_cons] at hnames
    have hfield : SpellsField fields d found ((k, v) :: found)
        (quote k ++ ([] ++ ':' :: ([' '] ++ v.prettyChars indent level))) :=
      .known isGap_nil hspace hlookup hfirst hv
    cases rest with
    | nil => simpa [Value.prettyMembers] using SpellsFields.last hline hfield hb
    | cons n rest =>
      -- None of the fields that are left has the name of the first one.
      have hleft : ∀ m ∈ n :: rest, ((k, v) :: found).lookup m.1 = none := by
        intro m hm
        have hkey : m.1 ≠ k := ne_of_mem_of_not_mem (List.mem_map_of_mem hm) hnames.1
        rw [List.lookup_cons, beq_eq_false_iff_ne.mpr hkey]
        exact hothers m hm
      have hmore := ih hnames.2 hleft hrest (List.cons_ne_nil n rest)
      simpa [Value.prettyMembers] using SpellsFields.cons hline hfield isGap_nil hmore

/-- A value of the schema is spelled by the text that is written for it, one item a line. -/
theorem Definite.spellsAs_pretty {schema : Schema} {d : Nat} (h : schema.Definite d) {v : Value}
    (hv : schema.Admits v) (indent level : Nat) :
    SpellsAs schema d v (v.prettyChars indent level) := by
  induction h generalizing v level with
  | text =>
    cases hv
    exact .text
  | flag =>
    cases hv with
    | @flag b => cases b <;> [exact .no; exact .yes]
  | integer hleast hgreatest =>
    cases hv with
    | integer hl hg => exact .integer ⟨hleast.trans hl, hg.trans hgreatest⟩ hl hg
  | names =>
    cases hv with
    | choice hlookup =>
      obtain rfl := eq_of_lookup_names hlookup
      exact .choice hlookup
  | list _ ih =>
    cases hv with
    | @list _ vs hvs =>
      cases vs with
      | nil => exact .emptyList isGap_nil
      | cons w rest =>
        have hitems := spellsList_pretty (isGap_newLine indent level)
          (fun u hu => ih (hvs u hu) (level + 1)) (List.cons_ne_nil w rest)
        simpa [Value.prettyChars] using SpellsAs.list hitems
  | @record owner fields d hne hnodup _ habsent ih =>
    cases hv with
    | @record _ _ members hnames hmembers =>
      have hmember : ∀ m ∈ members, ∃ schema absent, fields.lookup m.1 = some (schema, absent) ∧
          SpellsAs schema d m.2 (m.2.prettyChars indent (level + 1)) := by
        intro m hm
        -- A value of an absent field has the shape of its schema too.
        obtain ⟨schema, absent, hfield, hw⟩ : ∃ schema absent, (m.1, schema, absent) ∈ fields ∧
            schema.Admits m.2 := by
          cases hmembers m hm with
          | read hfield hw => exact ⟨_, _, hfield, hw⟩
          | absent hfield => exact ⟨_, _, hfield, habsent _ hfield _ rfl⟩
        exact ⟨schema, absent, lookup_of_mem hnodup hfield, ih _ hfield hw (level + 1)⟩
      rw [← hnames] at hnodup
      -- The reader has found the fields in reverse.
      have hfound : ∀ m ∈ members, members.reverse.lookup m.1 = some m.2 := by
        intro m hm
        refine lookup_of_mem ?_ (List.mem_reverse.mpr hm)
        rw [List.map_reverse, List.nodup_reverse]
        exact hnodup
      cases members with
      | nil => exact absurd (List.map_eq_nil_iff.mp hnames.symm) hne
      | cons m rest =>
        have hnew : ∀ n ∈ m :: rest, ([] : List (String × Value)).lookup n.1 = none :=
          fun _ _ => rfl
        have hfields := spellsFields_pretty (isGap_newLine indent level) hnodup hnew hmember
          (List.cons_ne_nil m rest)
        rw [List.append_nil] at hfields
        rw [Value.prettyChars, ← List.append_assoc]
        exact .record hfields (finishRecord_of_lookup hnames hfound)

/-- A record with all its fields has a member of its own schema for each of them. -/
theorem Definite.member? {owner : String} {fields : List (String × Schema × Option Value)} {d : Nat}
    (h : (Schema.record owner fields).Definite d) {v : Value}
    (hv : (Schema.record owner fields).Admits v) {name : String} {schema : Schema}
    {absent : Option Value} (hf : (name, schema, absent) ∈ fields) :
    ∃ w, v.member? name = some w ∧ schema.Admits w := by
  cases h with
  | record _ hnodup _ habsent =>
    obtain ⟨w, hw, hadmits | rfl⟩ := hv.member? hnodup hf
    · exact ⟨w, hw, hadmits⟩
    · exact ⟨w, hw, habsent _ hf w rfl⟩

/-- The record of which nothing was found has the shape of the schema. -/
theorem admits_of_finishRecord_nil {owner : String} {fields : List (String × Schema × Option Value)}
    {members : List (String × Value)} (h : finishRecord fields [] = .ok members) :
    (Schema.record owner fields).Admits (.obj members) := by
  have hfields : ∀ f ∈ fields, f ∈ fields := fun _ hf => hf
  obtain ⟨hnames, hmembers⟩ := admits_of_finishRecord (by simp) hfields h
  exact .record hnames hmembers

theorem Definite.parse_pretty {schema : Schema} (h : schema.Definite maxDepth) {v : Value}
    (hv : schema.Admits v) (indent : Nat) : schema.parse (v.pretty indent) = .ok v := by
  apply SpellsAs.parse
  rw [Value.pretty, String.toList_ofList]
  exact h.spellsAs_pretty hv indent 0

end Schema

end QueryPlayground.Json
