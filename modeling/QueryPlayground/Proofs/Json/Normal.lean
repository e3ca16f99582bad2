import QueryPlayground.Proofs.Json.Spelling

/-!
# The values that JSON texts have

What a text is read to is in normal form: its integers fit in a machine word, its objects hold one
member for each key in the order of keys, and its arrays and objects nest no deeper than the reader
goes. Where such a value has no other numbers than integers, both printers write a text that spells
it, whatever the indentation.

Main statements: `normal_of_parseChars`, `Normal.spells_compact` and `Normal.spells_pretty`.
-/

namespace QueryPlayground.Json

open QueryPlayground.Decimal

/-! ## §1 Normal form -/

/-- One member for each key, in the order of keys. -/
def SortedKeys (ms : List (String × Value)) : Prop :=
  ms.Pairwise fun m n => m.1 < n.1

/-- A value as the reader makes it, with at most so many levels of arrays and objects. -/
inductive Normal : Nat → Value → Prop where
  | null {d : Nat} : Normal d .null
  | bool {d : Nat} {b : Bool} : Normal d (.bool b)
  | int {d : Nat} {n : Int} : IsWord n → Normal d (.int n)
  | real {d : Nat} {x : Double} : Normal d (.real x)
  | str {d : Nat} {s : String} : Normal d (.str s)
  | arr {d : Nat} {items : List Value} : (∀ v ∈ items, Normal d v) → Normal (d + 1) (.arr items)
  | obj {d : Nat} {ms : List (String × Value)} :
      SortedKeys ms → (∀ m ∈ ms, Normal d m.2) → Normal (d + 1) (.obj ms)

/-- A value without numbers that are no integers. -/
inductive Integral : Value → Prop where
  | null : Integral .null
  | bool {b : Bool} : Integral (.bool b)
  | int {n : Int} : Integral (.int n)
  | str {s : String} : Integral (.str s)
  | arr {items : List Value} : (∀ v ∈ items, Integral v) → Integral (.arr items)
  | obj {ms : List (String × Value)} : (∀ m ∈ ms, Integral m.2) → Integral (.obj ms)

/-! ## §2 Members in order -/

theorem lt_of_not_lt {a b : String} (hne : a ≠ b) (h : ¬ a < b) : b < a := by
  by_contra hba
  exact hne (String.le_antisymm (String.not_lt.mp hba) (String.not_lt.mp h))

theorem mem_insert {key : String} {value : Value} {ms : List (String × Value)}
    {m : String × Value} (h : m ∈ Members.insert key value ms) : m = (key, value) ∨ m ∈ ms := by
  fun_induction Members.insert key value ms <;> grind

/-- Putting a member at its place keeps the order. -/
theorem SortedKeys.insert {ms : List (String × Value)} (h : SortedKeys ms) (key : String)
    (value : Value) : SortedKeys (Members.insert key value ms) := by
  unfold SortedKeys at h ⊢
  fun_induction Members.insert key value ms with
  | case1 => simp
  | case2 v rest =>
    rw [List.pairwise_cons] at h ⊢
    exact h
  | case3 k v rest hne hlt =>
    rw [List.pairwise_cons] at h
    refine List.pairwise_cons.mpr ⟨fun m hm => ?_, List.pairwise_cons.mpr h⟩
    rcases List.mem_cons.mp hm with rfl | hm
    · exact hlt
    · exact String.lt_trans hlt (h.1 m hm)
  | case4 k v rest hne hlt ih =>
    rw [List.pairwise_cons] at h ⊢
    refine ⟨fun m hm => ?_, ih h.2⟩
    rcases mem_insert hm with rfl | hm
    · exact lt_of_not_lt hne hlt
    · exact h.1 m hm

/-- A member behind all others goes to the end. -/
theorem insert_of_forall_lt {key : String} {value : Value} {ms : List (String × Value)}
    (h : ∀ m ∈ ms, m.1 < key) : Members.insert key value ms = ms ++ [(key, value)] := by
  induction ms with
  | nil => rfl
  | cons m ms ih =>
    obtain ⟨k, v⟩ := m
    have hk : k < key := h (k, v) List.mem_cons_self
    have hne : key ≠ k := by
      rintro rfl
      exact String.lt_irrefl _ hk
    have hnlt : ¬ key < k := fun hlt => String.lt_irrefl _ (String.lt_trans hlt hk)
    rw [Members.insert, if_neg hne, if_neg hnlt, ih fun m hm => h m (List.mem_cons_of_mem _ hm)]
    rfl

/-- Members that come in order are collected as they come. -/
theorem collect_of_sortedKeys {ms : List (String × Value)} :
    ∀ (done : List (String × Value)), SortedKeys (done ++ ms) →
      Members.collect ms done = done ++ ms := by
  induction ms with
  | nil => simp [Members.collect]
  | cons m ms ih =>
    intro done h
    have hlast : ∀ n ∈ done, n.1 < m.1 := fun n hn =>
      (List.pairwise_append.mp h).2.2 n hn m List.mem_cons_self
    show Members.collect ms (Members.insert m.1 m.2 done) = done ++ m :: ms
    rw [insert_of_forall_lt hlast, ih _ (by simpa using h)]
    simp

/-! ## §3 What is read is normal -/

theorem digitsWithin_le {limit : Nat} (cs : List Char) :
    ∀ {n count : Nat}, n ≤ limit → (digitsWithin limit n count cs).1 ≤ limit := by
  induction cs with
  | nil => exact fun h => h
  | cons c cs ih =>
    intro n count h
    rw [digitsWithin]
    split
    · next hc => exact ih (by simpa using (Bool.and_eq_true_iff.mp hc).2)
    · exact h

/-- The value of a number that is no integer. -/
def IsReal (v : Value) : Prop :=
  ∃ x, v = .real x

theorem isReal_of_scaled {negative : Bool} {digits : Nat} {exponent : Int} {cs rest : List Char}
    {v : Value} (h : scaled negative digits exponent cs = .ok (v, rest)) : IsReal v := by
  unfold scaled at h
  cases hx : (Double.ofNat? digits).bind (scaleByTen 4 · exponent) with
  | none => simp [hx] at h
  | some x =>
    rw [hx] at h
    obtain ⟨rfl, -⟩ := Prod.mk.inj (Except.ok.inj h)
    exact ⟨_, rfl⟩

theorem isReal_of_exponentDigits {negative down : Bool} {digits : Nat} {start : Int}
    {cs rest : List Char} {v : Value}
    (h : exponentDigits negative digits start down cs = .ok (v, rest)) : IsReal v := by
  unfold exponentDigits at h
  split at h
  · simp at h
  · split at h
    · dsimp only at h
      split at h
      · split at h
        · simp at h
        · obtain ⟨rfl, -⟩ := Prod.mk.inj (Except.ok.inj h)
          exact ⟨_, rfl⟩
      · exact isReal_of_scaled h
    · simp at h

theorem isReal_of_exponentIfAny {negative : Bool} {digits : Nat} {start : Int}
    {cs rest : List Char} {v : Value}
    (h : exponentIfAny negative digits start cs = .ok (v, rest)) : IsReal v := by
  unfold exponentIfAny at h
  split at h
  · unfold exponent at h
    split at h <;> exact isReal_of_exponentDigits h
  · exact isReal_of_scaled h

theorem isReal_of_fraction {negative : Bool} {digits : Nat} {start : Int} {cs rest : List Char}
    {v : Value} (h : fraction negative digits start cs = .ok (v, rest)) : IsReal v := by
  unfold fraction at h
  dsimp only at h
  split at h
  · exact isReal_of_exponentIfAny h
  · split at h
    · simp at h
    · exact isReal_of_exponentIfAny h

theorem IsReal.normal {v : Value} (h : IsReal v) (d : Nat) : Normal d v := by
  obtain ⟨x, rfl⟩ := h
  exact .real

theorem normal_of_integer {negative : Bool} {n d : Nat} {cs rest : List Char} {v : Value}
    (hn : n ≤ MachineWord.maxUnsigned) (h : integer negative n cs = .ok (v, rest)) :
    Normal d v := by
  unfold integer at h
  split at h
  · obtain ⟨rfl, -⟩ := Prod.mk.inj (Except.ok.inj h)
    refine .int ⟨?_, by simpa using hn⟩
    simp only [MachineWord.minSigned]
    omega
  · split at h
    · next hhalf =>
      obtain ⟨rfl, -⟩ := Prod.mk.inj (Except.ok.inj h)
      refine .int ⟨?_, by omega⟩
      simp only [MachineWord.minSigned]
      omega
    · exact (isReal_of_scaled h).normal d

theorem normal_of_afterDigits {negative : Bool} {n d : Nat} {cs rest : List Char} {v : Value}
    (hn : n ≤ MachineWord.maxUnsigned) (h : afterDigits negative n cs = .ok (v, rest)) :
    Normal d v := by
  unfold afterDigits at h
  split at h
  · exact (isReal_of_fraction h).normal d
  · split at h
    · unfold exponent at h
      split at h <;> exact (isReal_of_exponentDigits h).normal d
    · exact normal_of_integer hn h

/-- An integer that is read fits in a machine word; any other number is a double. -/
theorem normal_of_number {negative : Bool} {d : Nat} {cs rest : List Char} {v : Value}
    (h : number negative cs = .ok (v, rest)) : Normal d v := by
  unfold number at h
  split at h
  · simp at h
  · split at h
    · split at h
      · simp at h
      · exact normal_of_afterDigits (Nat.zero_le _) h
    · split at h
      · dsimp only at h
        split at h
        · unfold afterManyDigits at h
          dsimp only at h
          split at h
          · exact (isReal_of_fraction h).normal d
          · exact (isReal_of_exponentIfAny h).normal d
        · exact normal_of_afterDigits (digitsWithin_le _ (Nat.zero_le _)) h
      · simp at h

/-- What is read at some amount of fuel is normal, if what was read before is. -/
structure ReadsNormal (fuel : Nat) : Prop where
  value {d : Nat} {v : Value} {cs rest : List Char} :
    readValue fuel d cs = .ok (v, rest) → Normal d v
  items {d : Nat} {first : Bool} {done : List Value} {v : Value} {cs rest : List Char} :
    readItems fuel d first done cs = .ok (v, rest) → (∀ w ∈ done, Normal d w) → Normal (d + 1) v
  members {d : Nat} {first : Bool} {done : List (String × Value)} {v : Value}
    {cs rest : List Char} :
    readMembers fuel d first done cs = .ok (v, rest) → SortedKeys done →
      (∀ m ∈ done, Normal d m.2) → Normal (d + 1) v

theorem bind_eq_ok {ε α β : Type} {x : Except ε α} {f : α → Except ε β} {b : β}
    (h : (x >>= f) = .ok b) : ∃ a, x = .ok a ∧ f a = .ok b := by
  cases x with
  | error e => cases h
  | ok a => exact ⟨a, rfl, h⟩

/-- A value that is read is normal: a number by the way it is read, and a collection by what it holds.
-/
theorem ReadsNormal.value_succ {fuel : Nat} (ih : ReadsNormal fuel) {d : Nat} {v : Value}
    {cs rest : List Char} (h : readValue (fuel + 1) d cs = .ok (v, rest)) : Normal d v := by
  rw [readValue] at h
  split at h
  case h_1 => simp at h
  case h_2 =>
    obtain ⟨_, -, h⟩ := bind_eq_ok h
    cases h
    exact .null
  case h_3 | h_4 =>
    obtain ⟨_, -, h⟩ := bind_eq_ok h
    cases h
    exact .bool
  case h_5 => exact normal_of_number h
  case h_6 =>
    obtain ⟨_, -, h⟩ := bind_eq_ok h
    cases h
    exact .str
  case h_7 =>
    split at h
    · simp at h
    · exact ih.items h (by simp)
  case h_8 =>
    split at h
    · simp at h
    · exact ih.members h List.Pairwise.nil (by simp)
  case h_9 =>
    split at h
    · exact normal_of_number h
    · simp at h

theorem readsNormal (fuel : Nat) : ReadsNormal fuel := by
  induction fuel with
  | zero => constructor <;> intros <;> simp_all [readValue, readItems, readMembers]
  | succ fuel ih =>
    constructor
    case value => exact ih.value_succ
    case items =>
      intro d first done v cs rest h hdone
      rw [readItems] at h
      split at h
      · simp at h
      · cases h
        exact .arr (by simpa using hdone)
      · split at h
        · simp at h
        · next w after hread =>
          refine ih.items h fun u hu => ?_
          rcases List.mem_cons.mp hu with rfl | hu
          · exact ih.value hread
          · exact hdone u hu
    case members =>
      intro d first done v cs rest h hsorted hdone
      rw [readMembers] at h
      split at h
      · simp at h
      · cases h
        exact .obj hsorted hdone
      · split at h
        · simp at h
        · split at h
          · simp at h
          · split at h
            · simp at h
            · next w after hread =>
              refine ih.members h (hsorted.insert _ _) fun m hm => ?_
              rcases mem_insert hm with rfl | hm
              · exact ih.value hread
              · exact hdone m hm

/-- A text that is read has a value in normal form. -/
theorem normal_of_parseChars {cs : List Char} {v : Value} (h : Value.parseChars cs = .ok v) :
    Normal maxDepth v := by
  obtain ⟨⟨w, rest⟩, hread, h⟩ := bind_eq_ok h
  obtain ⟨-, -, h⟩ := bind_eq_ok h
  cases h
  exact (readsNormal _).value hread

/-! ## §4 Both printers spell the value -/

theorem spells_compactItems {d : Nat} {items : List Value}
    (h : ∀ v ∈ items, Spells d v v.compactChars) (hne : items ≠ []) :
    SpellsItems d items (Value.compactItems items) := by
  induction items with
  | nil => exact absurd rfl hne
  | cons v rest ih =>
    cases rest with
    | nil => simpa [Value.compactItems] using SpellsItems.last isGap_nil (h v (by simp)) isGap_nil
    | cons w rest =>
      have hmore := ih (fun u hu => h u (List.mem_cons_of_mem _ hu)) (by simp)
      simpa [Value.compactItems] using
        SpellsItems.cons isGap_nil (h v (by simp)) isGap_nil hmore

theorem spells_compactMembers {d : Nat} {ms : List (String × Value)}
    (h : ∀ m ∈ ms, Spells d m.2 m.2.compactChars) (hne : ms ≠ []) :
    SpellsMembers d ms (Value.compactMembers ms) := by
  induction ms with
  | nil => exact absurd rfl hne
  | cons m rest ih =>
    obtain ⟨k, v⟩ := m
    have hv : Spells d v v.compactChars := h (k, v) (by simp)
    cases rest with
    | nil =>
      simpa [Value.compactMembers] using
        SpellsMembers.last isGap_nil isGap_nil isGap_nil hv isGap_nil
    | cons n rest =>
      have hmore := ih (fun m hm => h m (List.mem_cons_of_mem _ hm)) (by simp)
      simpa [Value.compactMembers] using
        SpellsMembers.cons isGap_nil isGap_nil isGap_nil hv isGap_nil hmore

/-- A normal value is spelled by its compact text, by induction on what makes it normal. -/
theorem Normal.spells_compact {d : Nat} {v : Value} (h : Normal d v) (hint : Integral v) :
    Spells d v v.compactChars := by
  induction h with
  | null => exact .null
  | @bool d b => cases b <;> [exact .no; exact .yes]
  | int hn => exact .int hn
  | real => cases hint
  | str => exact .str
  | @arr d items _ ih =>
    cases hint with
    | arr hint =>
      cases items with
      | nil => exact .emptyArr isGap_nil
      | cons v rest =>
        exact .arr (spells_compactItems (fun u hu => ih u hu (hint u hu)) (by simp))
  | @obj d ms hsorted _ ih =>
    cases hint with
    | obj hint =>
      cases ms with
      | nil => exact .emptyObj isGap_nil
      | cons m rest =>
        have hms := spells_compactMembers (fun u hu => ih u hu (hint u hu)) (by simp)
        simpa [Value.compactChars, collect_of_sortedKeys [] hsorted] using Spells.obj hms

theorem isGap_newLine (indent level : Nat) : IsGap (Value.newLine indent level) := by
  intro c hc
  rcases List.mem_cons.mp hc with rfl | hc
  · decide
  · rw [List.eq_of_mem_replicate hc]
    decide

/-- Items on lines of their own spell an array of other values where each of them spells its own. -/
theorem spells_prettyItems_map {α : Type} {d indent level : Nat} {f g : α → Value} {as : List α}
    {b : List Char} (hb : IsGap b)
    (h : ∀ a ∈ as, Spells d (g a) ((f a).prettyChars indent level)) (hne : as ≠ []) :
    SpellsItems d (as.map g) (Value.prettyItems indent level (as.map f) ++ b) := by
  have hline := isGap_newLine indent level
  induction as with
  | nil => exact absurd rfl hne
  | cons a rest ih =>
    cases rest with
    | nil => simpa [Value.prettyItems] using SpellsItems.last hline (h a (by simp)) hb
    | cons a' rest =>
      have hmore := ih (fun u hu => h u (List.mem_cons_of_mem _ hu)) (by simp)
      simpa [Value.prettyItems] using SpellsItems.cons hline (h a (by simp)) isGap_nil hmore

theorem spells_prettyItems {d indent level : Nat} {items : List Value} {b : List Char}
    (hb : IsGap b) (h : ∀ v ∈ items, Spells d v (v.prettyChars indent level)) (hne : items ≠ []) :
    SpellsItems d items (Value.prettyItems indent level items ++ b) := by
  simpa using spells_prettyItems_map (f := id) (g := id) hb h hne

theorem spells_prettyMembers {d indent level : Nat} {ms : List (String × Value)} {b : List Char}
    (hb : IsGap b) (h : ∀ m ∈ ms, Spells d m.2 (m.2.prettyChars indent level)) (hne : ms ≠ []) :
    SpellsMembers d ms (Value.prettyMembers indent level ms ++ b) := by
  have hline := isGap_newLine indent level
  have hspace : IsGap [' '] := isGap_singleton rfl
  induction ms with
  | nil => exact absurd rfl hne
  | cons m rest ih =>
    obtain ⟨k, v⟩ := m
    have hv : Spells d v (v.prettyChars indent level) := h (k, v) (by simp)
    cases rest with
    | nil =>
      simpa [Value.prettyMembers] using SpellsMembers.last hline isGap_nil hspace hv hb
    | cons n rest =>
      have hmore := ih (fun m hm => h m (List.mem_cons_of_mem _ hm)) (by simp)
      simpa [Value.prettyMembers] using
        SpellsMembers.cons hline isGap_nil hspace hv isGap_nil hmore

/-- A normal value is spelled by its text with line ends too, at whichever level it stands. -/
theorem Normal.spells_pretty {d : Nat} {v : Value} (h : Normal d v) (hint : Integral v)
    (indent : Nat) : ∀ level, Spells d v (v.prettyChars indent level) := by
  induction h with
  | null => exact fun _ => .null
  | @bool d b => cases b <;> [exact fun _ => .no; exact fun _ => .yes]
  | int hn => exact fun _ => .int hn
  | real => cases hint
  | str => exact fun _ => .str
  | @arr d items _ ih =>
    intro level
    cases hint with
    | arr hint =>
      cases items with
      | nil => exact .emptyArr isGap_nil
      | cons v rest =>
        have hitems := spells_prettyItems (isGap_newLine indent level)
          (fun u hu => ih u hu (hint u hu) (level + 1)) (by simp)
        simpa [Value.prettyChars] using Spells.arr hitems
  | @obj d ms hsorted _ ih =>
    intro level
    cases hint with
    | obj hint =>
      cases ms with
      | nil => exact .emptyObj isGap_nil
      | cons m rest =>
        have hms := spells_prettyMembers (isGap_newLine indent level)
          (fun u hu => ih u hu (hint u hu) (level + 1)) (by simp)
        simpa [Value.prettyChars, collect_of_sortedKeys [] hsorted] using Spells.obj hms

end QueryPlayground.Json
