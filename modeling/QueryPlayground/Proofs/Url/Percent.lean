import Mathlib
import QueryPlayground.Url.Percent

/-!
# Percent encoding loses nothing but percent signs

What a part of a URL does not keep is written as its bytes, each after a percent sign. Texts without
percent signs of their own are told apart by what is written, since the bytes can be read back and no
character's bytes begin another's.

Main statements: `percentDecode_percentEncode` and `percentEncode_injective`.
-/

namespace QueryPlayground

namespace Text

theorem toNat_lt_points (c : Char) : c.toNat < 0x110000 := by
  rcases c.valid with h | ⟨-, h⟩ <;> simp only [Char.toNat] at h ⊢ <;> omega

theorem utf8Bytes_ne_nil (c : Char) : utf8Bytes c ≠ [] := by
  simp only [utf8Bytes]
  split_ifs <;> exact List.cons_ne_nil _ _

theorem utf8Bytes_lt {c : Char} {b : Nat} (h : b ∈ utf8Bytes c) : b < 256 := by
  have hpoint := toNat_lt_points c
  simp only [utf8Bytes] at h
  split_ifs at h <;> simp only [List.mem_cons, List.not_mem_nil, or_false] at h <;> omega

/-- The bytes of a character do not begin those of another one. -/
theorem utf8Bytes_append_inj {c d : Char} {xs ys : List Nat}
    (h : utf8Bytes c ++ xs = utf8Bytes d ++ ys) : c = d ∧ xs = ys := by
  have hc := toNat_lt_points c
  have hd := toNat_lt_points d
  suffices c.toNat = d.toNat ∧ xs = ys from ⟨Char.toNat_inj.mp this.1, this.2⟩
  simp only [utf8Bytes] at h
  split_ifs at h <;> simp only [List.cons_append, List.nil_append, List.cons.injEq] at h
  -- the first byte tells how many there are, so only bytes of one number go together
  all_goals first | (exfalso; omega) | exact ⟨by omega, by tauto⟩

theorem utf8Encode_injective : Function.Injective utf8Encode := by
  intro l
  induction l with
  | nil =>
    intro m h
    cases m with
    | nil => rfl
    | cons d m => simp [utf8Encode, utf8Bytes_ne_nil] at h
  | cons c l ih =>
    intro m h
    cases m with
    | nil => simp [utf8Encode, utf8Bytes_ne_nil] at h
    | cons d m =>
      obtain ⟨rfl, hrest⟩ := utf8Bytes_append_inj h
      rw [ih hrest]

end Text

namespace Url

open Text (utf8Bytes utf8Encode)

/-! ## §1 What is written -/

/-- One character as a part of a URL writes it. -/
def percentChar (keep : Char → Bool) (c : Char) : List Char :=
  if keep c then [c] else (utf8Bytes c).flatMap percentByte

theorem percentEncode_eq (keep : Char → Bool) (cs : List Char) :
    percentEncode keep cs = cs.flatMap (percentChar keep) :=
  rfl

theorem percentChar_ne_nil (keep : Char → Bool) (c : Char) : percentChar keep c ≠ [] := by
  obtain ⟨b, bs, hbs⟩ := List.exists_cons_of_ne_nil (Text.utf8Bytes_ne_nil c)
  unfold percentChar
  split_ifs <;> simp [hbs, percentByte]

/-- What is written is kept, or belongs to the form of a byte. -/
theorem mem_percentEncode {keep : Char → Bool} {cs : List Char} {c : Char}
    (h : c ∈ percentEncode keep cs) :
    (c ∈ cs ∧ keep c = true) ∨ c = '%' ∨ ∃ n < 16, c = hexDigit n := by
  obtain ⟨d, hd, hc⟩ := List.mem_flatMap.mp h
  split_ifs at hc with hkeep
  · obtain rfl : c = d := by simpa using hc
    exact .inl ⟨hd, hkeep⟩
  · obtain ⟨b, -, hb⟩ := List.mem_flatMap.mp hc
    simp only [percentByte, List.mem_cons, List.not_mem_nil, or_false] at hb
    rcases hb with rfl | rfl | rfl
    · exact .inr (.inl rfl)
    · exact .inr (.inr ⟨_, Nat.mod_lt _ (by decide), rfl⟩)
    · exact .inr (.inr ⟨_, Nat.mod_lt _ (by decide), rfl⟩)

/-- A text is not longer by more than what it has beyond a part of it. -/
theorem length_percentEncode_sublist (keep : Char → Bool) {l m : List Char} (h : l.Sublist m) :
    (percentEncode keep l).length + m.length ≤ (percentEncode keep m).length + l.length := by
  induction h with
  | slnil => exact le_rfl
  | cons c _ ih =>
    have := List.length_pos_iff.mpr (percentChar_ne_nil keep c)
    simp only [percentEncode_eq, List.flatMap_cons, List.length_append, List.length_cons] at ih ⊢
    omega
  | cons_cons c _ ih =>
    simp only [percentEncode_eq, List.flatMap_cons, List.length_append, List.length_cons] at ih ⊢
    omega

/-- A part of a text is written as the text is only if it is all of it. -/
theorem eq_of_percentEncode_sublist {keep : Char → Bool} {l m : List Char} (h : l.Sublist m)
    (heq : percentEncode keep l = percentEncode keep m) : l = m := by
  refine h.eq_of_length_le ?_
  have := length_percentEncode_sublist keep h
  rw [heq] at this
  omega

theorem percentEncode_eq_nil_iff {keep : Char → Bool} {cs : List Char} :
    percentEncode keep cs = [] ↔ cs = [] := by
  cases cs with
  | nil => simp [percentEncode_eq]
  | cons c cs => simp [percentEncode_eq, percentChar_ne_nil]

/-! ## §2 Reading it back -/

theorem hexValue?_hexDigit {n : Nat} (h : n < 16) : hexValue? (hexDigit n) = some n := by
  interval_cases n <;> decide

theorem percentDecode_percentByte {b : Nat} (h : b < 256) (cs : List Char) :
    percentDecode (percentByte b ++ cs) = b :: percentDecode cs := by
  have hhigh := hexValue?_hexDigit (Nat.mod_lt (b / 16) (by decide : 0 < 16))
  have hlow := hexValue?_hexDigit (Nat.mod_lt b (by decide : 0 < 16))
  simp only [percentByte, List.cons_append, List.nil_append, percentDecode, hhigh, hlow]
  congr 1
  omega

theorem percentDecode_flatMap_percentByte {bs : List Nat} (h : ∀ b ∈ bs, b < 256)
    (cs : List Char) : percentDecode (bs.flatMap percentByte ++ cs) = bs ++ percentDecode cs := by
  induction bs with
  | nil => rfl
  | cons b bs ih =>
    rw [List.flatMap_cons, List.append_assoc, percentDecode_percentByte (h b List.mem_cons_self),
      ih fun b hb => h b (List.mem_cons_of_mem _ hb)]
    rfl

theorem percentDecode_cons {c : Char} (h : c ≠ '%') (cs : List Char) :
    percentDecode (c :: cs) = utf8Bytes c ++ percentDecode cs := by
  rw [percentDecode]
  rintro a b rest hc -
  exact h hc

/-- The bytes of a text without percent signs are read back from what is written. -/
theorem percentDecode_percentEncode (keep : Char → Bool) {cs : List Char} (h : '%' ∉ cs) :
    percentDecode (percentEncode keep cs) = utf8Encode cs := by
  induction cs with
  | nil => rfl
  | cons c cs ih =>
    have hc : c ≠ '%' := fun hc => h (hc ▸ List.mem_cons_self)
    have hcs : '%' ∉ cs := fun hcs => h (List.mem_cons_of_mem _ hcs)
    show percentDecode (percentChar keep c ++ percentEncode keep cs) = utf8Bytes c ++ utf8Encode cs
    rw [← ih hcs]
    unfold percentChar
    split_ifs
    · exact percentDecode_cons hc _
    · exact percentDecode_flatMap_percentByte (fun _ => Text.utf8Bytes_lt) _

theorem percentEncode_injective {keep : Char → Bool} {l m : List Char} (hl : '%' ∉ l)
    (hm : '%' ∉ m) (h : percentEncode keep l = percentEncode keep m) : l = m := by
  refine Text.utf8Encode_injective ?_
  rw [← percentDecode_percentEncode keep hl, ← percentDecode_percentEncode keep hm, h]

end Url

end QueryPlayground
