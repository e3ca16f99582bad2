import QueryPlayground.Proofs.Url.Percent
import QueryPlayground.Text.Utf8

/-!
# Text that was encoded is decoded to itself

The bytes of a character are read back as the character, whatever bytes follow, so the decoder that
never refuses has nothing to replace in the bytes of a text.

Main statement: `utf8Lossy_utf8Encode`.
-/

namespace QueryPlayground.Text

/-! ## §1 Characters -/

theorem leadingByte?_two :
    ∀ n, n < 32 → 2 ≤ n → leadingByte? (0xC0 + n) = some (1, n, 0x80) := by
  decide

theorem leadingByte?_three : ∀ n, n < 16 → leadingByte? (0xE0 + n) = some (2, n, 0x800) := by
  decide

theorem leadingByte?_four : ∀ n, n < 5 → leadingByte? (0xF0 + n) = some (3, n, 0x10000) := by
  decide

theorem continuation?_cons {n m : Nat} (h : m < 64) (bs : List Nat) :
    continuation? n ((0x80 + m) :: bs) = continuation? (n * 64 + m) bs := by
  have hrange : (decide (0x80 ≤ 0x80 + m) && decide (0x80 + m < 0xC0)) = true := by
    simp only [Bool.and_eq_true, decide_eq_true_eq]
    omega
  rw [continuation?, if_pos hrange, Nat.add_sub_cancel_left]

/-- A leading byte and the bytes that it announces are read as the character of their payload. -/
theorem utf8Char?_append {b count payload least : Nat} {c : Char} {bs : List Nat}
    (hlead : leadingByte? b = some (count, payload, least)) (hcount : bs.length = count)
    (hpayload : continuation? payload bs = some c.toNat) (hleast : least ≤ c.toNat)
    (rest : List Nat) : utf8Char? (b :: (bs ++ rest)) = some (c, bs.length + 1) := by
  have hpoint := toNat_lt_points c
  have hsurrogate : ¬ (0xD800 ≤ c.toNat ∧ c.toNat ≤ 0xDFFF) := by
    rcases c.valid with h | ⟨h, -⟩ <;> simp only [Char.toNat] at h ⊢ <;> omega
  have htake : (bs ++ rest).take count = bs := List.take_left' hcount
  have hvalid : ¬ ((decide (c.toNat < least) ||
      (decide (0xD800 ≤ c.toNat) && decide (c.toNat ≤ 0xDFFF)) ||
      decide (0x10FFFF < c.toNat)) = true) := by
    simp only [Bool.or_eq_true, Bool.and_eq_true, decide_eq_true_eq]
    omega
  simp only [utf8Char?, hlead, htake, hcount, hpayload, Option.bind_eq_bind, Option.bind_some,
    Nat.lt_irrefl, if_false, if_neg hvalid, Char.ofNat_toNat]

/-- The bytes of a character are a leading byte and those that it announces. -/
theorem utf8Char?_utf8Bytes (c : Char) :
    ∃ b bs, utf8Bytes c = b :: bs ∧
      ∀ rest, utf8Char? (b :: (bs ++ rest)) = some (c, bs.length + 1) := by
  have hpoint := toNat_lt_points c
  unfold utf8Bytes
  dsimp only
  -- One to four bytes; each continuation takes six bits of the number, which division gives back.
  split_ifs with hone htwo hthree
  · have hlead : leadingByte? c.toNat = some (0, c.toNat, 0) := if_pos hone
    exact ⟨_, [], rfl, utf8Char?_append hlead rfl rfl (Nat.zero_le _)⟩
  · have hlead := leadingByte?_two (c.toNat / 64) (by omega) (by omega)
    refine ⟨_, [_], rfl, utf8Char?_append hlead rfl ?_ (by omega)⟩
    rw [continuation?_cons (by omega), continuation?]
    congr 1
    omega
  · have hlead := leadingByte?_three (c.toNat / 4096) (by omega)
    refine ⟨_, [_, _], rfl, utf8Char?_append hlead rfl ?_ (by omega)⟩
    rw [continuation?_cons (by omega), continuation?_cons (by omega), continuation?]
    congr 1
    omega
  · have hlead := leadingByte?_four (c.toNat / 262144) (by omega)
    refine ⟨_, [_, _, _], rfl, utf8Char?_append hlead rfl ?_ (by omega)⟩
    rw [continuation?_cons (by omega), continuation?_cons (by omega), continuation?_cons (by omega),
      continuation?]
    congr 1
    omega

/-! ## §2 Texts -/

theorem utf8LossyFrom_utf8Encode {cs : List Char} {fuel : Nat} (h : cs.length ≤ fuel)
    (done : List Char) : utf8LossyFrom fuel done (utf8Encode cs) = done.reverse ++ cs := by
  induction cs generalizing fuel done with
  | nil => simp [utf8Encode, utf8LossyFrom]
  | cons c cs ih =>
    obtain ⟨fuel, rfl⟩ : ∃ n, fuel = n + 1 := ⟨fuel - 1, by grind⟩
    obtain ⟨b, bs, hbytes, hread⟩ := utf8Char?_utf8Bytes c
    have hencode : utf8Encode (c :: cs) = b :: (bs ++ utf8Encode cs) := by
      rw [utf8Encode, List.flatMap_cons, hbytes]
      rfl
    rw [hencode, utf8LossyFrom, hread]
    simp only [Nat.add_sub_cancel, List.drop_left]
    rw [ih (Nat.le_of_succ_le_succ h)]
    simp

theorem length_le_length_utf8Encode (cs : List Char) : cs.length ≤ (utf8Encode cs).length := by
  induction cs with
  | nil => exact Nat.le_refl _
  | cons c cs ih =>
    have hbytes := List.length_pos_iff.mpr (utf8Bytes_ne_nil c)
    simp only [utf8Encode, List.flatMap_cons, List.length_append, List.length_cons] at ih ⊢
    omega

/-- In the bytes of a text nothing is malformed. -/
@[simp]
theorem utf8Lossy_utf8Encode (cs : List Char) : utf8Lossy (utf8Encode cs) = cs :=
  utf8LossyFrom_utf8Encode (length_le_length_utf8Encode cs) []

end QueryPlayground.Text
