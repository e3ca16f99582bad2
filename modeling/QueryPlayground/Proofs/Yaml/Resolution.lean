import QueryPlayground.Yaml.Compose
import QueryPlayground.Proofs.Json.Token
import QueryPlayground.Proofs.Yaml.Plain

/-!
# What plain scalars mean

The words for null and the truth values, the digits of an integer and a string that is not ambiguous mean
what they were written for, and each of them is fit to be plain.

Main statements: `resolvePlain_intChars` and `resolvePlain_of_not_ambiguous`.
-/

namespace QueryPlayground.Yaml

open QueryPlayground.Decimal (digitChars)
open QueryPlayground.Json (IsWord Value exists_digitChars head?_digitChars intChars
  isDigit_of_mem_digitChars)

/-! ## §1 Integers -/

theorem toNat_of_isDigit {c : Char} (h : c.isDigit = true) : 48 ≤ c.toNat ∧ c.toNat ≤ 57 := by
  simp only [Char.isDigit, ge_iff_le, Bool.and_eq_true, decide_eq_true_eq, UInt32.le_iff_toNat_le] at h
  exact h

theorem digitIn?_of_isDigit {c : Char} (h : c.isDigit = true) : digitIn? 10 c = some (c.toNat - 48) := by
  have hrange := toNat_of_isDigit h
  have hlt : c.toNat - 48 < 10 := by omega
  simp [digitIn?, h, hlt]

theorem digitsIn?_of_isDigit {ds : List Char} (h : ∀ d ∈ ds, d.isDigit = true) (n : Nat) :
    digitsIn? 10 n ds = some (Nat.ofDigitChars 10 ds n) := by
  induction ds generalizing n with
  | nil => rfl
  | cons d ds ih =>
    have hd := digitIn?_of_isDigit (h d List.mem_cons_self)
    rw [digitsIn?, hd]
    dsimp only
    rw [ih fun e he => h e (List.mem_cons_of_mem _ he)]
    simp [Nat.ofDigitChars, Nat.mul_comm]

theorem natural?_digitChars {n limit : Nat} (h : n ≤ limit) :
    natural? 10 limit (digitChars n) = some n := by
  obtain ⟨d, ds, hds, -⟩ := exists_digitChars n
  have hvalue : Nat.ofDigitChars 10 (digitChars n) 0 = n :=
    Nat.ofDigitChars_toDigits (by decide) (by decide)
  have hread := digitsIn?_of_isDigit (fun d => isDigit_of_mem_digitChars (n := n)) 0
  rw [natural?, hread, hvalue, hds]
  simp [h]

/-- Digits are no sign and announce no radix, and there is no zero in front of others. -/
theorem digitChars_cases (n : Nat) :
    n = 0 ∨ ∃ d ds, digitChars n = d :: ds ∧ d.isDigit = true ∧ d ≠ '0' := by
  refine (Nat.eq_zero_or_pos n).imp_right fun hn => ?_
  obtain ⟨d, ds, hds, hd⟩ := exists_digitChars n
  have hzero := head?_digitChars (Nat.ne_of_gt hn)
  exact ⟨d, ds, hds, hd, by simpa [hds] using hzero⟩

theorem ne_of_isDigit {c d : Char} (h : c.isDigit = true) (hd : d.isDigit = false) : c ≠ d := by
  rintro rfl
  simp [h] at hd

theorem hasLeadingZero_digitChars (n : Nat) :
    hasLeadingZero (digitChars n) = false ∧ hasLeadingZero ('-' :: digitChars n) = false := by
  rcases digitChars_cases n with rfl | ⟨d, ds, hds, hd, hzero⟩
  · exact ⟨rfl, rfl⟩
  · have hplus := ne_of_isDigit (d := '+') hd rfl
    have hminus := ne_of_isDigit (d := '-') hd rfl
    simp [hasLeadingZero, hds, dropSign, hplus, hminus, hzero]

theorem radixOf?_digitChars (n : Nat) :
    radixOf? (digitChars n) = none ∧ radixOf? ('-' :: digitChars n) = none := by
  rcases digitChars_cases n with rfl | ⟨d, ds, hds, hd, hzero⟩
  · exact ⟨rfl, rfl⟩
  · simp [radixOf?, hds, hzero]

theorem unsigned?_digitChars {n limit : Nat} (h : n ≤ limit) :
    unsigned? limit (digitChars n) = some n := by
  obtain ⟨d, ds, hds, hd⟩ := exists_digitChars n
  have hplus := ne_of_isDigit (d := '+') hd rfl
  have hminus := ne_of_isDigit (d := '-') hd rfl
  have hbody : dropPlus (digitChars n) = digitChars n := by simp [hds, dropPlus, hplus]
  have hsign : startsWithSign (digitChars n) = false := by simp [hds, startsWithSign, hplus, hminus]
  simp [unsigned?, hbody, radixOf?_digitChars, hsign, hasLeadingZero_digitChars, natural?_digitChars h]

theorem negative?_digitChars {n limit : Nat} (h : n ≤ limit) :
    negative? limit ('-' :: digitChars n) = some (-(n : Int)) := by
  simp [negative?, radixOf?_digitChars, hasLeadingZero_digitChars, natural?_digitChars h]

theorem integer?_intChars {n : Int} (h : IsWord n) : integer? (intChars n) = some (some (.int n)) := by
  obtain ⟨hleast, hgreatest⟩ := h
  cases n with
  | ofNat k =>
    have hk : k ≤ MachineWord.maxUnsigned := Int.ofNat_le.mp hgreatest
    simp [integer?, intChars, unsigned?_digitChars hk]
  | negSucc k =>
    have hk : k + 1 ≤ MachineWord.half := by
      simp only [MachineWord.minSigned] at hleast
      omega
    have hnone (limit : Nat) : unsigned? limit ('-' :: digitChars (k + 1)) = none := by
      simp [unsigned?, dropPlus, radixOf?_digitChars, startsWithSign]
    simp only [integer?, intChars, hnone, negative?_digitChars hk]
    rfl

/-- The first character tells a number from a word. -/
theorem not_word_of_head {s : String} {c : Char} (h : s.toList.head? = some c)
    (hc : c.isDigit = true ∨ c = '-') :
    isNull s = false ∧ truth? s = none := by
  have hne (w : String) (d : Char) (hw : w.toList.head? = some d) (hd : d.isDigit = false ∧ d ≠ '-') :
      (s == w) = false := by
    rw [beq_eq_false_iff_ne]
    rintro rfl
    obtain rfl : d = c := Option.some.inj (hw.symm.trans h)
    exact hc.elim (by simp [hd.1]) hd.2
  constructor
  · simp [isNull, hne "null" 'n' rfl (by decide), hne "Null" 'N' rfl (by decide),
      hne "NULL" 'N' rfl (by decide), hne "~" '~' rfl (by decide)]
  · simp [truth?, hne "true" 't' rfl (by decide), hne "True" 'T' rfl (by decide),
      hne "TRUE" 'T' rfl (by decide), hne "false" 'f' rfl (by decide), hne "False" 'F' rfl (by decide),
      hne "FALSE" 'F' rfl (by decide)]

theorem intChars_cases (n : Int) : ∃ d ds, d.isDigit = true ∧ (∀ c ∈ ds, c.isDigit = true) ∧
    (intChars n = d :: ds ∨ intChars n = '-' :: d :: ds) := by
  have hdigits (k : Nat) :
      ∃ d ds, digitChars k = d :: ds ∧ d.isDigit = true ∧ ∀ c ∈ ds, c.isDigit = true := by
    obtain ⟨d, ds, hds, hd⟩ := exists_digitChars k
    refine ⟨d, ds, hds, hd, fun c hc => ?_⟩
    exact isDigit_of_mem_digitChars (n := k) (hds ▸ List.mem_cons_of_mem _ hc)
  cases n with
  | ofNat k =>
    obtain ⟨d, ds, hds, hd, hmore⟩ := hdigits k
    exact ⟨d, ds, hd, hmore, .inl hds⟩
  | negSucc k =>
    obtain ⟨d, ds, hds, hd, hmore⟩ := hdigits (k + 1)
    exact ⟨d, ds, hd, hmore, .inr (congrArg _ hds)⟩

/-- The digits of an integer mean it. -/
theorem resolvePlain_intChars {n : Int} (h : IsWord n) :
    resolvePlain (String.ofList (intChars n)) = .ok (.int n) := by
  obtain ⟨c, cs, hcs, hc⟩ : ∃ c cs, intChars n = c :: cs ∧ (c.isDigit = true ∨ c = '-') := by
    obtain ⟨d, ds, hd, -, hn | hn⟩ := intChars_cases n
    · exact ⟨_, _, hn, .inl hd⟩
    · exact ⟨_, _, hn, .inr rfl⟩
  obtain ⟨hnull, htruth⟩ := not_word_of_head (s := String.ofList (intChars n)) (by simp [hcs]) hc
  have hne : intChars n ≠ [] := by simp [hcs]
  simp [resolvePlain, hnull, htruth, integer?_intChars h, hne]

/-! ## §2 Strings -/

/-- A string that is not ambiguous means itself. -/
theorem resolvePlain_of_not_ambiguous {s : String} (h : isAmbiguous s = false) :
    resolvePlain s = .ok (.str s) := by
  simp only [isAmbiguous, Bool.or_eq_false_iff, Option.isSome_eq_false_iff,
    Option.isNone_iff_eq_none] at h
  obtain ⟨⟨⟨⟨⟨hempty, hnull⟩, htruth⟩, hinteger⟩, hzero⟩, hreal⟩ := h
  simp [resolvePlain, hempty, hnull, htruth, hinteger, hzero, hreal]

theorem integer?_ne_str {cs : List Char} {t : String} : integer? cs ≠ some (some (.str t)) := by
  unfold integer?
  intro h
  split at h
  · cases h
  · split at h
    · cases h
    · split at h <;> cases h

theorem real?_ne_str {s t : String} : real? s ≠ some (.str t) := by
  unfold real?
  intro h
  dsimp only at h
  split at h
  · cases h
  · split at h
    · cases h
    · obtain ⟨x, -, hx⟩ := Option.map_eq_some_iff.mp h
      cases hx

/-- Only a string means a string, and then itself. -/
theorem content_of_resolvePlain {s t : String} (h : resolvePlain s = .ok (.str t)) : s = t := by
  unfold resolvePlain at h
  dsimp only at h
  split at h
  · cases h
  · split at h
    · cases h
    · split at h
      · next v hv =>
        cases h
        exact absurd hv integer?_ne_str
      · cases h
      · split at h
        · cases h
          rfl
        · cases hreal : real? s with
          | none =>
            rw [hreal] at h
            cases h
            rfl
          | some v =>
            rw [hreal] at h
            cases h
            exact absurd hreal real?_ne_str

theorem content_of_scalarValue {s t : String} {style : ScalarStyle}
    (h : Source.scalarValue none s style = .ok (.str t)) : s = t := by
  cases style with
  | plain => exact content_of_resolvePlain h
  | marked =>
    cases h
    rfl

/-! ## §3 Plain texts -/

/-- Where nothing is an indicator but the first character may be one, a text is plain. -/
theorem plainText_of_word {cs : List Char} (hne : cs ≠ [])
    (hchars : ∀ c ∈ cs,
      isPrintable c = true ∧ (isBlankChar c || isBreakChar c) = false ∧ c ≠ ':' ∧ c ≠ '#')
    (hleads : leadsIndicator cs = false) (hdocument : startsLikeDocument cs = false) : PlainText cs := by
  have hindicators (afterGap : Bool) : holdsIndicator afterGap cs = false := by
    clear hne hleads hdocument
    induction cs generalizing afterGap with
    | nil => rfl
    | cons c cs ih =>
      obtain ⟨-, -, hcolon, hsign⟩ := hchars c List.mem_cons_self
      simp [holdsIndicator, hcolon, hsign, ih fun d hd => hchars d (List.mem_cons_of_mem _ hd)]
  refine ⟨hne, fun c hc => ⟨(hchars c hc).1, (Bool.or_eq_false_iff.mp (hchars c hc).2.1).2⟩,
    fun c hc => (hchars c (List.mem_of_mem_head? hc)).2.1, hleads, hdocument,
    fun c hc => .inr (hchars c hc).2.1, hindicators true, fun h => ?_⟩
  exact absurd (hchars ' ' (List.mem_of_getLast? h)).2.1 (by decide)

/-- The digits of an integer need no quotes, with a sign in front of them or without. -/
theorem plainText_intChars (n : Int) : PlainText (intChars n) := by
  have hdigit {c : Char} (hc : c.isDigit = true) :
      isPrintable c = true ∧ (isBlankChar c || isBreakChar c) = false ∧ c ≠ ':' ∧ c ≠ '#' := by
    have hrange := toNat_of_isDigit hc
    refine ⟨?_, ?_, ne_of_isDigit hc rfl, ne_of_isDigit hc rfl⟩
    · simp only [isPrintable, Bool.or_eq_true, Bool.and_eq_true, decide_eq_true_eq]
      omega
    · simp [isBlankChar, isBreakChar, ne_of_isDigit hc (d := ' ') rfl, ne_of_isDigit hc (d := '\t') rfl,
        ne_of_isDigit hc (d := '\n') rfl, ne_of_isDigit hc (d := '\r') rfl]
      omega
  obtain ⟨d, ds, hd, hds, hn⟩ := intChars_cases n
  have hne {c : Char} (hc : c.isDigit = false) : d ≠ c := ne_of_isDigit hd hc
  have hchars : ∀ c ∈ d :: ds, c.isDigit = true := List.forall_mem_cons.mpr ⟨hd, hds⟩
  rcases hn with hn | hn
  · rw [hn]
    refine plainText_of_word (List.cons_ne_nil _ _) (fun c hc => hdigit (hchars c hc))
      (by simp [leadsIndicator, hne]) ?_
    rcases ds with _ | ⟨_, _ | _⟩ <;> simp [startsLikeDocument, hne]
  · rw [hn]
    refine plainText_of_word (List.cons_ne_nil _ _) ?_ ?_ ?_
    · exact List.forall_mem_cons.mpr ⟨by decide, fun c hc => hdigit (hchars c hc)⟩
    · obtain ⟨-, hgap, -⟩ := hdigit hd
      have hzero : d.toNat ≠ 0 := by
        have := toNat_of_isDigit hd
        omega
      simp [leadsIndicator, atGap, isGap, hgap, hzero]
    · rcases ds with _ | ⟨_, _⟩ <;> simp [startsLikeDocument, (hne (c := '-') rfl).symm]

end QueryPlayground.Yaml
