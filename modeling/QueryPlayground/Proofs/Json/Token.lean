import Mathlib.Data.Nat.Digits.Defs
import QueryPlayground.Json.Printer
import QueryPlayground.Json.Reader

/-!
# What is written for strings and integers reads back

The reader takes a quoted string back to the string, and the digits of an integer back to the
integer where the text does not go on as a number. Both hold of every text behind them, so they can
be used in the middle of a document.

Main statements: `string_quote` and `number_intChars`.
-/

namespace QueryPlayground.Json

open QueryPlayground.Decimal

/-! ## §1 Escapes -/

theorem hexValue?_hexDigit : ∀ n, n < 16 → hexValue? (hexDigit n) = some n := by
  decide

theorem utf8Size_hexDigit (n : Nat) : 1 ≤ (hexDigit n).utf8Size :=
  Char.utf8Size_pos _

/-- Four hexadecimal digits are read as their number. -/
theorem hexUnit_hexFour {n : Nat} (h : n < 65536) (rest : List Char) :
    hexUnit (hexFour n ++ rest) = .ok (n, rest) := by
  have hbytes : ¬ Failure.byteCount ((hexFour n ++ rest).take 4) < 4 := by
    have h₁ := utf8Size_hexDigit (n / 4096 % 16)
    have h₂ := utf8Size_hexDigit (n / 256 % 16)
    have h₃ := utf8Size_hexDigit (n / 16 % 16)
    have h₄ := utf8Size_hexDigit (n % 16)
    simp only [hexFour, List.cons_append, List.nil_append, List.take_succ_cons, List.take_zero,
      Failure.byteCount, List.foldl_cons, List.foldl_nil]
    omega
  have hvalue : ((n / 4096 % 16 * 16 + n / 256 % 16) * 16 + n / 16 % 16) * 16 + n % 16 = n := by
    omega
  have hdigit (m : Nat) : hexValue? (hexDigit (m % 16)) = some (m % 16) :=
    hexValue?_hexDigit _ (Nat.mod_lt _ (by decide))
  simp only [hexFour, List.cons_append, List.nil_append] at hbytes ⊢
  rw [hexUnit, if_neg hbytes]
  simp only [hdigit, hvalue]

/-- The escape of a control character stands for it. -/
theorem hexEscape_hexFour {c : Char} (h : c.toNat < 32) (rest : List Char) :
    hexEscape (hexFour c.toNat ++ rest) = .ok (c, rest) := by
  have hlow : ¬ (0xDC00 ≤ c.toNat ∧ c.toNat ≤ 0xDFFF) := by omega
  have hhigh : c.toNat < 0xD800 ∨ 0xDBFF < c.toNat := by omega
  rw [hexEscape, hexUnit_hexFour (by omega)]
  simp only [bind, Except.bind, if_neg hlow, if_pos hhigh, Char.ofNat_toNat]

/-- A character is written as itself or behind a backslash, where it is read back. -/
theorem escapeChar_cases (c : Char) :
    (escapeChar c = [c] ∧ c ≠ '"' ∧ c ≠ '\\' ∧ 32 ≤ c.toNat) ∨
      ∃ e, escapeChar c = '\\' :: e ∧ ∀ rest, escape (e ++ rest) = .ok (c, rest) := by
  unfold escapeChar
  split
  · exact .inr ⟨['"'], rfl, fun rest => by subst_vars; rfl⟩
  split
  · exact .inr ⟨['\\'], rfl, fun rest => by subst_vars; rfl⟩
  split
  · exact .inr ⟨['n'], rfl, fun rest => by subst_vars; rfl⟩
  split
  · exact .inr ⟨['r'], rfl, fun rest => by subst_vars; rfl⟩
  split
  · exact .inr ⟨['t'], rfl, fun rest => by subst_vars; rfl⟩
  split
  · exact .inr ⟨['b'], rfl, fun rest => by subst_vars; rfl⟩
  split
  · exact .inr ⟨['f'], rfl, fun rest => by subst_vars; rfl⟩
  split
  case isTrue hcontrol =>
    refine .inr ⟨'u' :: hexFour c.toNat, rfl, fun rest => ?_⟩
    exact hexEscape_hexFour hcontrol rest
  case isFalse hquote hslash _ _ _ _ _ hcontrol =>
    exact .inl ⟨rfl, hquote, hslash, by omega⟩

/-! ## §2 Strings -/

/-- Each character takes one step of the reader, however long its escape is. -/
theorem stringFrom_escapeChar (fuel : Nat) (done : List Char) (c : Char) (rest : List Char) :
    stringFrom (fuel + 1) done (escapeChar c ++ rest) = stringFrom fuel (c :: done) rest := by
  rcases escapeChar_cases c with ⟨hself, hquote, hslash, hcontrol⟩ | ⟨e, hesc, hread⟩
  · have hcontrol' : ¬ c.toNat < 32 := by omega
    simp [hself, stringFrom, hquote, hslash, hcontrol']
  · simp [hesc, stringFrom, hread]

theorem stringFrom_flatMap_escapeChar (cs : List Char) (rest : List Char) :
    ∀ (fuel : Nat) (done : List Char), cs.length < fuel →
      stringFrom fuel done (cs.flatMap escapeChar ++ '"' :: rest) =
        .ok (String.ofList (done.reverse ++ cs), rest) := by
  induction cs with
  | nil =>
    intro fuel done hfuel
    obtain ⟨fuel, rfl⟩ := Nat.exists_eq_add_of_lt hfuel
    simp [stringFrom]
  | cons c cs ih =>
    intro fuel done hfuel
    obtain ⟨fuel, rfl⟩ : ∃ n, fuel = n + 1 := ⟨fuel - 1, by grind⟩
    rw [List.flatMap_cons, List.append_assoc, stringFrom_escapeChar,
      ih fuel (c :: done) (by simpa using hfuel)]
    simp

theorem one_le_length_escapeChar (c : Char) : 1 ≤ (escapeChar c).length := by
  rcases escapeChar_cases c with ⟨h, -⟩ | ⟨e, h, -⟩ <;> simp [h]

theorem length_le_length_flatMap_escapeChar (cs : List Char) :
    cs.length ≤ (cs.flatMap escapeChar).length := by
  induction cs with
  | nil => simp
  | cons c cs ih =>
    have := one_le_length_escapeChar c
    simp only [List.flatMap_cons, List.length_append, List.length_cons]
    omega

/-- What stands behind the opening quote of a quoted string reads back as the string. -/
theorem string_quote (s : String) (rest : List Char) :
    string (s.toList.flatMap escapeChar ++ '"' :: rest) = .ok (s, rest) := by
  have hlength := length_le_length_flatMap_escapeChar s.toList
  rw [string, stringFrom_flatMap_escapeChar]
  · simp
  · simp only [List.length_append, List.length_cons]
    omega

theorem quote_append (s : String) (rest : List Char) :
    quote s ++ rest = '"' :: (s.toList.flatMap escapeChar ++ '"' :: rest) := by
  simp [quote]

/-! ## §3 Integers -/

/-- Whether a number that was read up to here does not go on. -/
def EndsNumber (cs : List Char) : Prop :=
  ∀ c, cs.head? = some c → c.isDigit = false ∧ c ≠ '.' ∧ c ≠ 'e' ∧ c ≠ 'E'

theorem EndsNumber.startsWithDigit {cs : List Char} (h : EndsNumber cs) :
    startsWithDigit cs = false := by
  cases cs with
  | nil => rfl
  | cons c cs => exact (h c rfl).1

theorem EndsNumber.startsWithExponent {cs : List Char} (h : EndsNumber cs) :
    startsWithExponent cs = false := by
  cases cs with
  | nil => rfl
  | cons c cs =>
    obtain ⟨-, -, he, hE⟩ := h c rfl
    simp [Json.startsWithExponent, he, hE]

theorem le_ofDigitChars (ds : List Char) (n : Nat) : n ≤ Nat.ofDigitChars 10 ds n := by
  induction ds generalizing n with
  | nil => exact le_rfl
  | cons d ds ih =>
    have := ih (10 * n + (d.toNat - '0'.toNat))
    simp only [Nat.ofDigitChars, List.foldl_cons] at this ⊢
    omega

/-- Digits are read to the last one where the number they write is within the limit. -/
theorem digitsWithin_append {limit : Nat} {rest : List Char} (hrest : startsWithDigit rest = false)
    (ds : List Char) (hdigits : ∀ d ∈ ds, d.isDigit = true) :
    ∀ (n count : Nat), Nat.ofDigitChars 10 ds n ≤ limit →
      digitsWithin limit n count (ds ++ rest) =
        (Nat.ofDigitChars 10 ds n, count + ds.length, rest) := by
  induction ds with
  | nil =>
    intro n count _
    cases rest with
    | nil => simp [digitsWithin, Nat.ofDigitChars]
    | cons c rest =>
      have hc : c.isDigit = false := hrest
      simp [digitsWithin, Nat.ofDigitChars, hc]
  | cons d ds ih =>
    intro n count hle
    have hd : d.isDigit = true := hdigits d List.mem_cons_self
    have hstep : Nat.ofDigitChars 10 (d :: ds) n = Nat.ofDigitChars 10 ds (n * 10 + digitValue d) := by
      simp [Nat.ofDigitChars, digitValue, Nat.mul_comm]
    rw [hstep] at hle ⊢
    have hwithin : n * 10 + digitValue d ≤ limit := le_trans (le_ofDigitChars ds _) hle
    rw [List.cons_append, digitsWithin, if_pos (by simp [hd, hwithin]),
      ih (fun e he => hdigits e (List.mem_cons_of_mem _ he)) _ _ hle]
    simp [Nat.add_assoc, Nat.add_comm 1]

/-- Only zero is written with a zero in front. -/
theorem head?_digitChars {n : Nat} (h : n ≠ 0) : (digitChars n).head? ≠ some '0' := by
  unfold digitChars
  induction n using Nat.strongRecOn with
  | ind n ih =>
    rcases Nat.lt_or_ge n 10 with hlt | hge
    · rw [Nat.toDigits_of_lt_base hlt]
      have : ∀ m, m < 10 → m ≠ 0 → [m.digitChar].head? ≠ some '0' := by decide
      exact this n hlt h
    · rw [Nat.toDigits_of_base_le (by decide) hge, List.head?_append]
      obtain ⟨d, ds, hds⟩ := List.exists_cons_of_ne_nil (Nat.toDigits_ne_nil (n := n / 10) (b := 10))
      simpa [hds] using ih (n / 10) (by omega) (by omega)

theorem isDigit_of_mem_digitChars {n : Nat} {c : Char} (h : c ∈ digitChars n) :
    c.isDigit = true :=
  Nat.isDigit_of_mem_toDigits (by decide) (by decide) h

/-- There is at least one digit. -/
theorem exists_digitChars (n : Nat) :
    ∃ d ds, digitChars n = d :: ds ∧ d.isDigit = true := by
  obtain ⟨d, ds, hds⟩ := List.exists_cons_of_ne_nil (Nat.toDigits_ne_nil : digitChars n ≠ [])
  exact ⟨d, ds, hds, isDigit_of_mem_digitChars (n := n) (by simp [digitChars, hds])⟩

/-- Behind the digits of an integer the reader decides by what follows them. -/
theorem number_digitChars (negative : Bool) {n : Nat} (h : n ≤ MachineWord.maxUnsigned)
    {rest : List Char} (hrest : EndsNumber rest) :
    number negative (digitChars n ++ rest) = afterDigits negative n rest := by
  by_cases hn : n = 0
  · subst hn
    show number negative ('0' :: rest) = _
    simp [number, hrest.startsWithDigit]
  · obtain ⟨d, ds, hds, hd⟩ := exists_digitChars n
    have hzero : d ≠ '0' := by
      have := head?_digitChars hn
      simpa [hds] using this
    have hvalue : Nat.ofDigitChars 10 (digitChars n) 0 = n :=
      Nat.ofDigitChars_toDigits (by decide) (by decide)
    have hread : digitsWithin MachineWord.maxUnsigned 0 0 (digitChars n ++ rest) =
        (n, 0 + (digitChars n).length, rest) := by
      rw [digitsWithin_append hrest.startsWithDigit _ (fun _ => isDigit_of_mem_digitChars) 0 0
        (hvalue.trans_le h), hvalue]
    rw [hds, List.cons_append] at hread ⊢
    simp [number, hzero, hd, hread, hrest.startsWithDigit]

theorem afterDigits_of_endsNumber (negative : Bool) (n : Nat) {rest : List Char}
    (h : EndsNumber rest) : afterDigits negative n rest = integer negative n rest := by
  cases rest with
  | nil => simp [afterDigits, startsWithExponent]
  | cons c rest =>
    obtain ⟨-, hpoint, -, -⟩ := h c rfl
    rw [afterDigits]
    · simp [h.startsWithExponent]
    · rintro tail ⟨rfl, -⟩
      exact hpoint rfl

/-- The integers that a document can hold as such. -/
def IsWord (n : Int) : Prop :=
  MachineWord.minSigned ≤ n ∧ n ≤ MachineWord.maxUnsigned

/-- The text of an integer starts with a digit or a minus sign, behind which the number is read. -/
theorem number_intChars {n : Int} (h : IsWord n) {rest : List Char} (hrest : EndsNumber rest) :
    (∃ d ds, intChars n = d :: ds ∧ d.isDigit = true ∧
        number false (d :: (ds ++ rest)) = .ok (.int n, rest)) ∨
      ∃ ds, intChars n = '-' :: ds ∧ number true (ds ++ rest) = .ok (.int n, rest) := by
  obtain ⟨hleast, hgreatest⟩ := h
  cases n with
  | ofNat k =>
    have hk : k ≤ MachineWord.maxUnsigned := by simpa using hgreatest
    obtain ⟨d, ds, hds, hd⟩ := exists_digitChars k
    refine .inl ⟨d, ds, hds, hd, ?_⟩
    rw [← List.cons_append, ← hds, number_digitChars false hk hrest,
      afterDigits_of_endsNumber _ _ hrest]
    rfl
  | negSucc k =>
    have hk : k + 1 ≤ MachineWord.half := by
      simp only [MachineWord.minSigned] at hleast
      omega
    have hword : MachineWord.half ≤ MachineWord.maxUnsigned := by decide
    refine .inr ⟨digitChars (k + 1), rfl, ?_⟩
    rw [number_digitChars true (hk.trans hword) hrest, afterDigits_of_endsNumber _ _ hrest]
    simp [integer, hk, Int.negSucc_eq]

end QueryPlayground.Json
