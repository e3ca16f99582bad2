import QueryPlayground.Json.Stream
import QueryPlayground.Proofs.Json.Prefix

/-!
# Several values in one text

Any number of values may stand in a text, with space before, between and behind them, of which only
the one between two values has to be there. Read as a stream, the text gives these values in order,
each of them as its own text alone would be read.

Main statement: `Series.parseStream`.
-/

namespace QueryPlayground.Json

/-- The texts that hold values one behind the other. -/
inductive Series : List Value → List Char → Prop where
  | nil {a : List Char} : IsGap a → Series [] a
  | last {v : Value} {a cs : List Char} :
      IsGap a → IsSharp cs → Value.parseChars cs = .ok v → Series [v] (a ++ cs)
  | cons {v : Value} {vs : List Value} {a cs more : List Char} {c : Char} :
      IsGap a → IsSharp cs → Value.parseChars cs = .ok v → isSpace c = true → Series vs more →
      Series (v :: vs) (a ++ (cs ++ c :: more))

variable {a cs tail : List Char} {v : Value} {vs : List Value}

/-! ## §1 Where a value ends -/

theorem skipSpace_eq_nil_iff : skipSpace cs = [] ↔ IsGap cs := by
  rw [skipSpace, List.dropWhile_eq_nil_iff]
  rfl

/-- A text goes on with space, if at all. -/
def IsBreak (cs : List Char) : Prop :=
  ∀ c, cs.head? = some c → isSpace c = true

theorem isBreak_nil : IsBreak [] := by
  simp [IsBreak]

theorem isBreak_cons {c : Char} (h : isSpace c = true) (cs : List Char) : IsBreak (c :: cs) := by
  intro b hb
  obtain rfl : c = b := by simpa using hb
  exact h

theorem IsBreak.append (h : IsBreak tail) (ha : IsGap a) : IsBreak (a ++ tail) := by
  cases a with
  | nil => exact h
  | cons c a => exact isBreak_cons (ha c List.mem_cons_self) _

theorem IsBreak.endsNumber (h : IsBreak tail) : EndsNumber tail :=
  endsNumber_of_head fun c hc => .inl (h c hc)

theorem IsBreak.endOfWord (h : IsBreak tail) : endOfWord tail = .ok () := by
  cases tail with
  | nil => rfl
  | cons c tail =>
    have hc : isDelimiter c = true := by simp [isDelimiter, h c rfl]
    rw [Json.endOfWord, if_pos hc]

/-! ## §2 Reading a stream -/

theorem exists_read_of_parseChars (h : Value.parseChars cs = .ok v) :
    ∃ rest, IsGap rest ∧ Value.read cs = .ok (v, rest) := by
  obtain ⟨⟨w, rest⟩, hread, h⟩ := bind_eq_ok h
  obtain ⟨_, hend, h⟩ := bind_eq_ok h
  cases h
  refine ⟨rest, skipSpace_eq_nil_iff.mp ?_, hread⟩
  unfold atEnd at hend
  split at hend
  next hspace => exact hspace
  next => simp at hend

/-- In front of a break a value is read as if it stood alone. -/
theorem exists_readItem_append (h : Value.parseChars cs = .ok v) (htail : IsBreak tail) :
    ∃ rest, IsGap rest ∧ Value.readItem (cs ++ tail) = .ok (v, rest ++ tail) := by
  obtain ⟨rest, hgap, hread⟩ := exists_read_of_parseChars h
  refine ⟨rest, hgap, ?_⟩
  rw [Value.readItem, steady_read htail.endsNumber hread]
  -- Brackets and quotes show the end of a value; behind any other one there is a break.
  simp only [(htail.append hgap).endOfWord, ite_self]

theorem readStream_of_isGap (ha : IsGap a) (fuel : Nat) : Value.readStream fuel a = .ok [] := by
  cases fuel with
  | zero => rfl
  | succ fuel => rw [Value.readStream, skipSpace_eq_nil_iff.mpr ha]

theorem exists_readStream_append (ha : IsGap a) (hcs : IsSharp cs)
    (h : Value.parseChars cs = .ok v) (htail : IsBreak tail) (fuel : Nat) :
    ∃ rest, IsGap rest ∧ ∀ vs, Value.readStream fuel (rest ++ tail) = .ok vs →
      Value.readStream (fuel + 1) (a ++ (cs ++ tail)) = .ok (v :: vs) := by
  obtain ⟨rest, hgap, hitem⟩ := exists_readItem_append h htail
  refine ⟨rest, hgap, fun vs hmore => ?_⟩
  obtain ⟨c, more, rfl, -⟩ := id hcs
  rw [Value.readStream, skipSpace_append ha (hcs.append tail)]
  rw [List.cons_append] at hitem ⊢
  simp only [hitem, hmore]

/-- The values of a series are read in order; each of them takes one step. -/
theorem Series.readStream (h : Series vs cs) :
    ∀ {b : List Char} {fuel : Nat}, IsGap b → vs.length ≤ fuel →
      Value.readStream fuel (b ++ cs) = .ok vs := by
  induction h with
  | nil ha => exact fun hb _ => readStream_of_isGap (hb.append ha) _
  | @last v a cs ha hcs hv =>
    intro b fuel hb hfuel
    obtain ⟨fuel, rfl⟩ : ∃ n, fuel = n + 1 := ⟨fuel - 1, by grind⟩
    obtain ⟨rest, hgap, hread⟩ :=
      exists_readStream_append (hb.append ha) hcs hv isBreak_nil fuel
    rw [List.append_nil] at hread
    simpa using hread [] (readStream_of_isGap (by simpa using hgap) fuel)
  | @cons v vs a cs more c ha hcs hv hc _ ih =>
    intro b fuel hb hfuel
    obtain ⟨fuel, rfl⟩ : ∃ n, fuel = n + 1 := ⟨fuel - 1, by grind⟩
    obtain ⟨rest, hgap, hread⟩ :=
      exists_readStream_append (hb.append ha) hcs hv (isBreak_cons hc more) fuel
    -- What is left behind this value is space in front of the next one.
    have hspace : IsGap (rest ++ [c]) := hgap.append (isGap_singleton hc)
    have hmore := ih hspace (Nat.le_of_succ_le_succ hfuel)
    rw [List.append_assoc, List.singleton_append] at hmore
    simpa using hread vs hmore

theorem Series.length_le (h : Series vs cs) : vs.length ≤ cs.length := by
  induction h with
  | nil => exact Nat.zero_le _
  | last _ hcs _ =>
    obtain ⟨c, more, rfl, -⟩ := hcs
    simp
    omega
  | cons _ hcs _ _ _ ih =>
    obtain ⟨c, more, rfl, -⟩ := hcs
    simp
    omega

/-- A text that spells a value is a series of this one. -/
theorem Spells.series (h : Spells maxDepth v cs) : Series [v] cs :=
  .last isGap_nil h.isSharp h.parseChars_alone

/-- A series is read to its values. -/
theorem Series.parseStream (h : Series vs cs) : Value.parseStream cs = .ok vs := by
  have hread := h.readStream isGap_nil (Nat.le_succ_of_le h.length_le)
  rw [List.nil_append] at hread
  rw [Value.parseStream, hread]
  rfl

end QueryPlayground.Json
