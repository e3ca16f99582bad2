/-!
# Machine words

The numbers that a word of sixty-four bits holds: without a sign they end before `MachineWord.count`,
with one they run from `-MachineWord.half` to the number before `MachineWord.half`. `MachineWord.wrap`
takes an integer to the signed word with the same bits.
-/

namespace QueryPlayground.MachineWord

/-! ## §1 Bounds -/

/-- The number of words. -/
def count : Nat := 0x10000000000000000

/-- The number of words without the sign bit. -/
def half : Nat := 0x8000000000000000

/-- The greatest word without a sign. -/
def maxUnsigned : Nat := count - 1

/-- The greatest word with a sign. -/
def maxSigned : Int := (half : Int) - 1

/-- The least word with a sign. -/
def minSigned : Int := -(half : Int)

/-! ## §2 Words of integers -/

/-- The word of an integer, without a sign. -/
def ofInt (n : Int) : Nat :=
  (n % (count : Int)).toNat

/-- The integer in the range of signed words with the same word. -/
def wrap (n : Int) : Int :=
  Int.bmod n count

/-! ## §3 Laws -/

/-- There are as many words as rows of sixty-four bits. -/
theorem count_eq_pow : count = Nat.pow 2 64 := rfl

/-- Half of the words have the sign bit. -/
theorem count_eq_two_mul_half : count = 2 * half := rfl

/-- A word is less than their number. -/
theorem ofInt_lt_count (n : Int) : ofInt n < count := by
  unfold ofInt count
  omega

/-- Wrapping keeps the word. -/
theorem ofInt_wrap (n : Int) : ofInt (wrap n) = ofInt n := by
  unfold ofInt wrap
  rw [Int.bmod_emod]

/-- A signed word is its own wrapping. -/
theorem wrap_eq_self {n : Int} (h : minSigned ≤ n) (h' : n ≤ maxSigned) : wrap n = n := by
  unfold wrap count
  unfold minSigned half at h
  unfold maxSigned half at h'
  rw [Int.bmod_def]
  omega

end QueryPlayground.MachineWord
