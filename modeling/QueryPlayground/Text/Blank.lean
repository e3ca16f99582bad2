/-!
# Blank characters

White space as the Unicode property `White_Space` has it, and trimming of text at both ends.

Trimming is stated on lists of characters; the functions on `String` only convert.
-/

namespace QueryPlayground.Text

/-! ## §1 The class -/

/-- The characters with the property `White_Space`. -/
def isBlank (c : Char) : Bool :=
  let n := c.toNat
  (9 ≤ n && n ≤ 13) || n == 32 || n == 0x85 || n == 0xA0 || n == 0x1680 ||
    (0x2000 ≤ n && n ≤ 0x200A) || n == 0x2028 || n == 0x2029 || n == 0x202F ||
    n == 0x205F || n == 0x3000

/-! ## §2 Trimming lists of characters -/

def dropBlanks (cs : List Char) : List Char :=
  cs.dropWhile isBlank

def dropBlanksRight (cs : List Char) : List Char :=
  (cs.reverse.dropWhile isBlank).reverse

/-- Drops the blanks at both ends. -/
def trimBlanks (cs : List Char) : List Char :=
  dropBlanksRight (dropBlanks cs)

/-! ## §3 Trimming strings -/

/-- The text without the blanks at either end. -/
def trim (s : String) : String :=
  String.ofList (trimBlanks s.toList)

/-- The text without the blanks at its end. -/
def trimRight (s : String) : String :=
  String.ofList (dropBlanksRight s.toList)

/-! ## §4 Small laws -/

/-- Nothing blank stands in front once the blanks are dropped. -/
theorem head?_dropBlanks (cs : List Char) : (dropBlanks cs).head?.all (!isBlank ·) = true := by
  induction cs with
  | nil => rfl
  | cons c cs ih =>
    by_cases h : isBlank c = true
    · simpa [dropBlanks, List.dropWhile, h] using ih
    · simp [dropBlanks, List.dropWhile, h]

/-! ## §5 What trimming leaves -/

/-- A text between blanks that has none at its own ends. -/
structure Trims (cs t : List Char) : Prop where
  split : ∃ front back, cs = front ++ t ++ back ∧ (∀ c ∈ front, isBlank c = true) ∧
    ∀ c ∈ back, isBlank c = true
  head : ∀ c, t.head? = some c → isBlank c = false
  last : ∀ c, t.getLast? = some c → isBlank c = false

theorem dropBlanks_append {front : List Char} (h : ∀ c ∈ front, isBlank c = true)
    (cs : List Char) : dropBlanks (front ++ cs) = dropBlanks cs :=
  List.dropWhile_append_of_pos h

theorem dropBlanks_eq_self {cs : List Char} (h : ∀ c, cs.head? = some c → isBlank c = false) :
    dropBlanks cs = cs := by
  cases cs with
  | nil => rfl
  | cons c cs => simp [dropBlanks, h c rfl]

theorem isBlank_head?_dropBlanks (cs : List Char) {c : Char}
    (h : (dropBlanks cs).head? = some c) : isBlank c = false := by
  have hall := head?_dropBlanks cs
  rw [h] at hall
  simpa using hall

/-- A text without blanks at its ends is all that trimming leaves of it and blanks around it. -/
theorem trimBlanks_of_trims {cs t : List Char} (h : Trims cs t) : trimBlanks cs = t := by
  obtain ⟨⟨front, back, rfl, hfront, hback⟩, hhead, hlast⟩ := h
  rw [trimBlanks, List.append_assoc, dropBlanks_append hfront, dropBlanksRight]
  cases t with
  | nil =>
    -- Nothing but blanks: dropping those in front takes them all.
    have hnil : dropBlanks back = [] := by simpa [dropBlanks] using dropBlanks_append hback []
    simp [hnil]
  | cons c t =>
    have hhead' : dropBlanks (c :: t ++ back) = c :: t ++ back :=
      dropBlanks_eq_self (by simpa using hhead)
    have hlast' : dropBlanks (c :: t).reverse = (c :: t).reverse :=
      dropBlanks_eq_self (by simpa only [List.head?_reverse] using hlast)
    have hback' : dropBlanks (back.reverse ++ (c :: t).reverse) = dropBlanks (c :: t).reverse :=
      dropBlanks_append (by simpa using hback) _
    rw [hhead', List.reverse_append]
    calc (dropBlanks (back.reverse ++ (c :: t).reverse)).reverse
      _ = (c :: t).reverse.reverse := by rw [hback', hlast']
      _ = c :: t := List.reverse_reverse _

theorem trims_trimBlanks (cs : List Char) : Trims cs (trimBlanks cs) := by
  have hfront : cs = cs.takeWhile isBlank ++ dropBlanks cs := by simp [dropBlanks]
  have hback : dropBlanks cs =
      trimBlanks cs ++ ((dropBlanks cs).reverse.takeWhile isBlank).reverse := by
    rw [trimBlanks, dropBlanksRight, ← List.reverse_append, List.takeWhile_append_dropWhile,
      List.reverse_reverse]
  constructor
  case split =>
    refine ⟨cs.takeWhile isBlank, ((dropBlanks cs).reverse.takeWhile isBlank).reverse, ?_, ?_, ?_⟩
    · rw [List.append_assoc, ← hback]
      exact hfront
    · intro c hc
      exact List.all_eq_true.mp List.all_takeWhile c hc
    · intro c hc
      exact List.all_eq_true.mp List.all_takeWhile c (List.mem_reverse.mp hc)
  case head =>
    -- The trimmed text begins where the text without its front does.
    intro c hc
    refine isBlank_head?_dropBlanks cs ?_
    rw [hback, List.head?_append, hc]
    rfl
  case last =>
    intro c hc
    refine isBlank_head?_dropBlanks (dropBlanks cs).reverse ?_
    rw [trimBlanks, dropBlanksRight, List.getLast?_reverse] at hc
    exact hc

/-- There is one text that is left when a text is trimmed, and `trimBlanks` finds it. -/
theorem trims_iff {cs t : List Char} : Trims cs t ↔ t = trimBlanks cs :=
  ⟨fun h => (trimBlanks_of_trims h).symm, fun h => h ▸ trims_trimBlanks cs⟩

end QueryPlayground.Text
