import QueryPlayground.Text.Blank

/-!
# Trimming the end of a text

What is left of a text without the blanks at its end, and what of a text put together from two.
-/

namespace QueryPlayground.Text

theorem dropBlanksRight_eq_self {cs : List Char} (h : ∀ c, cs.getLast? = some c → isBlank c = false) :
    dropBlanksRight cs = cs := by
  have hreverse : dropBlanks cs.reverse = cs.reverse :=
    dropBlanks_eq_self (by simpa only [List.head?_reverse] using h)
  exact (congrArg List.reverse hreverse).trans (List.reverse_reverse cs)

theorem dropBlanksRight_append_blanks {back : List Char} (h : ∀ c ∈ back, isBlank c = true)
    (cs : List Char) :
    dropBlanksRight (cs ++ back) = dropBlanksRight cs := by
  rw [dropBlanksRight, List.reverse_append]
  exact congrArg List.reverse (dropBlanks_append (by simpa using h) _)

theorem dropBlanksRight_append_lineFeed (cs : List Char) :
    dropBlanksRight (cs ++ ['\n']) = dropBlanksRight cs :=
  dropBlanksRight_append_blanks (fun _ hc => List.mem_singleton.mp hc ▸ rfl) cs

/-- What is left begins as the text did, and blanks come behind it. -/
theorem exists_dropBlanksRight (cs : List Char) :
    ∃ back, cs = dropBlanksRight cs ++ back ∧ ∀ c ∈ back, isBlank c = true := by
  refine ⟨(cs.reverse.takeWhile isBlank).reverse, ?_, fun c hc => ?_⟩
  · rw [dropBlanksRight, ← List.reverse_append, List.takeWhile_append_dropWhile, List.reverse_reverse]
  · exact List.all_eq_true.mp List.all_takeWhile c (List.mem_reverse.mp hc)

theorem isBlank_getLast?_dropBlanksRight {cs : List Char} {c : Char}
    (h : (dropBlanksRight cs).getLast? = some c) : isBlank c = false :=
  isBlank_head?_dropBlanks cs.reverse (by simpa [dropBlanksRight, dropBlanks] using h)

theorem dropBlanksRight_eq_self_iff {cs : List Char} :
    dropBlanksRight cs = cs ↔ ∀ c, cs.getLast? = some c → isBlank c = false :=
  ⟨fun h _ hc => isBlank_getLast?_dropBlanksRight (h.symm ▸ hc), dropBlanksRight_eq_self⟩

/-- The first part stays as it is where something is left of the second. -/
theorem dropBlanksRight_append {b : List Char} (h : dropBlanksRight b ≠ []) (a : List Char) :
    dropBlanksRight (a ++ b) = a ++ dropBlanksRight b := by
  obtain ⟨back, hb, hblank⟩ := exists_dropBlanksRight b
  have hlast : dropBlanksRight (a ++ dropBlanksRight b) = a ++ dropBlanksRight b := by
    refine dropBlanksRight_eq_self fun c hc => ?_
    rw [List.getLast?_append, List.getLast?_eq_some_getLast h, Option.some_or] at hc
    exact isBlank_getLast?_dropBlanksRight ((List.getLast?_eq_some_getLast h).trans hc)
  calc dropBlanksRight (a ++ b)
    _ = dropBlanksRight ((a ++ dropBlanksRight b) ++ back) := by rw [List.append_assoc, ← hb]
    _ = a ++ dropBlanksRight b := by rw [dropBlanksRight_append_blanks hblank, hlast]

end QueryPlayground.Text
