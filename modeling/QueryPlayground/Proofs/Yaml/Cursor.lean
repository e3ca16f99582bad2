import QueryPlayground.Yaml.Cursor

/-!
# Steps of a cursor

A cursor that passes over the characters in front of it, one part after the other.
-/

namespace QueryPlayground.Yaml.Cursor

theorem skip_skip (c : Cursor) (m n : Nat) : (c.skip m).skip n = c.skip (m + n) := by
  simp [skip, Nat.add_assoc]

theorem rest_skip_append {c : Cursor} {a b : List Char} (h : c.rest = a ++ b) :
    (c.skip a.length).rest = b := by
  simp [skip, h]

theorem rest_skip_spaces {c : Cursor} {n : Nat} {text : List Char}
    (h : c.rest = List.replicate n ' ' ++ text) : (c.skip n).rest = text := by
  simp [skip, h]

/-- A line break that is one character. -/
theorem skipBreak_eq {c : Cursor} {b : Char} {text : List Char} (h : c.rest = b :: text)
    (hb : isBreakChar b = true) (hreturn : b ≠ '\r') :
    c.skipBreak = ⟨text, c.index + 1, c.line + 1, 0⟩ := by
  simp only [skipBreak, h]
  split
  · next heq => exact absurd (List.cons.inj heq).1 hreturn
  · next heq =>
    obtain ⟨rfl, rfl⟩ := List.cons.inj heq
    rw [if_pos hb]
  · next heq => cases heq

theorem skipBreak_lineFeed {c : Cursor} {text : List Char} (h : c.rest = '\n' :: text) :
    c.skipBreak = ⟨text, c.index + 1, c.line + 1, 0⟩ :=
  skipBreak_eq h rfl (by decide)

/-- A cursor further on in the text; on the same line it is known how far. -/
structure Lands (c c' : Cursor) (n : Nat) (text : List Char) (sameLine : Prop) : Prop where
  rest : c'.rest = text
  line : c.line ≤ c'.line
  place : sameLine → c' = c.skip n

theorem Lands.of_skip {c c' : Cursor} {m n : Nat} {text : List Char} {p : Prop}
    (h : Lands (c.skip m) c' n text p) : Lands c c' (m + n) text p :=
  ⟨h.rest, h.line, fun hp => (h.place hp).trans (skip_skip c m n)⟩

end QueryPlayground.Yaml.Cursor
