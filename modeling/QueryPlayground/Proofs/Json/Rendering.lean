import Mathlib
import QueryPlayground.Evaluation
import QueryPlayground.Proofs.Json.Normal

/-!
# Rendering as JSON keeps the value

A value that was read from a JSON document and has no other numbers than integers is read back from
every rendering of it, compact or indented by any number of spaces. So the renderings of a value all
denote the same, rendering anew does not depend on the indentation before, and the query `.` answers
with a document to which it is the identity.

Main statement: `evaluate_point_rendered`.
-/

namespace QueryPlayground

open QueryPlayground.Json

/-- Both layouts read back as the value, and so does one with any indentation. -/
theorem parseChars_renderJson {v : Value} (hnormal : Normal maxDepth v) (hint : Integral v)
    (indent : Nat) : Value.parseChars (renderJson indent v).toList = .ok v := by
  have hspells : Spells maxDepth v (renderJson indent v).toList := by
    unfold renderJson
    split
    · simpa [Value.compact] using hnormal.spells_compact hint
    · simpa [Value.pretty] using hnormal.spells_pretty hint indent 0
  exact hspells.parseChars_alone

theorem parseChars_of_parse {text : String} {v : Value} (h : Value.parse text = .ok v) :
    Value.parseChars text.toList = .ok v := by
  unfold Value.parse at h
  cases hread : Value.parseChars text.toList with
  | error f => simp [hread, Except.mapError] at h
  | ok w => simpa [hread, Except.mapError] using h

theorem parse_of_parseChars {text : String} {v : Value}
    (h : Value.parseChars text.toList = .ok v) : Value.parse text = .ok v := by
  simp [Value.parse, h, Except.mapError]

/-- The value of a JSON document is what its text is read to. -/
theorem value_json_eq_ok_iff {text : String} {v : Value} :
    Document.value ⟨text, .json⟩ = .ok v ↔ Value.parse text = .ok v := by
  cases h : Value.parse text <;> simp [Document.value, h, Except.mapError]

theorem value_rendered {v : Value} (hnormal : Normal maxDepth v) (hint : Integral v)
    (indent : Nat) : Document.value ⟨renderJson indent v, .json⟩ = .ok v :=
  value_json_eq_ok_iff.mpr (parse_of_parseChars (parseChars_renderJson hnormal hint indent))

/-- The query `.` selects the whole value. -/
theorem evaluate_point {d : Document} {v : Value} (h : d.value = .ok v) (kind : DocumentKind)
    (indent : Nat) : EvalRequest.evaluate ⟨".", d, kind, indent⟩ = render v kind indent := by
  have hpath : parseQuery "." = .ok [] := rfl
  simp [EvalRequest.evaluate, hpath, h, selectValue, Path.select, bind, Except.bind, Except.map,
    Except.mapError]

/-- A value of a JSON document with no other numbers than integers is read back from each of its
renderings; rendered anew with any indentation it is what it is rendered to directly, and the query
`.` answers the same on the document and on its own answer. -/
theorem evaluate_point_rendered {text : String} {v : Value}
    (hread : Document.value ⟨text, .json⟩ = .ok v) (hint : Integral v) (indent : Nat) :
    ∃ d, render v .json indent = .ok d ∧ d.value = .ok v ∧
      (∀ m, (d.value.bind fun w => render w .json m) = render v .json m) ∧
      EvalRequest.evaluate ⟨".", ⟨text, .json⟩, .json, indent⟩ = .ok d ∧
      ∀ m, EvalRequest.evaluate ⟨".", d, .json, m⟩ = render v .json m := by
  have hnormal : Normal maxDepth v :=
    normal_of_parseChars (parseChars_of_parse (value_json_eq_ok_iff.mp hread))
  have hvalue := value_rendered hnormal hint indent
  refine ⟨⟨renderJson indent v, .json⟩, rfl, hvalue, fun m => ?_, ?_, fun m => ?_⟩
  · rw [hvalue]
    rfl
  · exact evaluate_point hread .json indent
  · exact evaluate_point hvalue .json m

/-- A document with a control character, a negative number, an empty object and its keys out of
order. -/
theorem evaluate_point_rendered_nested :
    ∃ v d, Document.value ⟨"\x7b\"b\": [-1, \x7b\x7d], \"a\": \"\\u0007\\n\"\x7d", .json⟩ = .ok v ∧
      Integral v ∧
      d.content = "\x7b\n \"a\": \"\\u0007\\n\",\n \"b\": [\n  -1,\n  \x7b\x7d\n ]\n\x7d" ∧
      render v .json 1 = .ok d ∧ d.value = .ok v ∧
      (d.value.bind fun w => render w .json 0) = render v .json 0 ∧
      EvalRequest.evaluate ⟨".", d, .json, 1⟩ = .ok d := by
  have hread : Document.value ⟨"\x7b\"b\": [-1, \x7b\x7d], \"a\": \"\\u0007\\n\"\x7d", .json⟩ =
      .ok (.obj [("a", .str "\x07\n"), ("b", .arr [.int (-1), .obj []])]) := by cbv
  have hint : Integral (.obj [("a", .str "\x07\n"), ("b", .arr [.int (-1), .obj []])]) := by
    refine .obj fun m hm => ?_
    simp only [List.mem_cons, List.not_mem_nil, or_false] at hm
    rcases hm with rfl | rfl
    · exact .str
    · refine .arr fun v hv => ?_
      simp only [List.mem_cons, List.not_mem_nil, or_false] at hv
      rcases hv with rfl | rfl
      · exact .int
      · exact .obj (by simp)
  obtain ⟨d, hd, hvalue, hanew, -, heval⟩ := evaluate_point_rendered hread hint 1
  refine ⟨_, d, hread, hint, ?_, hd, hvalue, hanew 0, (heval 1).trans hd⟩
  obtain rfl : _ = d := Except.ok.inj hd
  cbv

end QueryPlayground
