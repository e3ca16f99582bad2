import QueryPlayground.Proofs.Json.Rendering
import QueryPlayground.Proofs.Yaml.Written

/-!
# Rendering as YAML and the end of the text

A whole YAML document that was written for a value is read back to the value. A rendering lacks the
blanks at the end of the document. Where the last string of the value is in quotes, or ends in no blank,
nothing of it is lost; else it is read without its last blanks, as a block still a string, as a plain text
whatever its rest means. A plain text whose rest is none by itself leaves a document of another shape.

Main statement: `evaluate_point_rendered_yaml`.
-/

namespace QueryPlayground

open Json (Integral Normal Value)

/-- A line feed at the end of the last string is lost, and so is a space that is no ASCII character. -/
theorem render_yaml_loses :
    render (.str "a\n") .yaml 0 = .ok ⟨"|\n  a", .yaml⟩ ∧
      Document.value ⟨"|\n  a", .yaml⟩ = .ok (.str "a") ∧
      render (.arr [.null, .str "1\u00a0"]) .yaml 0 = .ok ⟨"- null\n- 1", .yaml⟩ ∧
      Document.value ⟨"- null\n- 1", .yaml⟩ = .ok (.arr [.null, .int 1]) := by
  refine ⟨?_, ?_, ?_, ?_⟩ <;> cbv

/-- The value of a YAML document is what its text is read to. -/
theorem value_yaml_of_parseChars {cs : List Char} {v : Value} (h : Yaml.parseChars cs = .ok v) :
    Document.value ⟨String.ofList cs, .yaml⟩ = .ok v := by
  simp [Document.value, Yaml.parse, h, Except.mapError]

/-- The YAML document for a value that was read from JSON, with no other numbers than integers, is read
back to the value. Its rendering is read to what trimming leaves of the value, which is the value itself
where the text ends firmly; then the query `.` answers the same on the rendering as on the document
before. Only where the last string loses its form the rendering is a document of another shape. -/
theorem evaluate_point_rendered_yaml {text : String} {v : Value}
    (hread : Document.value ⟨text, .json⟩ = .ok v) (hint : Integral v) (indent : Nat) :
    Document.value ⟨String.ofList (Yaml.documentChars v), .yaml⟩ = .ok v ∧
      ∃ d, render v .yaml indent = .ok d ∧
        EvalRequest.evaluate ⟨".", ⟨text, .json⟩, .yaml, indent⟩ = .ok d ∧
        (∀ w, Yaml.trimmed? v = some w → d.value = .ok w ∧ (w = v ↔ Yaml.EndsFirmly v) ∧
          ∀ m, EvalRequest.evaluate ⟨".", d, .json, m⟩ = render w .json m) ∧
        (Yaml.trimmed? v = none ↔ ∃ s ∈ Yaml.lastString? v, Yaml.LosesForm s) ∧
        (Yaml.EndsFirmly v → d.value = .ok v ∧ ∀ m, EvalRequest.evaluate ⟨".", d, .json, m⟩ =
          EvalRequest.evaluate ⟨".", ⟨text, .json⟩, .json, m⟩) := by
  have hnormal : Normal Json.maxDepth v :=
    Json.normal_of_parseChars (parseChars_of_parse (value_json_eq_ok_iff.mp hread))
  have hdepth : Json.maxDepth ≤ Yaml.Source.maxDepth := by decide
  have hvalue {w : Value} (hw : Yaml.trimmed? v = some w) :
      Document.value ⟨renderYaml v, .yaml⟩ = .ok w :=
    value_yaml_of_parseChars (Yaml.parseChars_dropBlanksRight hnormal hint hdepth hw)
  have hwhole : Document.value ⟨String.ofList (Yaml.documentChars v), .yaml⟩ = .ok v :=
    value_yaml_of_parseChars (Yaml.parseChars_documentChars hnormal hint hdepth)
  refine ⟨hwhole, ⟨renderYaml v, .yaml⟩, rfl, evaluate_point hread .yaml indent, ?_, ?_, ?_⟩
  · intro w hw
    refine ⟨hvalue hw, ?_, fun m => evaluate_point (hvalue hw) .json m⟩
    rw [← Yaml.trimmed?_eq_self_iff_endsFirmly, hw, Option.some.injEq]
  · simp only [Yaml.trimmed?_eq_none_iff, Yaml.trimmedString?_eq_none_iff]
  · intro hfirm
    have hkept := hvalue (Yaml.trimmed?_eq_self_iff_endsFirmly.mpr hfirm)
    refine ⟨hkept, fun m => ?_⟩
    rw [evaluate_point hkept, evaluate_point hread]

/-- A document with a block, a negative number and, at its end, a string in quotes. -/
theorem evaluate_point_rendered_yaml_nested :
    ∃ v d, Document.value ⟨"\x7b\"b\": \"y \", \"a\": [\"x\\n\", -1, \x7b\x7d]\x7d", .json⟩ = .ok v ∧
      Integral v ∧ Yaml.EndsFirmly v ∧ d.content = "a:\n- |\n  x\n- -1\n- \x7b\x7d\nb: 'y '" ∧
      render v .yaml 0 = .ok d ∧ d.value = .ok v ∧ ∀ m, EvalRequest.evaluate ⟨".", d, .json, m⟩ =
        EvalRequest.evaluate
          ⟨".", ⟨"\x7b\"b\": \"y \", \"a\": [\"x\\n\", -1, \x7b\x7d]\x7d", .json⟩, .json, m⟩ := by
  have hread : Document.value ⟨"\x7b\"b\": \"y \", \"a\": [\"x\\n\", -1, \x7b\x7d]\x7d", .json⟩ =
      .ok (.obj [("a", .arr [.str "x\n", .int (-1), .obj []]), ("b", .str "y ")]) := by cbv
  have hint : Integral (.obj [("a", .arr [.str "x\n", .int (-1), .obj []]), ("b", .str "y ")]) := by
    refine .obj fun m hm => ?_
    simp only [List.mem_cons, List.not_mem_nil, or_false] at hm
    rcases hm with rfl | rfl
    · refine .arr fun v hv => ?_
      simp only [List.mem_cons, List.not_mem_nil, or_false] at hv
      rcases hv with rfl | rfl | rfl
      · exact .str
      · exact .int
      · exact .obj (by simp)
    · exact .str
  have hfirm : Yaml.EndsFirmly (.obj [("a", .arr [.str "x\n", .int (-1), .obj []]), ("b", .str "y ")]) := by
    rintro s ⟨⟩ hstyle
    have hsingle : Yaml.styleOf false "y " = .single := by cbv
    simp [hsingle] at hstyle
  obtain ⟨-, d, hd, -, -, -, hkept⟩ := evaluate_point_rendered_yaml hread hint 0
  obtain ⟨hvalue, hanew⟩ := hkept hfirm
  refine ⟨_, d, hread, hint, hfirm, ?_, hd, hvalue, hanew⟩
  obtain rfl : _ = d := Except.ok.inj hd
  cbv

/-- A string of blanks leaves nothing, which is read as null. -/
example : render (.str "\u00a0") .yaml 0 = .ok ⟨"", .yaml⟩ ∧
    EvalRequest.evaluate ⟨".", ⟨"", .yaml⟩, .json, 0⟩ = .ok ⟨"null", .json⟩ := by decide +kernel

/-- A string before whose blanks a colon stands is read as a key, which cannot stand where the value of
another one is due. -/
example : render (.arr [.str "a:\u00a0"]) .yaml 0 = .ok ⟨"- a:", .yaml⟩ ∧
    EvalRequest.evaluate ⟨".", ⟨"- a:", .yaml⟩, .json, 0⟩ =
      .ok ⟨"[\x7b\"a\":null\x7d]", .json⟩ ∧
    render (.obj [("k", .str "a:\u00a0")]) .yaml 0 = .ok ⟨"k: a:", .yaml⟩ ∧
    (Document.value ⟨"k: a:", .yaml⟩).toOption = none := by decide +kernel

end QueryPlayground
