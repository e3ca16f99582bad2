import Mathlib
import QueryPlayground.Command
import QueryPlayground.Program.Launch
import QueryPlayground.Proofs.Json.Rendering
import QueryPlayground.Proofs.Json.Stream
import QueryPlayground.Proofs.Text.Utf8

/-!
# Values on their way through a program

A program as an evaluator is given the value of a document and gives values back. Where the value has
no other numbers than integers, it is written as a text that reads back as the value. The values that a
successful program prints, with any space around them, are rendered as one: none as `null`, one as
itself, more as the array of all. So a program that only copies does what the query `.` does.

Main statement: `conveys`.
-/

namespace QueryPlayground

open Json (Integral Series Spells Value maxDepth)
open Program (Bytes Launcher Run)
open Text (utf8Encode)

namespace Command

/-! ## §1 What is conveyed -/

/-- The value that is answered for values that were printed. -/
inductive Joins : List Value → Value → Prop where
  | none : Joins [] .null
  | one {v : Value} : Joins [v] v
  | more {v w : Value} {vs : List Value} : Joins (v :: w :: vs) (.arr (v :: w :: vs))

/-- A program is successful and prints what it is given. -/
def Copies (launch : Launcher) (program : String) (args : List String) (input : Bytes) : Prop :=
  ∃ run, launch program args input = .ok run ∧ run.ending.isSuccess = true ∧ run.output = input

/-- What a program is given and what is made of what it prints. -/
structure Conveys (launch : Launcher) (c : Command) : Prop where
  given {r : EvalRequest} {v : Value} :
    r.data.kind = .json → r.data.value = .ok v → Integral v →
    c.start launch r =
        (launch c.program (c.args ++ [r.query]) (inputBytes v)).mapError c.startError ∧
      ∃ text : String, inputBytes v = utf8Encode text.toList ∧ Value.parse text = .ok v
  printed {r : EvalRequest} {run : Run} {vs : List Value} {w : Value} {cs : List Char} :
    c.start launch r = .ok run → run.ending.isSuccess = true → run.output = utf8Encode cs →
    Series vs cs → Joins vs w →
    c.evaluate launch false r = (render w r.outputType r.indent).mapError (·.toError)
  copied {r : EvalRequest} {v : Value} :
    r.data.kind = .json → r.data.value = .ok v → Integral v →
    Copies launch c.program (c.args ++ [r.query]) (inputBytes v) →
    c.evaluate launch false r = EvalRequest.answer { r with query := "." }

variable {launch : Launcher} {c : Command} {r : EvalRequest} {v : Value}

/-! ## §2 What is given -/

theorem start_of_value (h : r.data.value = .ok v) :
    c.start launch r =
      (launch c.program (c.args ++ [r.query]) (inputBytes v)).mapError c.startError := by
  rw [start, h]

/-- The text that a program is given spells the value of the document. -/
theorem spells_compact_of_value (hkind : r.data.kind = .json) (hread : r.data.value = .ok v)
    (hint : Integral v) : Spells maxDepth v v.compact.toList := by
  have hdata : r.data = ⟨r.data.content, .json⟩ := by rw [← hkind]
  rw [hdata, value_json_eq_ok_iff] at hread
  have hnormal := Json.normal_of_parseChars (parseChars_of_parse hread)
  simpa [Value.compact] using hnormal.spells_compact hint

/-! ## §3 What is printed -/

theorem combine_of_joins {vs : List Value} {w : Value} (h : Joins vs w) : combine vs = w := by
  cases h <;> rfl

theorem outputValues_of_series {vs : List Value} {cs : List Char} (h : Series vs cs) :
    c.outputValues (utf8Encode cs) = .ok vs := by
  rw [outputValues, Text.utf8Lossy_utf8Encode, h.parseStream]
  rfl

theorem evaluate_of_series {run : Run} {vs : List Value} {w : Value} {cs : List Char}
    (hstart : c.start launch r = .ok run) (hsuccess : run.ending.isSuccess = true)
    (houtput : run.output = utf8Encode cs) (hseries : Series vs cs) (hjoins : Joins vs w) :
    c.evaluate launch false r = (render w r.outputType r.indent).mapError (·.toError) := by
  rw [evaluate, hstart]
  simp only [Bool.false_eq_true, if_false, answerOf, hsuccess, if_true, houtput,
    outputValues_of_series hseries, combine_of_joins hjoins]

/-- What a program has copied is one value. -/
theorem evaluate_of_copies (hread : r.data.value = .ok v)
    (hspells : Spells maxDepth v v.compact.toList)
    (hcopies : Copies launch c.program (c.args ++ [r.query]) (inputBytes v)) :
    c.evaluate launch false r = (render v r.outputType r.indent).mapError (·.toError) := by
  obtain ⟨run, hlaunch, hsuccess, houtput⟩ := hcopies
  have hstart : c.start launch r = .ok run := by
    rw [start_of_value hread, hlaunch]
    rfl
  exact evaluate_of_series hstart hsuccess houtput hspells.series .one

/-! ## §4 Every program conveys -/

/-- Every program is given the value of a document of integers, what it prints is rendered as one
value, and a program that copies answers as the query `.` does. -/
theorem conveys (launch : Launcher) (c : Command) : Conveys launch c where
  given hkind hread hint := by
    have hspells := spells_compact_of_value hkind hread hint
    exact ⟨start_of_value hread, _, rfl, parse_of_parseChars hspells.parseChars_alone⟩
  printed := evaluate_of_series
  copied hkind hread hint hcopies := by
    have hspells := spells_compact_of_value hkind hread hint
    rw [evaluate_of_copies hread hspells hcopies, EvalRequest.answer]
    exact congrArg _ (evaluate_point hread _ _).symm

/-- How a standard tool is started. -/
theorem launch_of_tool {environment : List (String × String)} {files : Program.Surroundings}
    {program : String} {args : List String} {input : Bytes}
    {run : Program.Octets → List Program.Octets → Program.Task Program.Finish}
    (hfind : Program.find (files.over .bare) program = .tool run)
    (hnul : (program :: args).any Program.holdsNul = false)
    (hshort : args.any Program.isTooLong = false) :
    Program.launch environment files program args input =
      .ok ((run (Program.Octets.ofString program) (args.map Program.Octets.ofString)).launch
        (files.over .bare) input) := by
  simp [Program.launch, hfind, hnul, hshort]

/-- A document through `cat`, and three values with several spaces around them from `echo`. -/
theorem conveys_cat_echo :
    let launch := Program.launch [] .bare
    let cat : Command := ⟨"cat", []⟩
    let echo : Command := ⟨"echo", ["\t1"]⟩
    let r : EvalRequest := ⟨"-", ⟨"\x7b\"b\": [-1], \"a\": \"é\\n\"\x7d", .json⟩, .yaml, 0⟩
    let q : EvalRequest := ⟨" \"é\" [ 2 ]\r", ⟨"0", .json⟩, .json, 0⟩
    let v : Value := .obj [("a", .str "é\n"), ("b", .arr [.int (-1)])]
    (∃ text : String, Value.parse text = .ok v ∧
      cat.start launch r = (launch "cat" ["-"] (utf8Encode text.toList)).mapError cat.startError) ∧
      cat.evaluate launch false r = EvalRequest.answer ⟨".", r.data, .yaml, 0⟩ ∧
      echo.evaluate launch false q = .ok ⟨"[1,\"é\",[2]]", .json⟩ := by
  -- The two runs of the tools, which the launcher ends with a status.
  have hcat : Program.launch [] .bare "cat" ["-"]
      (inputBytes (.obj [("a", .str "é\n"), ("b", .arr [.int (-1)])])) =
      .ok ⟨inputBytes (.obj [("a", .str "é\n"), ("b", .arr [.int (-1)])]), [], .exited 0, some 0⟩ := by
    rw [launch_of_tool rfl (by cbv) (by cbv)]
    cbv
  have hecho : Program.launch [] .bare "echo" ["\t1", " \"é\" [ 2 ]\r"] (inputBytes (.int 0)) =
      .ok ⟨utf8Encode "\t1  \"é\" [ 2 ]\r\n".toList, [], .exited 0, some 0⟩ := by
    rw [launch_of_tool rfl (by cbv) (by cbv)]
    rfl
  intro launch cat echo r q v
  have hread : r.data.value = .ok v := by cbv
  have hint : Integral v := by
    refine .obj fun m hm => ?_
    simp only [List.mem_cons, List.not_mem_nil, or_false] at hm
    rcases hm with rfl | rfl
    · exact .str
    · refine .arr fun w hw => ?_
      obtain rfl : w = .int (-1) := by simpa using hw
      exact .int
  -- The first program prints what it was given, so the request comes back rendered.
  have hcopies : Copies launch "cat" ["-"] (inputBytes v) := ⟨_, hcat, rfl, rfl⟩
  have hstart : echo.start launch q =
      .ok ⟨utf8Encode "\t1  \"é\" [ 2 ]\r\n".toList, [], .exited 0, some 0⟩ := by
    have hvalue : q.data.value = .ok (.int 0) := by cbv
    exact (start_of_value hvalue).trans (congrArg (Except.mapError echo.startError) hecho)
  have hone : Value.parseChars ['1'] = .ok (.int 1) := by cbv
  have htwo : Value.parseChars ['"', 'é', '"'] = .ok (.str "é") := by cbv
  have hthree : Value.parseChars ['[', ' ', '2', ' ', ']'] = .ok (.arr [.int 2]) := by cbv
  -- What the second one prints are three texts with space between them.
  have hseries : Series [.int 1, .str "é", .arr [.int 2]] "\t1  \"é\" [ 2 ]\r\n".toList :=
    .cons (Json.isGap_singleton rfl) ⟨_, _, rfl, rfl⟩ hone rfl
      (.cons (Json.isGap_singleton rfl) ⟨_, _, rfl, rfl⟩ htwo rfl
        (.cons Json.isGap_nil ⟨_, _, rfl, rfl⟩ hthree rfl (.nil (Json.isGap_singleton rfl))))
  obtain ⟨hgiven, text, hbytes, hparse⟩ := (conveys launch cat).given (r := r) rfl hread hint
  refine ⟨⟨text, hparse, ?_⟩, (conveys launch cat).copied rfl hread hint hcopies, ?_⟩
  · rw [← hbytes]
    exact hgiven
  · rw [(conveys launch echo).printed hstart rfl rfl hseries .more]
    cbv

end Command

end QueryPlayground
