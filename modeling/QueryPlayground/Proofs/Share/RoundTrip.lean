import QueryPlayground.Proofs.Share.Agreement

/-!
# Everything that travels comes back as it was written

Documents, evaluation requests, share requests and snapshots are read from the text that is written
for them. Conversely, whatever text one of them was read from, with fields in whatever order, with
other members, spellings, spaces and escapes, with times left out or `null`, what is written for it
is read as the same and written the same.

Main statement: `wire_roundTrips`.
-/

namespace QueryPlayground.Share

open QueryPlayground.Json

/-! ## §1 Requests -/

/-- Every request whose expiration fits in a machine word comes back. -/
theorem Request.roundTrips :
    Request.codec.RoundTrips fun r => r.expirationTimeSecs ≤ MachineWord.maxUnsigned := by
  refine Codec.roundTrips (fun r h => ⟨_, spellsAs_request r h, decode?_encode_request r⟩)
    fun v h => ?_
  have hnodup : (["inputData", "inputType", "query", "outputType", "expirationTimeSecs"] :
    List String).Nodup := by decide
  obtain ⟨data, hdata, hdataText⟩ := h.required hnodup (.head _)
  obtain ⟨kind, hkind, hkindName⟩ := h.required hnodup (.tail _ (.head _))
  obtain ⟨query, hquery, hqueryText⟩ := h.required hnodup (.tail _ (.tail _ (.head _)))
  obtain ⟨output, houtput, houtputName⟩ :=
    h.required hnodup (.tail _ (.tail _ (.tail _ (.head _))))
  obtain ⟨secs, hsecs, hsize⟩ :=
    h.required hnodup (.tail _ (.tail _ (.tail _ (.tail _ (.head _)))))
  obtain ⟨inputData, hinputData⟩ := exists_text hdataText
  obtain ⟨inputType, hinputType⟩ := exists_kind hkindName
  obtain ⟨text, htext⟩ := exists_text hqueryText
  obtain ⟨outputType, houtputType⟩ := exists_kind houtputName
  obtain ⟨n, hn, hle⟩ := exists_unsigned hsize
  refine ⟨⟨inputData, inputType, text, outputType, n⟩, ?_, hle⟩
  simp [Request.codec, hdata, hkind, hquery, houtput, hsecs, hinputData, hinputType, htext,
    houtputType, hn]

/-! ## §2 Snapshots -/

namespace Snapshot

/-- The member of a time in normal form. -/
def timeValue : Option String → Value
  | some s => .str s
  | none => .null

/-- A snapshot in normal form, with its times. -/
def timed (s : Snapshot) : Value :=
  .obj [("inputData", .str s.inputData), ("inputType", .str s.inputType.name),
    ("query", .str s.query), ("outputType", .str s.outputType.name),
    ("createdAt", timeValue s.createdAt), ("expiresAt", timeValue s.expiresAt)]

/-- A time that is known is a field that is found, and one that is not is none. -/
theorem gathers_optionalMember {fields : Fields} {d : Nat} {name : String}
    {rest found out : List (String × Value)} {value : Option String}
    (hfield : fields.lookup name = some (.optional textSchema, some .null))
    (hnew : found.lookup name = none)
    (hrest : Gathers fields d rest (optionalMember name value ++ found) out) :
    Gathers fields d (optionalMember name value ++ rest) found out := by
  cases value with
  | none => exact hrest
  | some s => exact .known hfield hnew .present hrest

theorem spellsAs_timed (s : Snapshot) :
    SpellsAs codec.schema maxDepth s.timed (codec.encode s).compactChars := by
  obtain ⟨inputData, inputType, query, outputType, createdAt, expiresAt⟩ := s
  let r : Request := ⟨inputData, inputType, query, outputType, 0⟩
  have hcreated : (payload r).lookup "createdAt" = none := rfl
  have hexpires :
      (optionalMember "createdAt" createdAt ++ payload r).lookup "expiresAt" = none := by
    cases createdAt <;> rfl
  simp only [codec, List.cons_append, List.nil_append]
  refine Gathers.spellsAs (gathers_payload rfl rfl rfl rfl r (gathers_optionalMember rfl hcreated
    (List.append_nil _ ▸ gathers_optionalMember rfl hexpires .nil))) (List.cons_ne_nil _ _) ?_
    "SharedSnapshot"
  cases createdAt <;> cases expiresAt <;>
    simp [finishRecord, payload, r, optionalMember, timeValue, List.lookup_cons, Except.map]

theorem decode?_timed (s : Snapshot) : codec.decode? s.timed = some s := by
  obtain ⟨inputData, inputType, query, outputType, createdAt, expiresAt⟩ := s
  cases inputType <;> cases outputType <;> cases createdAt <;> cases expiresAt <;> rfl

/-- A time is a text, or `null` whether it was written or left out. -/
theorem exists_time {owner : String} {fields : Fields} {v : Value}
    (h : Schema.Admits (.record owner fields) v) (hnodup : (fields.map Prod.fst).Nodup)
    {name : String} (hfield : (name, Schema.optional textSchema, some Value.null) ∈ fields) :
    ∃ w time, v.member? name = some w ∧ optionalText? w = some time := by
  obtain ⟨w, hw, hadmits | habsent⟩ := h.member? hnodup hfield
  · cases hadmits with
    | null => exact ⟨.null, none, hw, rfl⟩
    | present htext =>
      cases htext
      exact ⟨_, some _, hw, rfl⟩
  · cases habsent
    exact ⟨.null, none, hw, rfl⟩

/-- Every snapshot comes back. -/
theorem roundTrips : codec.RoundTrips fun _ => True := by
  refine Codec.roundTrips (fun s _ => ⟨_, s.spellsAs_timed, s.decode?_timed⟩) fun v h => ?_
  have hnodup : (["inputData", "inputType", "query", "outputType", "createdAt", "expiresAt"] :
    List String).Nodup := by decide
  obtain ⟨data, hdata, hdataText⟩ := h.required hnodup (.head _)
  obtain ⟨kind, hkind, hkindName⟩ := h.required hnodup (.tail _ (.head _))
  obtain ⟨query, hquery, hqueryText⟩ := h.required hnodup (.tail _ (.tail _ (.head _)))
  obtain ⟨output, houtput, houtputName⟩ :=
    h.required hnodup (.tail _ (.tail _ (.tail _ (.head _))))
  obtain ⟨created, createdAt, hcreated, hcreatedAt⟩ :=
    exists_time h hnodup (.tail _ (.tail _ (.tail _ (.tail _ (.head _)))))
  obtain ⟨expires, expiresAt, hexpires, hexpiresAt⟩ :=
    exists_time h hnodup (.tail _ (.tail _ (.tail _ (.tail _ (.tail _ (.head _))))))
  obtain ⟨inputData, hinputData⟩ := exists_text hdataText
  obtain ⟨inputType, hinputType⟩ := exists_kind hkindName
  obtain ⟨text, htext⟩ := exists_text hqueryText
  obtain ⟨outputType, houtputType⟩ := exists_kind houtputName
  refine ⟨⟨inputData, inputType, text, outputType, createdAt, expiresAt⟩, ?_, trivial⟩
  simp [codec, hdata, hkind, hquery, houtput, hcreated, hexpires, hinputData, hinputType, htext,
    houtputType, hcreatedAt, hexpiresAt]

end Snapshot

/-! ## §3 Everything that travels -/

/-- Documents, evaluation requests, share requests and snapshots come back from their texts, and
their texts from them; numbers as far as they fit in a machine word, which those that are read do. -/
theorem wire_roundTrips :
    Document.codec.RoundTrips (fun _ => True) ∧
      EvalRequest.codec.RoundTrips (fun r => r.indent ≤ MachineWord.maxUnsigned) ∧
      Request.codec.RoundTrips (fun r => r.expirationTimeSecs ≤ MachineWord.maxUnsigned) ∧
      Snapshot.codec.RoundTrips (fun _ => True) :=
  ⟨Document.roundTrips, EvalRequest.roundTrips, Request.roundTrips, Snapshot.roundTrips⟩

/-- Another order, space, escapes, a member that nobody asked for, the other name of a kind and a
time that is `null` are gone from what is written. -/
example :
    (EvalRequest.codec.parse
        ("\x7b \"indent\" : 2,\t\"more\" : [null, \x7b\x7d],\n\"outputType\":" ++
          "\"query-language\", \"data\" : \x7b\"kind\" : \"yaml\"," ++
          "\"content\" : \"\\u0061\\n\"\x7d, \"query\" : \".\"\x7d")).map EvalRequest.codec.print =
      .ok ("\x7b\"query\":\".\",\"data\":\x7b\"content\":\"a\\n\",\"kind\":\"yaml\"\x7d," ++
        "\"outputType\":\"query\",\"indent\":2\x7d") ∧
    (Snapshot.codec.parse
        ("\x7b\"expiresAt\":null,\"outputType\":\"json\",\"query\":\"\",\"createdAt\":\"now\"," ++
          "\"inputType\":\"yaml\",\"inputData\":\"é\"\x7d")).map Snapshot.codec.print =
      .ok ("\x7b\"inputData\":\"é\",\"inputType\":\"yaml\",\"query\":\"\"," ++
        "\"outputType\":\"json\",\"createdAt\":\"now\"\x7d") := by
  decide +kernel

end QueryPlayground.Share
