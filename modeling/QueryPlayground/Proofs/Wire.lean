import QueryPlayground.Wire
import QueryPlayground.Proofs.Json.Record
import QueryPlayground.Proofs.Json.Shape

/-!
# Documents and requests come back as they were written

What is written for an element is a text of the schema it is read with, so it is read back. And
since a value of the schema always stands for an element that fits, every text that is read has a
second one, that of its element, which is read alike and written the same again: fields in declared
order, kinds by their main names and nothing that nobody asked for.

Main statements: `Document.roundTrips` and `EvalRequest.roundTrips`.
-/

namespace QueryPlayground

open QueryPlayground.Json

/-! ## §1 Round trips -/

/-- A type whose elements come back from their texts, and its texts from their elements. -/
structure Json.Codec.RoundTrips {α : Type} (c : Codec α) (fits : α → Prop) : Prop where
  /-- The text of an element that fits is read as the element. -/
  parse_print : ∀ a, fits a → c.parse (c.print a) = .ok a
  /-- What any text is read as fits, and its own text is read as the same. -/
  parse_print_of_parse : ∀ text a, c.parse text = .ok a → fits a ∧ c.parse (c.print a) = .ok a
  /-- What is written for a text that is read is written again for what was written. -/
  print_of_parse : ∀ text text', (c.parse text).map c.print = .ok text' →
    (c.parse text').map c.print = .ok text'
  /-- Every text of the schema stands for an element. -/
  decodes : ∀ text v, c.schema.parse text = .ok v → ∃ a, c.decode? v = some a

/-- It is enough that what is written is spelled as the schema wants it, and that whatever the schema
admits stands for something that fits. -/
theorem Json.Codec.roundTrips {α : Type} {c : Codec α} {fits : α → Prop}
    (hspells : ∀ a, fits a →
      ∃ w, SpellsAs c.schema maxDepth w (c.encode a).compactChars ∧ c.decode? w = some a)
    (hadmits : ∀ v, c.schema.Admits v → ∃ a, c.decode? v = some a ∧ fits a) : c.RoundTrips fits := by
  have hprint (a : α) (ha : fits a) : c.parse (c.print a) = .ok a := by
    obtain ⟨w, hw, hdecode⟩ := hspells a ha
    have htext : (c.print a).toList = (c.encode a).compactChars := String.toList_ofList
    exact Codec.parse_of_spellsAs (htext ▸ hw) hdecode
  have hparse (text : String) (a : α) (h : c.parse text = .ok a) :
      fits a ∧ c.parse (c.print a) = .ok a := by
    obtain ⟨v, hv, h⟩ := bind_eq_ok h
    obtain ⟨b, hdecode, hb⟩ := hadmits v (Schema.admits_of_parse hv)
    rw [hdecode] at h
    cases h
    exact ⟨hb, hprint a hb⟩
  refine ⟨hprint, hparse, fun text text' h => ?_, fun text v h => ?_⟩
  · obtain ⟨a, ha, rfl⟩ := Schema.map_eq_ok h
    rw [(hparse text a ha).2]
    rfl
  · obtain ⟨a, ha, -⟩ := hadmits v (Schema.admits_of_parse h)
    exact ⟨a, ha⟩

/-! ## §2 Scalars -/

theorem spellsAs_kind (d : Nat) (k : DocumentKind) :
    SpellsAs DocumentKind.codec.schema d (.str k.name) (DocumentKind.codec.encode k).compactChars := by
  cases k <;> exact .choice rfl

theorem exists_text {v : Value} (h : textSchema.Admits v) : ∃ s, v.text? = some s := by
  cases h
  exact ⟨_, rfl⟩

theorem exists_unsigned {expected : String} {v : Value}
    (h : Schema.Admits (.integer 0 MachineWord.maxUnsigned expected) v) :
    ∃ n, v.nat? = some n ∧ n ≤ MachineWord.maxUnsigned := by
  cases h with
  | @integer _ _ n _ hleast hgreatest =>
    obtain ⟨n, rfl⟩ := Int.eq_ofNat_of_zero_le hleast
    exact ⟨n, rfl, by exact_mod_cast hgreatest⟩

/-- Every name of a kind that is read, `query-language` too, is read as a kind. -/
theorem exists_kind {v : Value} (h : DocumentKind.codec.schema.Admits v) :
    ∃ k, DocumentKind.codec.decode? v = some k := by
  cases h with
  | @choice _ s name hlookup =>
    have hmem := Schema.mem_of_lookup hlookup
    simp only [List.mem_cons, Prod.mk.injEq, List.not_mem_nil, or_false] at hmem
    obtain ⟨-, rfl⟩ | ⟨-, rfl⟩ | ⟨-, rfl⟩ | ⟨-, rfl⟩ | ⟨-, rfl⟩ := hmem <;> exact ⟨_, rfl⟩

/-! ## §3 Documents -/

namespace Document

theorem spellsAs_encode (n : Nat) (d : Document) :
    SpellsAs codec.schema (n + 1) (codec.encode d) (codec.encode d).compactChars := by
  refine Gathers.spellsAs (.known rfl rfl (spellsAs_text _ _) (.known rfl rfl (spellsAs_kind _ _) .nil))
    (List.cons_ne_nil _ _) ?_ "TypedDocument"
  simp [finishRecord, List.lookup_cons, Except.map, DocumentKind.codec]

theorem decode?_encode (d : Document) : codec.decode? (codec.encode d) = some d := by
  obtain ⟨content, kind⟩ := d
  cases kind <;> rfl

theorem exists_of_admits {v : Value} (h : codec.schema.Admits v) : ∃ d, codec.decode? v = some d := by
  have hnodup : (["content", "kind"] : List String).Nodup := by decide
  obtain ⟨content, hcontent, htext⟩ := h.required hnodup (.head _)
  obtain ⟨kind, hkind, hname⟩ := h.required hnodup (.tail _ (.head _))
  obtain ⟨s, hs⟩ := exists_text htext
  obtain ⟨k, hk⟩ := exists_kind hname
  exact ⟨⟨s, k⟩, by simp [codec, hcontent, hkind, hs, hk]⟩

/-- Every document comes back. -/
theorem roundTrips : codec.RoundTrips fun _ => True :=
  Codec.roundTrips (fun d _ => ⟨_, spellsAs_encode _ d, decode?_encode d⟩)
    (fun _ h => (exists_of_admits h).imp fun _ hd => ⟨hd, trivial⟩)

end Document

/-! ## §4 Evaluation requests -/

namespace EvalRequest

theorem spellsAs_encode {r : EvalRequest} (h : r.indent ≤ MachineWord.maxUnsigned) :
    SpellsAs codec.schema maxDepth (codec.encode r) (codec.encode r).compactChars := by
  refine Gathers.spellsAs (.known rfl rfl (spellsAs_text _ _) (.known rfl rfl
    (Document.spellsAs_encode _ _) (.known rfl rfl (spellsAs_kind _ _)
    (.known rfl rfl (spellsAs_unsigned _ h) .nil)))) (List.cons_ne_nil _ _) ?_ "EvalRequest"
  simp [finishRecord, List.lookup_cons, Except.map, DocumentKind.codec]

theorem decode?_encode (r : EvalRequest) : codec.decode? (codec.encode r) = some r := by
  obtain ⟨query, ⟨content, kind⟩, outputType, indent⟩ := r
  cases kind <;> cases outputType <;> rfl

/-- Every request whose indentation fits in a machine word comes back. -/
theorem roundTrips : codec.RoundTrips fun r => r.indent ≤ MachineWord.maxUnsigned := by
  refine Codec.roundTrips (fun r h => ⟨_, spellsAs_encode h, decode?_encode r⟩) fun v h => ?_
  have hnodup : (["query", "data", "outputType", "indent"] : List String).Nodup := by decide
  obtain ⟨query, hquery, htext⟩ := h.required hnodup (.head _)
  obtain ⟨data, hdata, hdocument⟩ := h.required hnodup (.tail _ (.head _))
  obtain ⟨output, houtput, hname⟩ := h.required hnodup (.tail _ (.tail _ (.head _)))
  obtain ⟨indent, hindent, hsize⟩ := h.required hnodup (.tail _ (.tail _ (.tail _ (.head _))))
  obtain ⟨s, hs⟩ := exists_text htext
  obtain ⟨d, hd⟩ := Document.exists_of_admits hdocument
  obtain ⟨k, hk⟩ := exists_kind hname
  obtain ⟨n, hn, hle⟩ := exists_unsigned hsize
  exact ⟨⟨s, d, k, n⟩, by simp [codec, hquery, hdata, houtput, hindent, hs, hd, hk, hn], hle⟩

end EvalRequest

end QueryPlayground
