import QueryPlayground.Json.Codec
import QueryPlayground.Evaluation

/-!
# Written forms of kinds, documents and requests

The JSON forms in which kinds, documents and evaluation requests travel. A query kind may also be
spelled `query-language`.
-/

namespace QueryPlayground

open QueryPlayground.Json

/-! ## §1 Kinds -/

def DocumentKind.codec : Codec DocumentKind where
  schema := .choice [("json", "json"), ("yaml", "yaml"), ("query", "query"),
    ("query-language", "query"), ("template", "template")]
  encode k := .str k.name
  decode? v := v.text?.bind ofName?

def HistoryKind.codec : Codec HistoryKind where
  schema := .choice (names ["queries", "templates"])
  encode k := .str k.name
  decode? v := v.text?.bind ofName?

/-- The written form of the number of a history entry. -/
def entryIdCodec : Codec Int where
  schema := signedSchema
  encode n := .int n
  decode? v := v.int?

/-! ## §2 Documents and requests -/

def Document.codec : Codec Document where
  schema := .record "TypedDocument"
    [("content", textSchema, none), ("kind", DocumentKind.codec.schema, none)]
  encode d := .obj [("content", .str d.content), ("kind", DocumentKind.codec.encode d.kind)]
  decode? v := do
    let content ← (← v.member? "content").text?
    let kind ← DocumentKind.codec.decode? (← v.member? "kind")
    return ⟨content, kind⟩

def EvalRequest.codec : Codec EvalRequest where
  schema := .record "EvalRequest"
    [("query", textSchema, none), ("data", Document.codec.schema, none),
      ("outputType", DocumentKind.codec.schema, none), ("indent", sizeSchema, none)]
  encode r := .obj
    [("query", .str r.query), ("data", Document.codec.encode r.data),
      ("outputType", DocumentKind.codec.encode r.outputType), ("indent", .int r.indent)]
  decode? v := do
    let query ← (← v.member? "query").text?
    let data ← Document.codec.decode? (← v.member? "data")
    let outputType ← DocumentKind.codec.decode? (← v.member? "outputType")
    let indent ← (← v.member? "indent").nat?
    return ⟨query, data, outputType, indent⟩

end QueryPlayground
