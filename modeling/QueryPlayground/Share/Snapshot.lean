import QueryPlayground.Wire

/-!
# Shares

A share is a document, a query and the kind of output that is wanted, stored on a server under an
identifier. This module has what is sent to the server and what comes back, with their written forms.
-/

namespace QueryPlayground.Share

open QueryPlayground.Json

/-! ## §1 What is sent -/

/-- A share to create. -/
structure Request where
  /-- The document. -/
  inputData : String
  inputType : DocumentKind
  query : String
  outputType : DocumentKind
  /-- How many seconds the share is kept. -/
  expirationTimeSecs : Nat
  deriving DecidableEq, Repr

namespace Request

/-- The characters that count against the limit of a share. -/
def payloadChars (r : Request) : Nat :=
  r.inputData.length + r.query.length

def codec : Codec Request where
  schema := .record "ShareRequest"
    [("inputData", textSchema, none), ("inputType", DocumentKind.codec.schema, none),
      ("query", textSchema, none), ("outputType", DocumentKind.codec.schema, none),
      ("expirationTimeSecs", unsignedSchema, none)]
  encode r := .obj
    [("inputData", .str r.inputData), ("inputType", DocumentKind.codec.encode r.inputType),
      ("query", .str r.query), ("outputType", DocumentKind.codec.encode r.outputType),
      ("expirationTimeSecs", .int r.expirationTimeSecs)]
  decode? v := do
    let inputData ← (← v.member? "inputData").text?
    let inputType ← DocumentKind.codec.decode? (← v.member? "inputType")
    let query ← (← v.member? "query").text?
    let outputType ← DocumentKind.codec.decode? (← v.member? "outputType")
    let expirationTimeSecs ← (← v.member? "expirationTimeSecs").nat?
    return ⟨inputData, inputType, query, outputType, expirationTimeSecs⟩

end Request

/-! ## §2 What comes back -/

/-- A share as the server answers it. -/
structure Snapshot where
  /-- The document. -/
  inputData : String
  inputType : DocumentKind
  query : String
  outputType : DocumentKind
  createdAt : Option String
  expiresAt : Option String
  deriving DecidableEq, Repr

namespace Snapshot

/-- A member that is left out where there is nothing to write. -/
def optionalMember (name : String) (value : Option String) : List (String × Value) :=
  match value with
  | some s => [(name, .str s)]
  | none => []

def optionalText? : Value → Option (Option String)
  | .null => some none
  | .str s => some (some s)
  | _ => none

/-- The written form of a share; times that are not known are left out. -/
def codec : Codec Snapshot where
  schema := .record "SharedSnapshot"
    [("inputData", textSchema, none), ("inputType", DocumentKind.codec.schema, none),
      ("query", textSchema, none), ("outputType", DocumentKind.codec.schema, none),
      ("createdAt", .optional textSchema, some .null),
      ("expiresAt", .optional textSchema, some .null)]
  encode s := .obj
    ([("inputData", .str s.inputData), ("inputType", DocumentKind.codec.encode s.inputType),
      ("query", .str s.query), ("outputType", DocumentKind.codec.encode s.outputType)] ++
      optionalMember "createdAt" s.createdAt ++ optionalMember "expiresAt" s.expiresAt)
  decode? v := do
    let inputData ← (← v.member? "inputData").text?
    let inputType ← DocumentKind.codec.decode? (← v.member? "inputType")
    let query ← (← v.member? "query").text?
    let outputType ← DocumentKind.codec.decode? (← v.member? "outputType")
    let createdAt ← optionalText? (← v.member? "createdAt")
    let expiresAt ← optionalText? (← v.member? "expiresAt")
    return ⟨inputData, inputType, query, outputType, createdAt, expiresAt⟩

end Snapshot

/-- The written form of the answer to a created share, which is its identifier. -/
def createdCodec : Codec String where
  schema := .record "ShareCreated" [("id", textSchema, none)]
  encode id := .obj [("id", .str id)]
  decode? v := do (← v.member? "id").text?

end QueryPlayground.Share
