import QueryPlayground.Proofs.Wire
import QueryPlayground.Proofs.Share.Server

/-!
# What is created is what is fetched

A share is written once, by the client that creates it, and read in two forms: by the server, as the
request it was, and by a client that fetches it, as a snapshot. Both read the same document, query and
kinds out of the same text; the snapshot passes over how long the share is kept and finds no times.

Main statement: `create_agrees_fetch`.
-/

namespace QueryPlayground.Share

open QueryPlayground.Json
open Url (pathText)

/-! ## §1 What is posted -/

section Payload

variable {fields : Fields} {d : Nat}

/-- The fields of a request that are those of a snapshot as well, last one first. -/
def payload (r : Request) : List (String × Value) :=
  [("outputType", .str r.outputType.name), ("query", .str r.query),
    ("inputType", .str r.inputType.name), ("inputData", .str r.inputData)]

theorem gathers_payload (hdata : fields.lookup "inputData" = some (textSchema, none))
    (hkind : fields.lookup "inputType" = some (DocumentKind.codec.schema, none))
    (hquery : fields.lookup "query" = some (textSchema, none))
    (houtput : fields.lookup "outputType" = some (DocumentKind.codec.schema, none)) (r : Request)
    {rest found : List (String × Value)} (hrest : Gathers fields d rest (payload r) found) :
    Gathers fields d
      (("inputData", .str r.inputData) :: ("inputType", DocumentKind.codec.encode r.inputType) ::
        ("query", .str r.query) :: ("outputType", DocumentKind.codec.encode r.outputType) :: rest)
      [] found :=
  .known hdata rfl (spellsAs_text d _) (.known hkind rfl (spellsAs_kind d _)
    (.known hquery rfl (spellsAs_text d _) (.known houtput rfl (spellsAs_kind d _) hrest)))

end Payload

theorem spellsAs_request (r : Request) (h : r.expirationTimeSecs ≤ MachineWord.maxUnsigned) :
    SpellsAs Request.codec.schema maxDepth (Request.codec.encode r)
      (Request.codec.encode r).compactChars := by
  refine Gathers.spellsAs (gathers_payload rfl rfl rfl rfl r
    (.known rfl rfl (spellsAs_unsigned _ h) .nil)) (List.cons_ne_nil _ _) ?_ "ShareRequest"
  simp [finishRecord, payload, List.lookup_cons, Except.map, DocumentKind.codec]

theorem decode?_encode_request (r : Request) :
    Request.codec.decode? (Request.codec.encode r) = some r := by
  obtain ⟨inputData, inputType, query, outputType, expirationTimeSecs⟩ := r
  cases inputType <;> cases outputType <;> rfl

/-- A request is read back as it was written. -/
theorem parse_print_request (r : Request) (h : r.expirationTimeSecs ≤ MachineWord.maxUnsigned) :
    Request.codec.parse (Request.codec.print r) = .ok r := by
  have htext : (Request.codec.print r).toList = (Request.codec.encode r).compactChars :=
    String.toList_ofList
  exact Codec.parse_of_spellsAs (htext ▸ spellsAs_request r h) (decode?_encode_request r)

/-- What a request holds of a snapshot. -/
def Request.snapshot (r : Request) : Snapshot :=
  ⟨r.inputData, r.inputType, r.query, r.outputType, none, none⟩

/-- A snapshot in normal form, with the times that are not known in their places. -/
def Snapshot.normal (s : Snapshot) : Value :=
  .obj [("inputData", .str s.inputData), ("inputType", .str s.inputType.name),
    ("query", .str s.query), ("outputType", .str s.outputType.name),
    ("createdAt", .null), ("expiresAt", .null)]

/-- How long a share is kept is no field of a snapshot, so it is passed over. -/
theorem spellsAs_snapshot (r : Request) :
    SpellsAs Snapshot.codec.schema maxDepth r.snapshot.normal
      (Request.codec.encode r).compactChars := by
  have hpassed : IsPassed (Value.int r.expirationTimeSecs).compactChars := by
    rw [Value.compactChars]
    exact isPassed_digitChars r.expirationTimeSecs
  refine Gathers.spellsAs (gathers_payload rfl rfl rfl rfl r
    (.unknown rfl hpassed .nil)) (List.cons_ne_nil _ _) ?_ "SharedSnapshot"
  simp [finishRecord, payload, List.lookup_cons, Except.map, Request.snapshot]

theorem decode?_normal_snapshot (r : Request) :
    Snapshot.codec.decode? r.snapshot.normal = some r.snapshot := by
  obtain ⟨inputData, inputType, query, outputType, expirationTimeSecs⟩ := r
  cases inputType <;> cases outputType <;> rfl

/-- A request is read as a snapshot without times. -/
theorem parse_print_snapshot (r : Request) :
    Snapshot.codec.parse (Request.codec.print r) = .ok r.snapshot := by
  have htext : (Request.codec.print r).toList = (Request.codec.encode r).compactChars :=
    String.toList_ofList
  exact Codec.parse_of_spellsAs (htext ▸ spellsAs_snapshot r) (decode?_normal_snapshot r)

/-! ## §2 Creating and fetching -/

theorem create_of_lt {c : Client} {r : Request} (h : c.maxPayloadChars < r.payloadChars)
    (net : Network) :
    Client.create net c r =
      ([], .error (.sharePayloadTooLarge r.payloadChars c.maxPayloadChars)) := by
  simp [Client.create, Client.checkSize, h]

theorem create_of_le {c : Client} {r : Request} (h : r.payloadChars ≤ c.maxPayloadChars)
    (net : Network) :
    Client.create net c r = Client.exchange net createdCodec .post (Client.address c.collection)
      (Request.codec.print r) := by
  simp [Client.create, Client.checkSize, h.not_gt]

theorem create_settles {c : Client} {base : Url} {dir : List String} {r : Request}
    (hserver : IsServer c.baseUrl base dir)
    (hsize : (sharesUrl base dir).text.utf8ByteSize ≤ Client.maxUrlBytes)
    (h : r.payloadChars ≤ c.maxPayloadChars) (net : Network) :
    (Client.create net c r).1.head? = some ⟨.post, sharesUrl base dir, Request.codec.print r⟩ ∧
      Settles net maxRedirections (Decides createdCodec) (Client.create net c r) := by
  rw [create_of_le h]
  exact exchange_settles (hserver.address_collection hsize)

/-- A message of a client that creates a share: the share once more, or a plain question. -/
def Repeats (posted m : Message) : Prop :=
  m.method = .post ∧ m.body = posted.body ∨ m.method = .get ∧ m.body = ""

theorem Repeats.next {net : Network} {posted m next : Message} (h : Repeats posted m)
    (hleads : Leads net m next) : Repeats posted next := by
  obtain ⟨r, -, hnext⟩ := hleads
  unfold Message.next? at hnext
  split at hnext
  · cases hnext
  · split_ifs at hnext <;> obtain rfl := Option.some.inj hnext
    · exact .inr ⟨rfl, rfl⟩
    · exact h

theorem repeats_of_settles {α : Type} {net : Network} {codec : Codec α} {posted : Message}
    (hpost : posted.method = .post) {after : List Message × Except Error α}
    (h : Settles net maxRedirections (Decides codec) after) (hhead : after.1.head? = some posted) :
    ∀ m ∈ after.1, Repeats posted m := by
  refine h.leads.induction _ _ (fun _ _ hleads hrepeats => hrepeats.next hleads) fun hne => ?_
  obtain rfl : posted = after.1.head hne := by
    rw [List.head?_eq_some_head hne] at hhead
    exact (Option.some.inj hhead).symm
  exact .inl ⟨hpost, rfl⟩

/-- What a client whose server stands at an address does with a share and with the answers to it. -/
structure Agrees (c : Client) (base : Url) (dir : List String) (input : Document) (query : String)
    (output : DocumentKind) : Prop where
  /-- A share that is too long is refused without a message, and no other is. -/
  refuses (net : Network) :
    Client.create net c (c.request input query output) =
        ([], .error (.sharePayloadTooLarge (input.content.length + query.length)
          c.maxPayloadChars)) ↔
      c.maxPayloadChars < input.content.length + query.length
  /-- Any other share is posted in a form that is read back as the request, and as the same share
  without times by who fetches it. No other message goes out unless the answer points on, and then
  it says the same or nothing. -/
  posts : input.content.length + query.length ≤ c.maxPayloadChars →
    ∃ message : Message,
      (∀ net, (Client.create net c (c.request input query output)).1.head? = some message ∧
        (∀ m ∈ (Client.create net c (c.request input query output)).1, Repeats message m) ∧
        ((∀ next, ¬Leads net message next) →
          (Client.create net c (c.request input query output)).1 = [message])) ∧
      message.method = .post ∧ message.url = sharesUrl base dir ∧
      message.url.target = pathText (.segments dir) ++ "/shares" ∧
      Request.codec.parse message.body =
        .ok ⟨input.content, input.kind, query, output, c.expirationSecs⟩ ∧
      ∀ net id asked status location, (Client.fetch net c id).1.getLast? = some asked →
        net asked = some ⟨⟨status, location⟩, message.body⟩ →
        200 ≤ status → status < 300 → status ≠ 204 →
        (Client.fetch net c id).2 = .ok ⟨input.content, input.kind, query, output, none, none⟩
  /-- The last answer to a share that is created decides what comes of it. -/
  created (net : Network) : input.content.length + query.length ≤ c.maxPayloadChars →
    Settles net maxRedirections (Decides createdCodec)
      (Client.create net c (c.request input query output))
  /-- The last answer to a fetch decides what comes of it. -/
  fetched (net : Network) (id : String) : (Client.fetch net c id).1 ≠ [] →
    Settles net maxRedirections (Decides Snapshot.codec) (Client.fetch net c id)

theorem decides_of_success {α : Type} {codec : Codec α} {r : Response} {outcome : Except Error α}
    {a : α} (h : Decides codec r outcome) (hparse : codec.parse r.body = .ok a)
    (hleast : 200 ≤ r.status) (hgreatest : r.status < 300) (hcontent : r.status ≠ 204) :
    outcome = .ok a := by
  refine (h.accepted a).mpr ⟨?_, ?_⟩
  · simp [Response.isSuccess, hleast, hgreatest]
  · have hmodified : r.status ≠ 304 := by omega
    simpa [Response.content, hcontent, hmodified] using hparse

/-- Whatever a client is set to and whatever it shares, creating and fetching agree: the size is
counted in characters before anything is sent, the first message holds the request, and what it holds
is what a fetch of it finds. -/
theorem create_agrees_fetch {settings : Configuration.Share} {base : Url} {dir : List String}
    (hserver : IsServer (Client.new settings).baseUrl base dir)
    (hsize : (sharesUrl base dir).text.utf8ByteSize ≤ Client.maxUrlBytes)
    (hsecs : settings.expirationSecs ≤ MachineWord.maxUnsigned) (input : Document) (query : String)
    (output : DocumentKind) : Agrees (Client.new settings) base dir input query output where
  refuses net := by
    refine ⟨fun h => ?_, fun h => create_of_lt h net⟩
    by_contra hfits
    have hle : ((Client.new settings).request input query output).payloadChars ≤
        (Client.new settings).maxPayloadChars := Nat.le_of_not_lt hfits
    have hsent := (create_settles hserver hsize hle net).1
    simp [h] at hsent
  posts hfits := by
    let r := (Client.new settings).request input query output
    refine ⟨⟨.post, sharesUrl base dir, Request.codec.print r⟩, fun net => ?_, rfl, rfl,
      target_sharesUrl hserver.directory.query, parse_print_request r hsecs, ?_⟩
    · obtain ⟨hhead, hsettles⟩ := create_settles (r := r) hserver hsize hfits net
      refine ⟨hhead, repeats_of_settles rfl hsettles hhead, fun halone => ?_⟩
      rw [create_of_le (r := r) hfits]
      exact exchange_alone (hserver.address_collection hsize) halone
    · intro net id asked status location hasked hanswer hleast hgreatest hcontent
      have hsettles : Settles net maxRedirections (Decides Snapshot.codec)
          (Client.fetch net (Client.new settings) id) :=
        fetch_settles fun hnone => by simp [hnone] at hasked
      have hsuccess : (⟨⟨status, location⟩, Request.codec.print r⟩ : Response).isSuccess = true := by
        simp [Response.isSuccess, Response.status, hleast, hgreatest]
      have hdecides := hsettles.decided asked _ hasked hanswer (next?_of_isSuccess hsuccess asked)
      exact decides_of_success hdecides (parse_print_snapshot r) hleast hgreatest hcontent
  created net hfits :=
    (create_settles (r := (Client.new settings).request input query output) hserver hsize hfits net).2
  fetched _ _ := fetch_settles

/-- A share as long as it may be, whose blank and accent count as one character each, and a fetch
that is answered with what was posted. -/
theorem create_agrees_fetch_at_limit :
    let c := Client.new ⟨"http://127.0.0.1:8080/api/", 6, 60, 5⟩
    let base : Url := ⟨"http", some "127.0.0.1", some 8080, .segments ["api", ""], none, none⟩
    Agrees c base ["api"] ⟨"a: é", .yaml⟩ ".a" .json ∧
      ∃ message : Message,
        (Client.create (fun _ => none) c (c.request ⟨"a: é", .yaml⟩ ".a" .json)).1 = [message] ∧
        (Client.fetch (fun _ => some ⟨(200 : Nat), message.body⟩) c "7").2 =
          .ok ⟨"a: é", .yaml, ".a", .json, none, none⟩ := by
  intro c base
  have hserver : IsServer c.baseUrl base ["api"] :=
    ⟨⟨by decide +kernel, by decide, rfl, rfl, rfl⟩, .inl rfl⟩
  have hagrees : Agrees c base ["api"] ⟨"a: é", .yaml⟩ ".a" .json :=
    create_agrees_fetch hserver (by decide +kernel) (by decide) _ _ _
  obtain ⟨message, hsent, -, -, -, -, hfetch⟩ := hagrees.posts (by decide)
  have hid : Client.shareId "7" = .ok "7" := by decide +kernel
  have haddress : Client.address (c.collection ++ "/" ++ "7") = .ok (shareUrl base ["api"] "7") := by
    decide +kernel
  let net : Network := fun _ => some ⟨(200 : Nat), message.body⟩
  have hasked : (Client.fetch net c "7").1 = [⟨.get, shareUrl base ["api"] "7", ""⟩] := by
    rw [fetch_eq_exchange hid]
    exact exchange_alone haddress (by simp [Leads, net, Message.next?])
  refine ⟨hagrees, message, (hsent _).2.2 (by simp [Leads]), ?_⟩
  exact hfetch net "7" _ 200 none (by rw [hasked]; rfl) rfl le_rfl (by decide) (by decide)

/-- An answer that points on is followed, so that a share can be created by another message than the
one that was posted; slashes at the end of the address of a server are left out; and behind a query the
path is not gone on with. -/
theorem create_wanders :
    let c := Client.new ⟨"http://127.0.0.1:8080/api/", 6, 60, 5⟩
    let r := c.request ⟨"a: é", .yaml⟩ ".a" .json
    let base : Url := ⟨"http", some "127.0.0.1", some 8080, .segments ["api", ""], none, none⟩
    let net : Network := fun m =>
      if m.method = .post then some ⟨⟨303, some (shareUrl base ["api"] "7")⟩, ""⟩
      else some ⟨(200 : Nat), "\x7b\"id\":\"x\"\x7d"⟩
    r.payloadChars ≤ c.maxPayloadChars ∧
      Client.create net c r =
        ([⟨.post, sharesUrl base ["api"], Request.codec.print r⟩,
          ⟨.get, shareUrl base ["api"] "7", ""⟩], .ok "x") ∧
      Url.parse? "http://127.0.0.1:8080/api/" = some base ∧
      pathText base.path ++ "/shares" = "/api//shares" ∧
      (sharesUrl base ["api"]).target = "/api/shares" ∧
      (Client.create net (Client.new ⟨"http://127.0.0.1:8080/api?v=1", 6, 60, 5⟩) r).1.head?.map
        (·.url.target) = some "/api?v=1/shares" := by
  decide +kernel

end QueryPlayground.Share
