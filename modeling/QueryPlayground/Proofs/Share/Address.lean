import QueryPlayground.Proofs.Share.Server
import QueryPlayground.Proofs.Url.Percent

/-!
# Which share a fetch asks for

An identifier is put behind the address of all shares as it is. The client asks for the share of that
identifier exactly if the identifier is one segment of a path: one with a query or a fragment mark, a
backslash, a line end, a character at its end that does not count, or one that stands for dots asks
for something else or changes on its way. Identifiers that are segments are told apart by what is
asked for, unless they have percent signs of their own.

Main statement: `fetch_asks_iff`.
-/

namespace QueryPlayground.Share

open Url (IsSegment segmentText pathText)

variable {base : Url} {dir : List String} {share other : String}

theorem shareId_eq_ok_iff {id share : String} :
    Client.shareId id = .ok share ↔ share = Text.trim id ∧ share ≠ "" ∧ '/' ∉ share.toList := by
  unfold Client.shareId
  simp only [List.contains_eq_mem, Bool.or_eq_true, String.isEmpty_iff, decide_eq_true_eq]
  split_ifs with h
  · simp only [false_iff]
    rintro ⟨rfl, hne, hslash⟩
    exact h.elim hne hslash
  · constructor
    · intro heq
      obtain rfl := Except.ok.inj heq
      exact ⟨rfl, not_or.mp h⟩
    · rintro ⟨rfl, -⟩
      rfl

/-! ## §1 The address of a share -/

theorem target_shareUrl (h : base.query = none) :
    (shareUrl base dir share).target =
      pathText (.segments dir) ++ "/shares/" ++ segmentText share := by
  have hshares : "/shares" ++ ("/" ++ segmentText share) = "/shares/" ++ segmentText share := by
    rw [← String.append_assoc]
    rfl
  simp [shareUrl, Url.target, h, pathText, Url.markedText, String.join_append, String.append_assoc,
    hshares]

/-- An identifier stays one segment: what is written of it has no slash and no mark. -/
theorem not_mem_segmentText (h : '/' ∉ share.toList) :
    ∀ c ∈ (segmentText share).toList, c ∉ ['/', '?', '#'] := by
  intro c hc hmem
  rw [segmentText, String.toList_ofList] at hc
  simp only [List.mem_cons, List.not_mem_nil, or_false] at hmem
  rcases Url.mem_percentEncode hc with ⟨hin, hkeep⟩ | rfl | ⟨n, hn, rfl⟩
  · rcases hmem with rfl | rfl | rfl
    · exact h hin
    · exact absurd hkeep (by decide)
    · exact absurd hkeep (by decide)
  · revert hmem
    decide
  · interval_cases n <;> revert hmem <;> decide

theorem shareUrl_injective (hshare : '%' ∉ share.toList) (hother : '%' ∉ other.toList)
    (h : shareUrl base dir share = shareUrl base dir other) : share = other := by
  simp only [shareUrl, Url.mk.injEq, UrlPath.segments.injEq, true_and, and_true,
    List.append_cancel_left_eq, List.cons.injEq] at h
  exact String.toList_injective
    (Url.percentEncode_injective hshare hother (String.ofList_injective h))

/-! ## §2 What a fetch asks for -/

/-- Whatever the address of a server without a query and a fragment, an identifier that is accepted
is asked for with a `GET` of the share of that name exactly if it is one segment of a path and the
address is not too long, and nothing else is asked for unless the answer points on; then the path is
that of the server with one segment more below its shares, without a query. Identifiers that are segments
without percent signs are told apart by what is sent. -/
theorem fetch_asks_iff {settings : Configuration.Share} {base : Url}
    (hbase : Url.parse? ((Client.new settings).baseUrl ++ "/") = some base)
    (hscheme : base.scheme = "http" ∨ base.scheme = "https") (hquery : base.query = none)
    (hfragment : base.fragment = none) :
    ∃ dir : List String, base.path = .segments (dir ++ [""]) ∧
      ∀ id share, Client.shareId id = .ok share →
        (∀ net,
          ((Client.fetch net (Client.new settings) id).1.head? =
              some ⟨.get, shareUrl base dir share, ""⟩ ↔
            IsSegment share ∧ (shareUrl base dir share).text.utf8ByteSize ≤ Client.maxUrlBytes) ∧
          ((∀ next, ¬Leads net ⟨.get, shareUrl base dir share, ""⟩ next) →
            ((Client.fetch net (Client.new settings) id).1 = [⟨.get, shareUrl base dir share, ""⟩] ↔
              IsSegment share ∧
                (shareUrl base dir share).text.utf8ByteSize ≤ Client.maxUrlBytes))) ∧
        (shareUrl base dir share).target =
          pathText (.segments dir) ++ "/shares/" ++ segmentText share ∧
        (shareUrl base dir share).query = none ∧
        (∀ c ∈ (segmentText share).toList, c ∉ ['/', '?', '#']) ∧
        ∀ id' share', Client.shareId id' = .ok share' → '%' ∉ share.toList → '%' ∉ share'.toList →
          shareUrl base dir share = shareUrl base dir share' → share = share' := by
  obtain ⟨dir, hserver⟩ := exists_isServer hbase hscheme hquery hfragment
  refine ⟨dir, hserver.directory.path, fun id share hid => ⟨fun net => ?_, target_shareUrl hquery,
    hquery, not_mem_segmentText (shareId_eq_ok_iff.mp hid).2.2,
    fun _ _ _ hshare hshare' heq => shareUrl_injective hshare hshare' heq⟩⟩
  rw [fetch_eq_exchange hid, ← hserver.address_share_iff]
  exact ⟨⟨fun h => (address_of_exchange h).1, fun h => (exchange_settles h).1⟩, fun halone =>
    ⟨fun h => (address_of_exchange (by rw [h]; rfl)).1, fun h => exchange_alone h halone⟩⟩

/-- An identifier with a blank inside and blanks around it. -/
theorem fetch_asks_iff_blank :
    Client.shareId " a b " = .ok "a b" ∧
      (Client.fetch (fun _ => none) (Client.new ⟨"http://127.0.0.1:8080/api/", 100, 60, 5⟩)
        " a b ").1 =
        [⟨.get, ⟨"http", some "127.0.0.1", some 8080, .segments ["api", "shares", "a%20b"], none, none⟩,
          ""⟩] := by
  have hid : Client.shareId " a b " = .ok "a b" := by decide +kernel
  have hbase : Url.parse? ((Client.new ⟨"http://127.0.0.1:8080/api/", 100, 60, 5⟩).baseUrl ++ "/") =
      some ⟨"http", some "127.0.0.1", some 8080, .segments ["api", ""], none, none⟩ := by
    decide +kernel
  obtain ⟨dir, hdir, hasks⟩ := fetch_asks_iff hbase (.inl rfl) rfl rfl
  obtain rfl : ["api"] = dir := (List.append_left_inj [""]).mp (UrlPath.segments.inj hdir)
  have hsegment : IsSegment "a b" := by
    constructor <;> simp [Url.isLineEnd, Url.isSlash, Url.endsPath, Url.isEdge, Url.isSingleDot,
      Url.isDoubleDot]
  exact ⟨hid, (((hasks " a b " "a b" hid).1 _).2 (by simp [Leads])).mpr
    ⟨hsegment, by decide +kernel⟩⟩

/-- A question mark begins a query, a number sign ends what is sent, dots leave the shares, and a
blank is sent as its percent form is. -/
theorem fetch_strays :
    ∃ (settings : Configuration.Share) (base : Url),
      Url.parse? ((Client.new settings).baseUrl ++ "/") = some base ∧ base.scheme = "http" ∧
      base.query = none ∧ base.fragment = none ∧ base.path = .segments ["api", ""] ∧
      (∀ id ∈ ["a?b", "..", "a#b", "a", "a b", "a%20b"], Client.shareId id = .ok id) ∧
      (Client.fetch (fun _ => none) (Client.new settings) "a?b").1 =
        [⟨.get, { base with path := .segments ["api", "shares", "a"], query := some "b" }, ""⟩] ∧
      (Client.fetch (fun _ => none) (Client.new settings) "..").1 =
        [⟨.get, { base with path := .segments ["api", ""] }, ""⟩] ∧
      ((Client.fetch (fun _ => none) (Client.new settings) "a#b").1.map fun m => m.url.target) =
        ((Client.fetch (fun _ => none) (Client.new settings) "a").1.map fun m => m.url.target) ∧
      (Client.fetch (fun _ => none) (Client.new settings) "a b").1 =
        (Client.fetch (fun _ => none) (Client.new settings) "a%20b").1 :=
  ⟨⟨"http://127.0.0.1:8080/api/", 100, 60, 5⟩,
    ⟨"http", some "127.0.0.1", some 8080, .segments ["api", ""], none, none⟩, by decide +kernel⟩

end QueryPlayground.Share
