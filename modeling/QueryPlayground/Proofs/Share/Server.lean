import QueryPlayground.Proofs.Url.Extension
import QueryPlayground.Share.Client

/-!
# The addresses of a share server

A server stands at a web address without a query and a fragment. Its shares are kept in one directory
below it, and a share is one segment in there. Where that address can be asked for, a client sends one
message there, and further ones only as far as the answers point on; what comes of the last answer is a
question of its status and its body alone.

Main statements: `IsServer.address_collection`, `IsServer.address_share_iff` and `exchange_settles`.
-/

namespace QueryPlayground.Share

open QueryPlayground.Json (Codec)
open Url (IsDirectory IsSegment segmentText)

/-! ## §1 Addresses -/

/-- A text that, with a slash behind it, is a web address that can be asked; `dir` are the segments of
its path in front of that slash. -/
structure IsServer (baseUrl : String) (base : Url) (dir : List String) : Prop where
  directory : IsDirectory baseUrl base dir
  scheme : base.scheme = "http" ∨ base.scheme = "https"

theorem exists_isServer {baseUrl : String} {base : Url}
    (h : Url.parse? (baseUrl ++ "/") = some base)
    (hscheme : base.scheme = "http" ∨ base.scheme = "https") (hquery : base.query = none)
    (hfragment : base.fragment = none) : ∃ dir, IsServer baseUrl base dir := by
  have hweb : Url.isWeb base.scheme = true := by
    rcases hscheme with hscheme | hscheme <;> rw [hscheme] <;> decide
  obtain ⟨dir, hdir⟩ := Url.exists_isDirectory h hweb hquery hfragment
  exact ⟨dir, hdir, hscheme⟩

/-- The address of all shares of a server. -/
def sharesUrl (base : Url) (dir : List String) : Url :=
  { base with path := .segments (dir ++ ["shares"]) }

/-- The address of one share of a server. -/
def shareUrl (base : Url) (dir : List String) (share : String) : Url :=
  { base with path := .segments (dir ++ ["shares", segmentText share]) }

theorem target_sharesUrl {base : Url} {dir : List String} (h : base.query = none) :
    (sharesUrl base dir).target = Url.pathText (.segments dir) ++ "/shares" := by
  simp [sharesUrl, Url.target, h, Url.pathText, Url.markedText, String.join_append]

theorem address_eq_ok_iff {text : String} {u : Url} :
    Client.address text = .ok u ↔
      Url.parse? text = some u ∧ u.host.isSome = true ∧ (u.scheme = "http" ∨ u.scheme = "https") ∧
        u.text.utf8ByteSize ≤ Client.maxUrlBytes := by
  unfold Client.address
  cases Url.parse? text with
  | none => simp
  | some other =>
    have hrefused : (other.host.isNone || !isAsked other ||
        decide (Client.maxUrlBytes < other.text.utf8ByteSize)) = true ↔
        ¬(other.host.isSome = true ∧ (other.scheme = "http" ∨ other.scheme = "https") ∧
          other.text.utf8ByteSize ≤ Client.maxUrlBytes) := by
      cases other.host <;> simp [isAsked]
      tauto
    by_cases hasked : other.host.isSome = true ∧ (other.scheme = "http" ∨ other.scheme = "https") ∧
        other.text.utf8ByteSize ≤ Client.maxUrlBytes
    · have haccepted := hrefused.not.mpr (not_not.mpr hasked)
      simp only [haccepted, Bool.false_eq_true, if_false, Except.ok.injEq, Option.some.injEq]
      constructor
      · rintro rfl
        exact ⟨rfl, hasked⟩
      · exact fun h => h.1
    · simp only [hrefused.mpr hasked, if_true, reduceCtorEq, Option.some.injEq, false_iff]
      rintro ⟨rfl, h⟩
      exact hasked h

theorem isSegment_shares : IsSegment "shares" := by
  constructor <;> simp [Url.isLineEnd, Url.isSlash, Url.endsPath, Url.isEdge, Url.isSingleDot,
    Url.isDoubleDot]

theorem segmentText_shares : segmentText "shares" = "shares" := by
  cbv

namespace IsServer

variable {c : Client} {base : Url} {dir : List String}

theorem address_iff (h : IsServer c.baseUrl base dir) {text : String} {path : UrlPath} :
    Client.address text = .ok { base with path := path } ↔
      Url.parse? text = some { base with path := path } ∧
        ({ base with path := path } : Url).text.utf8ByteSize ≤ Client.maxUrlBytes := by
  simp [address_eq_ok_iff, h.directory.host, h.scheme]

theorem address_collection (h : IsServer c.baseUrl base dir)
    (hsize : (sharesUrl base dir).text.utf8ByteSize ≤ Client.maxUrlBytes) :
    Client.address c.collection = .ok (sharesUrl base dir) := by
  have hparse := h.directory.parse?_segment isSegment_shares
  rw [segmentText_shares, String.append_assoc] at hparse
  exact h.address_iff.mpr ⟨hparse, hsize⟩

/-- A share is asked for at its own address exactly if its identifier is one segment of a path and
the address is not too long. -/
theorem address_share_iff (h : IsServer c.baseUrl base dir) {share : String} :
    Client.address (c.collection ++ "/" ++ share) = .ok (shareUrl base dir share) ↔
      IsSegment share ∧ (shareUrl base dir share).text.utf8ByteSize ≤ Client.maxUrlBytes := by
  have hinside := h.directory.enter isSegment_shares
  rw [segmentText_shares, String.append_assoc] at hinside
  have hiff := hinside.parse?_append_eq_iff (s := share)
  simp only [List.append_assoc, List.cons_append, List.nil_append] at hiff
  rw [shareUrl, h.address_iff, ← hiff]
  rfl

end IsServer

/-! ## §2 Answers -/

/-- An answer decides an outcome: the outcome is an element exactly if the status is one of success
and the body spells that element, and otherwise it is a refusal with the status. -/
structure Decides {α : Type} (codec : Codec α) (answer : Response) (outcome : Except Error α) :
    Prop where
  accepted : ∀ a, outcome = .ok a ↔
    answer.isSuccess = true ∧ codec.parse answer.content = .ok a
  refused : (∀ a, outcome ≠ .ok a) →
    ∃ message, outcome = .error (.shareRejected answer.status message)

theorem decides_decode {α : Type} (codec : Codec α) (answer : Response) :
    Decides codec answer (answer.decode codec) := by
  unfold Response.decode
  cases hsuccess : answer.isSuccess with
  | false => constructor <;> simp [hsuccess]
  | true =>
    cases hparse : codec.parse answer.content with
    | error e => constructor <;> simp [Except.mapError, hparse]
    | ok a => constructor <;> simp [Except.mapError, hsuccess, hparse]

/-- An answer of success points nowhere. -/
theorem next?_of_isSuccess {r : Response} (h : r.isSuccess = true) (m : Message) :
    m.next? r = none := by
  have hstatus : 200 ≤ r.status ∧ r.status < 300 := by simpa [Response.isSuccess] using h
  unfold Message.next?
  split
  · rfl
  · rw [if_neg (by omega), if_neg (by omega)]

/-! ## §3 Messages -/

/-- A message is the one to which the answer to another one points. -/
def Leads (net : Network) (m next : Message) : Prop :=
  ∃ r, net m = some r ∧ m.next? r = some next

/-- The messages that a client sends with what comes of them, where some redirections may be followed:
each message follows from the one before it, and the answer to the last one decides if it points
nowhere. If there is no such answer, the server could not be reached. -/
structure Settles {α : Type} (net : Network) (left : Nat)
    (decides : Response → Except Error α → Prop) (after : List Message × Except Error α) : Prop where
  leads : after.1.IsChain (Leads net)
  length_le : after.1.length ≤ left + 1
  decided : ∀ last r, after.1.getLast? = some last → net last = some r → last.next? r = none →
    decides r after.2
  unanswered : ∀ last, after.1.getLast? = some last → net last = none →
    after.2 = .error (.shareUnreachable ("error sending request for url (" ++ last.url.text ++ ")"))
  astray : ∀ last next, after.1.getLast? = some last → Leads net last next →
    after.1.length = left + 1 ∧
        after.2 = .error
          (.shareUnreachable ("error following redirect for url (" ++ last.url.text ++ ")")) ∨
      isAsked next.url = false ∧
        after.2 = .error (.shareUnreachable ("builder error for url (" ++ next.url.text ++ ")"))

section Following

variable {α : Type} {net : Network} {left : Nat} {decides : Response → Except Error α → Prop}
  {m next : Message} {sent : List Message} {outcome : Except Error α}

/-- One message settles what one would say of the last one. -/
theorem settles_one (hdecided : ∀ r, net m = some r → m.next? r = none → decides r outcome)
    (hunanswered : net m = none → outcome =
      .error (.shareUnreachable ("error sending request for url (" ++ m.url.text ++ ")")))
    (hastray : ∀ next, Leads net m next →
      left = 0 ∧ outcome = .error
          (.shareUnreachable ("error following redirect for url (" ++ m.url.text ++ ")")) ∨
        isAsked next.url = false ∧ outcome =
          .error (.shareUnreachable ("builder error for url (" ++ next.url.text ++ ")"))) :
    Settles net left decides ([m], outcome) where
  leads := .singleton m
  length_le := by simp
  decided last r hlast := by
    obtain rfl : m = last := by simpa using hlast
    exact hdecided r
  unanswered last hlast := by
    obtain rfl : m = last := by simpa using hlast
    exact hunanswered
  astray last next hlast hleads := by
    obtain rfl : m = last := by simpa using hlast
    rcases hastray next hleads with ⟨rfl, houtcome⟩ | hother
    · exact .inl ⟨rfl, houtcome⟩
    · exact .inr hother

/-- A message that leads to the first one of those that settle settles with them. -/
theorem Settles.cons (h : Settles net left decides (sent, outcome)) (hleads : Leads net m next)
    (hhead : sent.head? = some next) : Settles net (left + 1) decides (m :: sent, outcome) := by
  have hlast : (m :: sent).getLast? = sent.getLast? := by
    cases sent with
    | nil => cases hhead
    | cons _ _ => rfl
  constructor
  · refine List.isChain_cons.mpr ⟨fun first hfirst => ?_, h.leads⟩
    rw [hhead] at hfirst
    exact Option.some.inj hfirst ▸ hleads
  · simpa using h.length_le
  · simpa only [hlast] using h.decided
  · simpa only [hlast] using h.unanswered
  · simpa only [hlast, List.length_cons, Nat.add_right_cancel_iff] using h.astray

end Following

/-- Where the answer points nowhere, nothing more is sent. -/
theorem follow_alone {net : Network} {m : Message} (h : ∀ next, ¬Leads net m next) (left : Nat) :
    (net.follow left m).1 = [m] ∧
      Settles net left (fun r outcome => outcome = .ok r) (net.follow left m) := by
  have hastray : ∀ next, Leads net m next → ∀ p : Prop, p := fun next hleads => (h next hleads).elim
  unfold Network.follow
  cases hanswer : net m with
  | none =>
    refine ⟨rfl, settles_one ?_ (fun _ => rfl) fun n hn => hastray n hn _⟩
    simp [hanswer]
  | some r =>
    have hnext : m.next? r = none :=
      Option.eq_none_iff_forall_ne_some.mpr fun next hnext => h next ⟨r, hanswer, hnext⟩
    simp only [hnext]
    refine ⟨trivial, settles_one ?_ ?_ fun n hn => hastray n hn _⟩
    · simp [hanswer]
    · simp [hanswer]

/-- Where it points on, a redirection is used up, if there is one left and the web goes on there. -/
theorem follow_of_leads {net : Network} {m next : Message} (h : Leads net m next) (left : Nat) :
    net.follow left m =
      match left with
      | 0 =>
        ([m],
          .error (.shareUnreachable ("error following redirect for url (" ++ m.url.text ++ ")")))
      | left + 1 =>
        if isAsked next.url then (m :: (net.follow left next).1, (net.follow left next).2)
        else ([m], .error (.shareUnreachable ("builder error for url (" ++ next.url.text ++ ")"))) := by
  obtain ⟨r, hanswer, hnext⟩ := h
  rw [Network.follow]
  simp only [hanswer, hnext]
  cases left <;> rfl

theorem Leads.unique {net : Network} {m next other : Message} (h : Leads net m next)
    (hother : Leads net m other) : next = other := by
  obtain ⟨r, hanswer, hnext⟩ := h
  obtain ⟨r', hanswer', hnext'⟩ := hother
  obtain rfl := Option.some.inj (hanswer.symm.trans hanswer')
  exact Option.some.inj (hnext.symm.trans hnext')

theorem follow_head (net : Network) (left : Nat) (m : Message) :
    (net.follow left m).1.head? = some m := by
  by_cases hleads : ∃ next, Leads net m next
  · obtain ⟨next, hnext⟩ := hleads
    rw [follow_of_leads hnext]
    split
    · rfl
    · split <;> rfl
  · rw [(follow_alone (not_exists.mp hleads) left).1]
    rfl

/-- Whatever is answered, what is sent and what comes of it settle. -/
theorem follow_settles (net : Network) (left : Nat) (m : Message) :
    Settles net left (fun r outcome => outcome = .ok r) (net.follow left m) := by
  by_cases hleads : ∃ next, Leads net m next
  · obtain ⟨next, hnext⟩ := hleads
    rw [follow_of_leads hnext]
    obtain ⟨r, hanswer, hr⟩ := id hnext
    -- The induction is on the redirections that are left, as a further message takes one of them.
    cases left with
    | zero => exact settles_one (by simp [hanswer, hr]) (by simp [hanswer]) fun _ _ => .inl ⟨rfl, rfl⟩
    | succ left =>
      dsimp only
      split
      next => exact (follow_settles net left next).cons hnext (follow_head net left next)
      next hasked =>
        refine settles_one (by simp [hanswer, hr]) (by simp [hanswer]) fun other hother => .inr ?_
        rw [← hnext.unique hother]
        exact ⟨Bool.eq_false_iff.mpr hasked, rfl⟩
  · exact (follow_alone (not_exists.mp hleads) left).2

/-! ## §4 Exchanges -/

/-- What comes of the last answer is what its decoding says. -/
theorem Settles.decode {α : Type} {net : Network} {left : Nat}
    {after : List Message × Except Error Response}
    (h : Settles net left (fun r outcome => outcome = .ok r) after) (codec : Codec α) :
    Settles net left (Decides codec) (after.1, after.2.bind fun r => r.decode codec) where
  leads := h.leads
  length_le := h.length_le
  decided last r hlast hanswer hnext := by
    rw [h.decided last r hlast hanswer hnext]
    exact decides_decode codec r
  unanswered last hlast hanswer := by
    rw [h.unanswered last hlast hanswer]
    rfl
  astray last next hlast hleads := by
    rcases h.astray last next hlast hleads with ⟨hlength, houtcome⟩ | ⟨hasked, houtcome⟩
    · exact .inl ⟨hlength, by rw [houtcome]; rfl⟩
    · exact .inr ⟨hasked, by rw [houtcome]; rfl⟩

section Exchanges

variable {α : Type} {address : Except Error Url} {url : Url} {net : Network} {codec : Codec α}
  {method : Method} {body : String}

/-- What is sent and what comes of it, where the address can be asked for. -/
theorem exchange_settles (h : address = .ok url) :
    (Client.exchange net codec method address body).1.head? = some ⟨method, url, body⟩ ∧
      Settles net maxRedirections (Decides codec)
        (Client.exchange net codec method address body) := by
  rw [h]
  exact ⟨follow_head _ _ _, (follow_settles _ _ _).decode codec⟩

/-- The first message is the only one, unless its answer points on. -/
theorem exchange_alone (h : address = .ok url) (halone : ∀ next, ¬Leads net ⟨method, url, body⟩ next) :
    (Client.exchange net codec method address body).1 = [⟨method, url, body⟩] := by
  rw [h]
  exact (follow_alone halone _).1

/-- What is sent tells that the address can be asked for. -/
theorem address_of_exchange {first : Message}
    (h : (Client.exchange net codec method address body).1.head? = some first) :
    address = .ok first.url ∧ first = ⟨method, first.url, body⟩ := by
  cases address with
  | error e => simp [Client.exchange] at h
  | ok url =>
    rw [(exchange_settles rfl).1] at h
    obtain rfl := Option.some.inj h
    exact ⟨rfl, rfl⟩

end Exchanges

theorem fetch_eq_exchange {id share : String} (h : Client.shareId id = .ok share) (net : Network)
    (c : Client) :
    Client.fetch net c id =
      Client.exchange net Snapshot.codec .get (Client.address (c.collection ++ "/" ++ share)) "" := by
  rw [Client.fetch, h]

/-- Whatever a fetch sends settles. -/
theorem fetch_settles {net : Network} {c : Client} {id : String}
    (h : (Client.fetch net c id).1 ≠ []) :
    Settles net maxRedirections (Decides Snapshot.codec) (Client.fetch net c id) := by
  cases hid : Client.shareId id with
  | error e => simp [Client.fetch, hid] at h
  | ok share =>
    rw [fetch_eq_exchange hid] at h ⊢
    cases haddress : Client.address (c.collection ++ "/" ++ share) with
    | error e => simp [Client.exchange, haddress] at h
    | ok url => exact (exchange_settles rfl).2

end QueryPlayground.Share
