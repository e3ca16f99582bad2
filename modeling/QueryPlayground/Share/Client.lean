import QueryPlayground.Configuration
import QueryPlayground.Share.Snapshot
import QueryPlayground.Url.Parser

/-!
# The share client

Shares are created with a `POST` to the collection of shares below the address of the server, and
fetched with a `GET` of one of them. A share that is too long is refused before anything is sent. An
answer that points on to another address is followed there, ten times at most. Any other answer counts
if its status is one of success and its body has the form that is due; if not, it is an error with the
status and either the server's words or the usual ones of the status.
-/

namespace QueryPlayground.Share

open QueryPlayground.Json (Codec)

/-! ## §1 Exchanges -/

inductive Method where
  | get
  | post
  deriving DecidableEq, Repr

def Method.name : Method → String
  | get => "GET"
  | post => "POST"

/-- What is sent to a server. -/
structure Message where
  method : Method
  url : Url
  body : String
  deriving DecidableEq, Repr

/-- What an answer says before its body. The location is the address that it points on to, taken from
where it was asked; there is none if the answer names none that can be read. -/
structure Head where
  status : Nat
  location : Option Url
  deriving DecidableEq, Repr

/-- A status by itself points nowhere. -/
instance : Coe Nat Head := ⟨fun status => ⟨status, none⟩⟩

/-- What a server answers. -/
structure Response where
  head : Head
  body : String
  deriving DecidableEq, Repr

/-- What is answered to a message, if anyone answers. -/
abbrev Network := Message → Option Response

/-! ## §2 Statuses -/

/-- The usual words of a status. -/
def reasons : List (Nat × String) :=
  [(300, "Multiple Choices"), (301, "Moved Permanently"), (302, "Found"), (303, "See Other"),
    (304, "Not Modified"), (305, "Use Proxy"), (307, "Temporary Redirect"),
    (308, "Permanent Redirect"), (400, "Bad Request"), (401, "Unauthorized"),
    (402, "Payment Required"), (403, "Forbidden"), (404, "Not Found"), (405, "Method Not Allowed"),
    (406, "Not Acceptable"), (407, "Proxy Authentication Required"), (408, "Request Timeout"),
    (409, "Conflict"), (410, "Gone"), (411, "Length Required"), (412, "Precondition Failed"),
    (413, "Payload Too Large"), (414, "URI Too Long"), (415, "Unsupported Media Type"),
    (416, "Range Not Satisfiable"), (417, "Expectation Failed"), (418, "I'm a teapot"),
    (421, "Misdirected Request"), (422, "Unprocessable Entity"), (423, "Locked"),
    (424, "Failed Dependency"), (425, "Too Early"), (426, "Upgrade Required"),
    (428, "Precondition Required"), (429, "Too Many Requests"),
    (431, "Request Header Fields Too Large"), (451, "Unavailable For Legal Reasons"),
    (500, "Internal Server Error"), (501, "Not Implemented"), (502, "Bad Gateway"),
    (503, "Service Unavailable"), (504, "Gateway Timeout"), (505, "HTTP Version Not Supported"),
    (506, "Variant Also Negotiates"), (507, "Insufficient Storage"), (508, "Loop Detected"),
    (510, "Not Extended"), (511, "Network Authentication Required")]

/-- The words of a status, usual or not. -/
def reasonOf (status : Nat) : String :=
  (reasons.lookup status).getD "unknown error"

namespace Response

def status (r : Response) : Nat :=
  r.head.status

def isSuccess (r : Response) : Bool :=
  200 ≤ r.status && r.status < 300

/-- The body that comes through: two statuses have none. -/
def content (r : Response) : String :=
  if r.status = 204 ∨ r.status = 304 then "" else r.body

/-- What a refusal says. -/
def complaint (r : Response) : String :=
  let words := Text.trim r.content
  if words.isEmpty then reasonOf r.status else words

def decode {α : Type} (codec : Codec α) (r : Response) : Except Error α :=
  if r.isSuccess then
    (codec.parse r.content).mapError fun _ =>
      .shareRejected r.status "invalid response body: error decoding response body"
  else .error (.shareRejected r.status r.complaint)

end Response

/-! ## §3 Redirections -/

/-- The message that goes on where an answer points. For three statuses it is a plain `GET`, for two it
is the same message again, and no other status points anywhere. -/
def Message.next? (m : Message) (r : Response) : Option Message :=
  match r.head.location with
  | none => none
  | some url =>
    if r.status = 301 ∨ r.status = 302 ∨ r.status = 303 then some ⟨.get, url, ""⟩
    else if r.status = 307 ∨ r.status = 308 then some { m with url := url }
    else none

/-- Whether an address is one of the web. -/
def isAsked (u : Url) : Bool :=
  ["http", "https"].contains u.scheme

/-- How often answers are followed that point on. -/
def maxRedirections : Nat := 10

/-- Sends a message and those that its answers lead to, as long as some redirections are left. Beside the
last answer are the messages that were sent. -/
def Network.follow (net : Network) : Nat → Message → List Message × Except Error Response
  | left, m =>
    match net m with
    | none =>
      ([m], .error (.shareUnreachable ("error sending request for url (" ++ m.url.text ++ ")")))
    | some r =>
      match m.next? r, left with
      | none, _ => ([m], .ok r)
      | some _, 0 =>
        ([m], .error (.shareUnreachable ("error following redirect for url (" ++ m.url.text ++ ")")))
      | some next, left + 1 =>
        if isAsked next.url then
          let (sent, outcome) := net.follow left next
          (m :: sent, outcome)
        else ([m], .error (.shareUnreachable ("builder error for url (" ++ next.url.text ++ ")")))

/-! ## §4 The client -/

/-- A share client. Its address has no slashes at the end. -/
structure Client where
  baseUrl : String
  maxPayloadChars : Nat
  expirationSecs : Nat
  deriving DecidableEq, Repr

namespace Client

/-- The text without slashes at its end. -/
def dropSlashes (s : String) : String :=
  String.ofList ((s.toList.reverse.dropWhile (· == '/')).reverse)

def new (c : Configuration.Share) : Client :=
  ⟨dropSlashes c.baseUrl, c.maxPayloadChars, c.expirationSecs⟩

def request (c : Client) (input : Document) (query : String) (outputType : DocumentKind) : Request :=
  ⟨input.content, input.kind, query, outputType, c.expirationSecs⟩

/-- Refuses a share that is too long. -/
def checkSize (c : Client) (r : Request) : Except Error Unit :=
  if c.maxPayloadChars < r.payloadChars then
    .error (.sharePayloadTooLarge r.payloadChars c.maxPayloadChars)
  else .ok ()

/-- The longest address that can be asked for. -/
def maxUrlBytes : Nat := 65534

def address (s : String) : Except Error Url :=
  match Url.parse? s with
  | none => .error (.shareUnreachable "builder error")
  | some u =>
    if u.host.isNone || !isAsked u || maxUrlBytes < u.text.utf8ByteSize
    then .error (.shareUnreachable ("builder error for url (" ++ u.text ++ ")"))
    else .ok u

/-- Sends a message and decodes the last answer; beside the outcome are the messages that were sent. -/
def exchange {α : Type} (net : Network) (codec : Codec α) (method : Method)
    (address : Except Error Url) (body : String) : List Message × Except Error α :=
  match address with
  | .error e => ([], .error e)
  | .ok url =>
    let (sent, answer) := net.follow maxRedirections ⟨method, url, body⟩
    (sent, answer.bind fun r => r.decode codec)

/-- The address of all shares. -/
def collection (c : Client) : String :=
  c.baseUrl ++ "/shares"

/-- Creates a share; the outcome is its identifier. -/
def create (net : Network) (c : Client) (r : Request) : List Message × Except Error String :=
  match c.checkSize r with
  | .error e => ([], .error e)
  | .ok () => exchange net createdCodec .post (address c.collection) (Request.codec.print r)

/-- An identifier without blanks around it, if it can be one. -/
def shareId (id : String) : Except Error String :=
  let id := Text.trim id
  if id.isEmpty || id.toList.contains '/' then
    .error (.invalidArguments ("invalid share id '" ++ id ++ "'"))
  else .ok id

def fetch (net : Network) (c : Client) (id : String) : List Message × Except Error Snapshot :=
  match shareId id with
  | .error e => ([], .error e)
  | .ok id => exchange net Snapshot.codec .get (address (c.collection ++ "/" ++ id)) ""

end Client

end QueryPlayground.Share
