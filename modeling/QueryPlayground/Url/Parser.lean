import QueryPlayground.Url.Host

/-!
# URLs

A URL has a scheme, and by it either a plain path or a host with a path of segments, then a query and
a fragment. Reading one is lenient: spaces around it and line ends and tabs inside it do not count, a
web address takes backslashes for slashes, the segments `.` and `..` are resolved, and what a part
does not keep is percent encoded. A name and a password before the host are read over. `Url.text` is
the one written form.
-/

namespace QueryPlayground

/-! ## §1 URLs -/

inductive UrlPath where
  /-- A text without structure. -/
  | plain (text : String)
  /-- Segments, each after a slash. -/
  | segments (parts : List String)
  deriving DecidableEq, Repr

structure Url where
  scheme : String
  host : Option String
  /-- The port, unless it is the usual one of the scheme. -/
  port : Option Nat
  path : UrlPath
  /-- The text after the question mark. -/
  query : Option String
  /-- The text after the number sign. -/
  fragment : Option String
  deriving DecidableEq, Repr

namespace Url

/-- The written form of a path. -/
def pathText : UrlPath → String
  | .plain text => text
  | .segments parts => String.join (parts.map ("/" ++ ·))

/-- An optional part after its mark. -/
def markedText (mark : String) : Option String → String
  | some s => mark ++ s
  | none => ""

/-- The path and the query, which are what a server is asked for. -/
def target (u : Url) : String :=
  pathText u.path ++ markedText "?" u.query

/-- The host and the port. -/
def authority (u : Url) : String :=
  u.host.getD "" ++ markedText ":" (u.port.map toString)

/-- The scheme of local files, which have an empty host. -/
def fileScheme : String := "file"

/-- The written form. -/
def text (u : Url) : String :=
  u.scheme ++ ":" ++
    (if u.host.isSome || u.scheme == fileScheme then "//" ++ u.authority else "") ++ u.target ++
    markedText "#" u.fragment

/-! ## §2 Schemes -/

/-- The schemes of web addresses with their usual ports. -/
def webPorts : List (String × Nat) :=
  [("http", 80), ("https", 443), ("ws", 80), ("wss", 443), ("ftp", 21)]

def isWeb (scheme : String) : Bool :=
  (webPorts.lookup scheme).isSome

def isSchemeChar (c : Char) : Bool :=
  c.isAlphanum || c == '+' || c == '-' || c == '.'

/-- Reads the scheme and its colon. -/
def scheme? (cs : List Char) : Option (String × List Char) :=
  match cs with
  | [] => none
  | c :: _ =>
    if c.isAlpha then
      match cs.dropWhile isSchemeChar with
      | ':' :: rest => some (String.ofList ((cs.takeWhile isSchemeChar).map Char.toLower), rest)
      | _ => none
    else none

/-! ## §3 Paths -/

/-- Whether a character separates segments. -/
def isSlash (special : Bool) (c : Char) : Bool :=
  c == '/' || (special && c == '\\')

/-- Whether a character begins a query or a fragment. -/
def endsPath (c : Char) : Bool :=
  c == '?' || c == '#'

/-- The spellings of one dot. -/
def isSingleDot (segment : List Char) : Bool :=
  [".", "%2e"].contains (String.ofList (segment.map Char.toLower))

/-- The spellings of two dots. -/
def isDoubleDot (segment : List Char) : Bool :=
  ["..", ".%2e", "%2e.", "%2e%2e"].contains (String.ofList (segment.map Char.toLower))

/-- Resolves segments; those done so far are in reverse. -/
def resolve (done : List String) : List (List Char) → List String
  | [] => done.reverse
  | [last] =>
    if isDoubleDot last then ("" :: done.drop 1).reverse
    else if isSingleDot last then ("" :: done).reverse
    else (String.ofList (percentEncode keptInPath last) :: done).reverse
  | s :: rest =>
    if isDoubleDot s then resolve (done.drop 1) rest
    else if isSingleDot s then resolve done rest
    else resolve (String.ofList (percentEncode keptInPath s) :: done) rest

/-- The segments of a path, whose first slash is left out. -/
def segmentsOf (special : Bool) (cs : List Char) : List String :=
  resolve [] (splitAt (isSlash special) cs)

/-- The query and the fragment at the end of a URL. -/
def tailOf (special : Bool) (cs : List Char) : Option String × Option String :=
  let fragmentOf (cs : List Char) : Option String :=
    match cs with
    | '#' :: rest => some (String.ofList (percentEncode keptInFragment rest))
    | _ => none
  match cs with
  | '?' :: rest =>
    (some (String.ofList (percentEncode (keptInQuery special) (rest.takeWhile (· != '#')))),
      fragmentOf (rest.dropWhile (· != '#')))
  | cs => (none, fragmentOf cs)

/-! ## §4 Hosts and ports -/

/-- The text after a name and a password, if there are any. -/
def afterUser (cs : List Char) : List Char :=
  if cs.contains '@' then (cs.reverse.takeWhile (· != '@')).reverse else cs

/-- The text before the colon of a port and the one after it; colons in brackets do not count. -/
def splitPort (inBrackets : Bool) : List Char → List Char × Option (List Char)
  | [] => ([], none)
  | c :: cs =>
    if c == ':' && !inBrackets then ([], some cs)
    else
      let inBrackets := c == '[' || (inBrackets && c != ']')
      let (host, port) := splitPort inBrackets cs
      (c :: host, port)

/-- Reads a port, which may be left out and is left out when it is the usual one. -/
def port? (scheme : String) (cs : Option (List Char)) : Option (Option Nat) :=
  match cs with
  | none => some none
  | some [] => some none
  | some cs =>
    if cs.all Char.isDigit then
      match numberIn? 10 cs with
      | some n =>
        if 65535 < n then none
        else if webPorts.lookup scheme == some n then some none
        else some (some n)
      | none => none
    else none

def withHost? (scheme : String) (cs : List Char) : Option Url := do
  let special := isWeb scheme
  let inAuthority (c : Char) : Bool := !(isSlash special c || endsPath c)
  let authority := cs.takeWhile inAuthority
  let rest := cs.dropWhile inAuthority
  let named := afterUser authority
  let (hostText, portText) := splitPort false named
  if hostText.isEmpty && (special || portText.isSome || authority.contains '@') then none
  else
    let host ← if special then webHost? hostText else otherHost? hostText
    let port ← port? scheme portText
    let path := rest.takeWhile (!endsPath ·)
    let (query, fragment) := tailOf special (rest.dropWhile (!endsPath ·))
    let parts :=
      match path with
      | [] => if special then [""] else []
      | _ :: path => segmentsOf special path
    return ⟨scheme, some host, port, .segments parts, query, fragment⟩

def withoutHost (scheme : String) (cs : List Char) : Url :=
  let path := cs.takeWhile (!endsPath ·)
  let (query, fragment) := tailOf false (cs.dropWhile (!endsPath ·))
  match path with
  | '/' :: path => ⟨scheme, none, none, .segments (segmentsOf false path), query, fragment⟩
  | path =>
    ⟨scheme, none, none, .plain (String.ofList (percentEncode isPlain path)), query, fragment⟩

/-! ## §5 URLs -/

/-- Whether a character does not count at the ends of a URL. -/
def isEdge (c : Char) : Bool :=
  c.toNat ≤ 0x20

/-- Whether a character does not count inside a URL. -/
def isLineEnd (c : Char) : Bool :=
  c == '\t' || c == '\n' || c == '\r'

/-- The characters of a URL that count. -/
def tidy (cs : List Char) : List Char :=
  (((cs.dropWhile isEdge).reverse.dropWhile isEdge).reverse).filter (!isLineEnd ·)

def parse? (s : String) : Option Url := do
  let (scheme, rest) ← scheme? (tidy s.toList)
  if isWeb scheme then withHost? scheme (rest.dropWhile (isSlash true))
  else
    match rest with
    | '/' :: '/' :: rest =>
      if scheme == fileScheme && (rest.isEmpty || rest.head? == some '/') then
        some (withoutHost scheme rest)
      else withHost? scheme rest
    | rest => some (withoutHost scheme rest)

end Url

end QueryPlayground
