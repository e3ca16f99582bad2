import QueryPlayground.Yaml.Token

/-!
# The stream of tokens

A scanner holds the cursor, the indentation of the open block collections, and the tokens that were
read but not taken yet. A token can turn out to be a key only when a colon is met behind it, so the
scanner remembers for every open flow collection, and for the block around them, the place where a
simple key may have begun; a token leaves the queue only when that is settled. A simple key lies on
one line and is at most `longestKey` characters long.
-/

namespace QueryPlayground.Yaml

/-! ## §1 State -/

/-- A place where a simple key may have begun. -/
structure SimpleKey where
  /-- Whether a key has to begin here. -/
  required : Bool
  /-- The number of the token in the stream. -/
  number : Nat
  /-- The number of characters before it. -/
  index : Nat
  /-- The mark of its first character. -/
  mark : Mark
  deriving Repr

/-- The most characters of a simple key. -/
def longestKey : Nat := 1024

structure Scanner where
  /-- The unread text. -/
  cursor : Cursor
  /-- The length of the whole text. -/
  size : Nat
  /-- The tokens that were read but not taken. -/
  queue : List Token
  /-- The number of tokens that were taken. -/
  taken : Nat
  /-- The column of the innermost open block collection, `-1` outside of all. -/
  indent : Int
  /-- The columns of the block collections around it. -/
  outer : List Int
  /-- Whether a simple key may begin here. -/
  keyAllowed : Bool
  /-- The pending simple keys: of the innermost open flow collection first, of the block last. -/
  keys : List (Option SimpleKey)
  deriving Repr

namespace Scanner

def ofText (text : List Char) : Scanner :=
  { cursor := .start text, size := text.length, queue := [], taken := 0, indent := -1, outer := [],
    keyAllowed := true, keys := [none] }

/-- Whether a flow collection is open. -/
def inFlow (s : Scanner) : Bool :=
  1 < s.keys.length

/-- Puts a token at the end of the queue. -/
def push (s : Scanner) (t : Token) : Scanner :=
  { s with queue := s.queue ++ [t] }

/-- Puts a token before the one with a number. -/
def insertAt (s : Scanner) (number : Nat) (t : Token) : Scanner :=
  let k := number - s.taken
  { s with queue := s.queue.take k ++ t :: s.queue.drop k }

/-! ## §2 Simple keys -/

def fail {α : Type} (s : Scanner) (p : Problem) : Except Failure α :=
  .error (.bare p s.cursor.mark)

/-- The colon of a required key is missing. -/
def missingColon {α : Type} (s : Scanner) (k : SimpleKey) : Except Failure α :=
  .error (.within .simpleKey k.mark .missingColon s.cursor.mark)

/-- Gives up the simple key of the innermost collection. -/
def dropKey (s : Scanner) : Except Failure Scanner :=
  match s.keys with
  | some k :: keys =>
    if k.required then s.missingColon k else .ok { s with keys := none :: keys }
  | _ => .ok s

/-- Remembers that a simple key may begin at the cursor. -/
def saveKey (s : Scanner) : Except Failure Scanner :=
  if s.keyAllowed then do
    let s ← s.dropKey
    let key : SimpleKey :=
      { required := !s.inFlow && s.indent == s.cursor.column
        number := s.taken + s.queue.length
        index := s.cursor.index
        mark := s.cursor.mark }
    return { s with keys := some key :: s.keys.drop 1 }
  else .ok s

/-- Whether the cursor has left the reach of a simple key. -/
def isStale (s : Scanner) (k : SimpleKey) : Bool :=
  k.mark.line < s.cursor.line || k.index + longestKey < s.cursor.index

/-- Gives up the simple keys whose reach the cursor has left. -/
def dropStaleKeys (s : Scanner) : Except Failure Scanner :=
  let stale := s.keys.filterMap fun k => k.filter s.isStale
  match stale.find? (·.required) with
  | some k => s.missingColon k
  | none => .ok { s with keys := s.keys.map fun k => k.filter (!s.isStale ·) }

/-! ## §3 Indentation -/

/-- Opens a block collection at a column, before the token of a number or at the end of the queue. -/
def roll (s : Scanner) (column : Nat) (number : Option Nat) (kind : TokenKind) (m : Mark) :
    Scanner :=
  if s.inFlow || (column : Int) ≤ s.indent then s
  else
    let s := { s with indent := column, outer := s.indent :: s.outer }
    match number with
    | none => s.push ⟨kind, m, m⟩
    | some n => s.insertAt n ⟨kind, m, m⟩

/-- The open block collections that begin at or left of a column, and the number of the others. -/
def unrollTo (column : Int) : List Int → Int → Nat → Int × List Int × Nat
  | [], indent, closed => (indent, [], closed)
  | i :: outer, indent, closed =>
    if column < indent then unrollTo column outer i (closed + 1) else (indent, i :: outer, closed)

/-- Closes the block collections that begin right of a column. -/
def unroll (s : Scanner) (column : Int) : Scanner :=
  if s.inFlow then s
  else
    let (indent, outer, closed) := unrollTo column s.outer s.indent 0
    let m := s.cursor.mark
    { s with
      indent := indent
      outer := outer
      queue := s.queue ++ List.replicate closed ⟨.blockEnd, m, m⟩ }

/-! ## §4 Space between tokens -/

/-- Passes over space, comments and line breaks. A tab counts as space where no simple key can
begin. -/
def skipSpaceFrom : Nat → Scanner → Scanner
  | 0, s => s
  | fuel + 1, s =>
    let tabs := s.inFlow || !s.keyAllowed
    let c := (s.cursor.skipWhile fun c => c = ' ' || (tabs && c = '\t')).skipComment
    if !c.rest.isEmpty && atBreakOrEnd c.rest then
      skipSpaceFrom fuel
        { s with cursor := c.skipBreak, keyAllowed := s.keyAllowed || !s.inFlow }
    else { s with cursor := c }

/-- Passes over the space before the next token, and over a byte order mark at the very start. -/
def skipSpace (s : Scanner) : Scanner :=
  let c := s.cursor
  let c := if c.index == 0 && startsWith (Char.ofNat 0xFEFF) c.rest then c.skip 1 else c
  skipSpaceFrom (s.size + 1) { s with cursor := c }

/-! ## §5 Reading one token -/

/-- Takes a token of a few fixed characters from the text. -/
def take (s : Scanner) (kind : TokenKind) (length : Nat) : Scanner :=
  let c := s.cursor.skip length
  { s with cursor := c, queue := s.queue ++ [⟨kind, s.cursor.mark, c.mark⟩] }

/-- Takes a token whose end is known. -/
def takeTo (s : Scanner) (kind : TokenKind) (c : Cursor) : Scanner :=
  { s with cursor := c, queue := s.queue ++ [⟨kind, s.cursor.mark, c.mark⟩] }

/-- Closes everything at the end of the text. -/
def readEnd (s : Scanner) : Except Failure Scanner := do
  let c := s.cursor
  let c := if c.column == 0 then c else { c with line := c.line + 1, column := 0 }
  let s ← ({ s with cursor := c }.unroll (-1)).dropKey
  return { s with keyAllowed := false }.take .streamEnd 0

def readDirective (s : Scanner) : Except Failure Scanner := do
  let s ← (s.unroll (-1)).dropKey
  let (t, c) ← directiveToken s.size s.cursor
  return { s with keyAllowed := false, cursor := c }.push t

def readDocument (s : Scanner) (kind : TokenKind) : Except Failure Scanner := do
  let s ← (s.unroll (-1)).dropKey
  return { s with keyAllowed := false }.take kind 3

/-- Opens a flow collection. -/
def readFlowStart (s : Scanner) (kind : TokenKind) : Except Failure Scanner := do
  let s ← s.saveKey
  return { s with keys := none :: s.keys, keyAllowed := true }.take kind 1

/-- Closes a flow collection. -/
def readFlowEnd (s : Scanner) (kind : TokenKind) : Except Failure Scanner := do
  let s ← s.dropKey
  let keys := if s.inFlow then s.keys.drop 1 else s.keys
  return { s with keys := keys, keyAllowed := false }.take kind 1

/-- Reads the comma of a flow collection. -/
def readFlowEntry (s : Scanner) : Except Failure Scanner := do
  let s ← s.dropKey
  return { s with keyAllowed := true }.take .flowEntry 1

/-- Reads the dash of a block sequence. -/
def readBlockEntry (s : Scanner) : Except Failure Scanner := do
  if !s.inFlow && !s.keyAllowed then s.fail .unexpectedEntry
  else do
    let s ← (s.roll s.cursor.column none .blockSequenceStart s.cursor.mark).dropKey
    return { s with keyAllowed := true }.take .blockEntry 1

/-- Reads the question mark of a key. -/
def readKey (s : Scanner) : Except Failure Scanner := do
  if !s.inFlow && !s.keyAllowed then s.fail .unexpectedKey
  else do
    let s ← (s.roll s.cursor.column none .blockMappingStart s.cursor.mark).dropKey
    return { s with keyAllowed := !s.inFlow }.take .key 1

/-- Reads the colon of a value, which turns a pending simple key into a key. -/
def readValue (s : Scanner) : Except Failure Scanner :=
  match s.keys with
  | some k :: keys =>
    let s := s.insertAt k.number ⟨.key, k.mark, k.mark⟩
    let s := s.roll k.mark.column (some k.number) .blockMappingStart k.mark
    .ok ({ s with keys := none :: keys, keyAllowed := false }.take .value 1)
  | _ =>
    if !s.inFlow && !s.keyAllowed then s.fail .unexpectedValue
    else
      let s := s.roll s.cursor.column none .blockMappingStart s.cursor.mark
      .ok ({ s with keyAllowed := !s.inFlow }.take .value 1)

def readAnchor (s : Scanner) : Except Failure Scanner := do
  let s ← s.saveKey
  let (name, c) ← anchorName .anchor s.cursor
  return { s with keyAllowed := false }.takeTo (.anchor name) c

def readAlias (s : Scanner) : Except Failure Scanner := do
  let s ← s.saveKey
  let (name, c) ← anchorName .alias s.cursor
  return { s with keyAllowed := false }.takeTo (.alias name) c

def readTag (s : Scanner) : Except Failure Scanner := do
  let s ← s.saveKey
  let (kind, c) ← tagToken s.size s.inFlow s.cursor
  return { s with keyAllowed := false }.takeTo kind c

def readBlockScalar (s : Scanner) (literal : Bool) : Except Failure Scanner := do
  let s ← s.dropKey
  let (content, c) ← blockScalar s.size literal s.indent s.cursor
  return { s with keyAllowed := true }.takeTo (.scalar content .marked) c

def readQuoted (s : Scanner) (quote : Char) : Except Failure Scanner := do
  let s ← s.saveKey
  let (content, c) ← quotedScalar s.size quote s.cursor
  return { s with keyAllowed := false }.takeTo (.scalar content .marked) c

/-- Reads a plain scalar; a line break behind it allows a simple key again. -/
def readPlain (s : Scanner) : Except Failure Scanner := do
  let s ← s.saveKey
  let (content, broken, c) ← plainScalar s.size s.inFlow s.indent s.cursor
  return { s with keyAllowed := broken }.takeTo (.scalar content .plain) c

/-- Whether a plain scalar can start with a text. -/
def startsPlain (flow : Bool) (cs : List Char) : Bool :=
  match cs with
  | [] => false
  | c :: rest =>
    (!atBlankOrEnd cs &&
      !(['-', '?', ':', ',', '[', ']', '\x7b', '\x7d', '#', '&', '*', '!', '|', '>', '\'', '"', '%',
        '@', Char.ofNat 96].contains c)) ||
    (c = '-' && !(match rest with
      | d :: _ => isBlankChar d
      | [] => false)) ||
    (!flow && (c = '?' || c = ':') && !atBlankOrEnd rest)

/-- Reads the next token behind space. -/
def readToken (s : Scanner) : Except Failure Scanner := do
  let s ← s.skipSpace.dropStaleKeys
  let s := s.unroll s.cursor.column
  let flow := s.inFlow
  match s.cursor.rest with
  | [] => s.readEnd
  | c :: rest =>
    let lineStart := s.cursor.column == 0
    if lineStart && c = '%' then s.readDirective
    else if lineStart && startsWithThree '-' (c :: rest) then s.readDocument .documentStart
    else if lineStart && startsWithThree '.' (c :: rest) then s.readDocument .documentEnd
    else if c = '[' then s.readFlowStart .flowSequenceStart
    else if c = '\x7b' then s.readFlowStart .flowMappingStart
    else if c = ']' then s.readFlowEnd .flowSequenceEnd
    else if c = '\x7d' then s.readFlowEnd .flowMappingEnd
    else if c = ',' then s.readFlowEntry
    else if c = '-' && atBlankOrEnd rest then s.readBlockEntry
    else if c = '?' && (flow || atBlankOrEnd rest) then s.readKey
    else if c = ':' && (flow || atBlankOrEnd rest) then s.readValue
    else if c = '*' then s.readAlias
    else if c = '&' then s.readAnchor
    else if c = '!' then s.readTag
    else if c = '|' && !flow then s.readBlockScalar true
    else if c = '>' && !flow then s.readBlockScalar false
    else if c = '\'' then s.readQuoted '\''
    else if c = '"' then s.readQuoted '"'
    else if startsPlain flow (c :: rest) then s.readPlain
    else .error (.within .nextToken s.cursor.mark .noToken s.cursor.mark)

/-! ## §6 Taking tokens -/

/-- Whether the first token of the queue may still turn out to be a key. -/
def headPending (s : Scanner) : Bool :=
  s.keys.any fun k => k.any (·.number == s.taken)

/-- Reads tokens until the first one of the queue is settled. -/
def settle : Nat → Scanner → Except Failure Scanner
  | 0, s => .ok s
  | fuel + 1, s =>
    if s.queue.isEmpty then do
      let s ← s.readToken
      settle fuel s
    else do
      let s ← s.dropStaleKeys
      if s.headPending then do
        let s ← s.readToken
        settle fuel s
      else return s

/-- The next token, which stays in the queue. -/
def peek (s : Scanner) : Except Failure (Token × Scanner) := do
  let s ← settle (s.size + 3) s
  match s.queue with
  | t :: _ => return (t, s)
  | [] => return (⟨.streamEnd, s.cursor.mark, s.cursor.mark⟩, s)

/-- Takes the next token off the queue. -/
def advance (s : Scanner) : Scanner :=
  { s with queue := s.queue.drop 1, taken := s.taken + 1 }

end Scanner

end QueryPlayground.Yaml
