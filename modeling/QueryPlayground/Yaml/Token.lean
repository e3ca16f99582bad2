import QueryPlayground.Yaml.ScalarText
import QueryPlayground.Text.Utf8

/-!
# Tokens of YAML text

The tokens with their marks, and the tokens that are read from their own characters alone:
directives, anchors, aliases and tags. A tag is kept as bytes, because its escapes may spell any.
-/

namespace QueryPlayground.Yaml

/-! ## §1 Tokens -/

inductive ScalarStyle where
  /-- Without quotes. -/
  | plain
  /-- In quotes or in a block. -/
  | marked
  deriving DecidableEq, Repr

/-- The kind of a token, with what it carries. -/
inductive TokenKind where
  | streamEnd
  /-- The version of a `%YAML` line. -/
  | version (major minor : Nat)
  /-- The handle and the bytes of a `%TAG` line. -/
  | tagHandle (handle : List Char) (bytes : List Nat)
  /-- The indicator `---`. -/
  | documentStart
  /-- The indicator `...`. -/
  | documentEnd
  | blockSequenceStart
  | blockMappingStart
  | blockEnd
  /-- The opening bracket. -/
  | flowSequenceStart
  /-- The closing bracket. -/
  | flowSequenceEnd
  /-- The opening brace. -/
  | flowMappingStart
  /-- The closing brace. -/
  | flowMappingEnd
  /-- The dash of an item. -/
  | blockEntry
  /-- The comma. -/
  | flowEntry
  /-- A key comes next. -/
  | key
  /-- A value comes next. -/
  | value
  /-- A reference to an anchor. -/
  | alias (name : List Char)
  /-- The name of the node that comes next. -/
  | anchor (name : List Char)
  /-- The tag of the node that comes next. -/
  | tag (handle : List Char) (suffix : List Nat)
  | scalar (content : List Char) (style : ScalarStyle)
  deriving DecidableEq, Repr

/-- A token between two marks. -/
structure Token where
  kind : TokenKind
  start : Mark
  stop : Mark
  deriving Repr

/-! ## §2 Tags -/

/-- What is read: a tag of a node, or a tag directive. -/
inductive TagPlace where
  | node
  | directive
  deriving DecidableEq, Repr

/-- The context of a problem with a tag's handle. -/
def TagPlace.handleContext : TagPlace → Context
  | node => .tag
  | directive => .directive

/-- The context of a problem with a tag's text. -/
def TagPlace.textContext : TagPlace → Context
  | node => .tagValue
  | directive => .tagDirectiveValue

/-- Reads the handle of a tag: an exclamation mark, a word, and often another exclamation mark,
without which a directive takes only the single mark. -/
def tagHandle (place : TagPlace) (start : Mark) (c : Cursor) :
    Except Failure (List Char × Cursor) :=
  if !startsWith '!' c.rest then
    .error (.within place.handleContext start .expectedTagMark c.mark)
  else
    let name := (c.skip 1).taken isWordChar
    let after := c.skip (1 + name.length)
    if startsWith '!' after.rest then .ok ('!' :: (name ++ ['!']), after.skip 1)
    else if place = .directive && !name.isEmpty then
      .error (.within .directiveValue start .expectedTagMark after.mark)
    else .ok ('!' :: name, after)

/-- The punctuation that may stand in the text of a tag. -/
def isUriChar (verbatim : Bool) (c : Char) : Bool :=
  isWordChar c || [';', '/', '?', ':', '@', '&', '=', '+', '$', '.', '%', '!', '~', '*', '\'',
    '(', ')'].contains c || (verbatim && [',', '[', ']'].contains c)

/-- The number of bytes of a character by its leading byte. -/
def octetWidth (n : Nat) : Nat :=
  if n < 0x80 then 1
  else if n / 32 = 6 then 2
  else if n / 16 = 14 then 3
  else if n / 8 = 30 then 4
  else 0

/-- Reads one escaped octet. -/
def uriOctet (place : TagPlace) (start : Mark) (c : Cursor) : Except Failure (Nat × Cursor) :=
  match c.rest with
  | '%' :: a :: b :: _ =>
    if isHexChar a && isHexChar b then .ok (hexCharValue a * 16 + hexCharValue b, c.skip 3)
    else .error (.within place.textContext start .expectedUriOctet c.mark)
  | _ => .error (.within place.textContext start .expectedUriOctet c.mark)

/-- Reads the octets that continue a character, behind those read so far in reverse. -/
def uriTrail (place : TagPlace) (start : Mark) :
    Nat → List Nat → Cursor → Except Failure (List Nat × Cursor)
  | 0, done, c => .ok (done, c)
  | count + 1, done, c =>
    match uriOctet place start c with
    | .error f => .error f
    | .ok (n, after) =>
      if n / 64 = 2 then uriTrail place start count (n :: done) after
      else .error (.within place.textContext start .badTrailingOctet c.mark)

/-- Reads the octets of one escaped character. -/
def uriEscape (place : TagPlace) (start : Mark) (done : List Nat) (c : Cursor) :
    Except Failure (List Nat × Cursor) :=
  match uriOctet place start c with
  | .error f => .error f
  | .ok (n, after) =>
    match octetWidth n with
    | 0 => .error (.within place.textContext start .badLeadingOctet c.mark)
    | width + 1 => uriTrail place start width (n :: done) after

/-- Reads the text of a tag, behind the bytes read so far in reverse. -/
def tagTextFrom (place : TagPlace) (verbatim : Bool) (start : Mark) :
    Nat → List Nat → Cursor → Except Failure (List Nat × Cursor)
  | 0, done, c => .ok (done, c)
  | fuel + 1, done, c =>
    match c.rest with
    | [] => .ok (done, c)
    | d :: _ =>
      if !isUriChar verbatim d then .ok (done, c)
      else if d = '%' then
        match uriEscape place start done c with
        | .error f => .error f
        | .ok (done, c) => tagTextFrom place verbatim start fuel done c
      else tagTextFrom place verbatim start fuel ((Text.utf8Bytes d).reverse ++ done) (c.skip 1)

/-- Reads the text of a tag that begins with a word already read; together they may not be empty. -/
def tagText (size : Nat) (place : TagPlace) (verbatim : Bool) (head : List Char) (start : Mark)
    (c : Cursor) : Except Failure (List Nat × Cursor) := do
  let (done, after) ← tagTextFrom place verbatim start size [] c
  if head.isEmpty && after.index == c.index then
    .error (.within place.textContext start .expectedTagUri after.mark)
  else return ((head.drop 1).map Char.toNat ++ done.reverse, after)

/-- Reads a tag, whose exclamation mark is next: verbatim in angle brackets, or a handle and a text. -/
def tagToken (size : Nat) (flow : Bool) (c : Cursor) : Except Failure (TokenKind × Cursor) := do
  let start := c.mark
  let (kind, after) ←
    if startsWith '<' (c.rest.drop 1) then do
      let (bytes, after) ← tagText size .node true [] start (c.skip 2)
      if startsWith '>' after.rest then pure (TokenKind.tag [] bytes, after.skip 1)
      else .error (.within .tag start .expectedTagEnd after.mark)
    else do
      let (handle, after) ← tagHandle .node start c
      if 2 ≤ handle.length && handle.getLast? == some '!' then do
        let (bytes, after) ← tagText size .node false [] start after
        pure (TokenKind.tag handle bytes, after)
      else do
        let (bytes, after) ← tagText size .node false handle start after
        if bytes.isEmpty then pure (TokenKind.tag [] ['!'.toNat], after)
        else pure (TokenKind.tag ['!'] bytes, after)
  if (flow && startsWith ',' after.rest) || atBlankOrEnd after.rest then return (kind, after)
  else .error (.within .tag start .expectedBlankOrBreak after.mark)

/-! ## §3 Anchors and aliases -/

/-- The characters that may follow the name of an anchor beside space. -/
def endsAnchor (cs : List Char) : Bool :=
  match cs with
  | [] => true
  | c :: _ => atBlankOrEnd cs || ['?', ':', ',', ']', '\x7d', '%', '@', Char.ofNat 96].contains c

/-- Reads the name behind the mark of an anchor or an alias. -/
def anchorName (context : Context) (c : Cursor) : Except Failure (List Char × Cursor) :=
  let name := (c.skip 1).taken isWordChar
  let after := c.skip (1 + name.length)
  if name.isEmpty || !endsAnchor after.rest then
    .error (.within context c.mark .expectedAnchorName after.mark)
  else .ok (name, after)

/-! ## §4 Directives -/

/-- Reads a version number of at most nine digits. -/
def versionNumber (start : Mark) (c : Cursor) : Except Failure (Nat × Cursor) :=
  let digits := c.taken Char.isDigit
  if 9 < digits.length then
    .error (.within .versionDirective start .longVersion (c.skip 9).mark)
  else if digits.isEmpty then .error (.within .versionDirective start .missingVersion c.mark)
  else .ok (digits.foldl (fun n d => n * 10 + (d.toNat - 48)) 0, c.skip digits.length)

/-- Reads the value of a version directive. -/
def versionValue (start : Mark) (c : Cursor) : Except Failure (TokenKind × Cursor) := do
  let (major, c) ← versionNumber start (c.skipWhile isBlankChar)
  if !startsWith '.' c.rest then
    .error (.within .versionDirective start .expectedVersionPoint c.mark)
  else do
    let (minor, c) ← versionNumber start (c.skip 1)
    return (.version major minor, c)

/-- Reads the value of a tag directive. -/
def tagHandleValue (size : Nat) (start : Mark) (c : Cursor) :
    Except Failure (TokenKind × Cursor) := do
  let (handle, c) ← tagHandle .directive start (c.skipWhile isBlankChar)
  match c.rest with
  | d :: _ =>
    if !isBlankChar d then .error (.within .tagDirective start .expectedBlank c.mark)
    else do
      let (bytes, c) ← tagText size .directive true [] start (c.skipWhile isBlankChar)
      if !atBlankOrEnd c.rest then
        .error (.within .tagDirective start .expectedBlankOrBreak c.mark)
      else return (.tagHandle handle bytes, c)
  | [] => .error (.within .tagDirective start .expectedBlank c.mark)

/-- Reads a directive, whose percent sign is next, with the rest of its line. -/
def directiveToken (size : Nat) (c : Cursor) : Except Failure (Token × Cursor) := do
  let start := c.mark
  let name := (c.skip 1).taken isWordChar
  let after := c.skip (1 + name.length)
  if name.isEmpty then .error (.within .directive start .missingDirectiveName after.mark)
  else if !atBlankOrEnd after.rest then
    .error (.within .directive start .badDirectiveName after.mark)
  else do
    let (kind, c) ←
      if name = ['Y', 'A', 'M', 'L'] then versionValue start after
      else if name = ['T', 'A', 'G'] then tagHandleValue size start after
      else .error (.within .directive start .unknownDirective after.mark)
    let line := (c.skipWhile isBlankChar).skipComment
    if !atBreakOrEnd line.rest then .error (.within .directive start .expectedLineEnd line.mark)
    else return (⟨kind, start, c.mark⟩, line.skipBreak)

end QueryPlayground.Yaml
