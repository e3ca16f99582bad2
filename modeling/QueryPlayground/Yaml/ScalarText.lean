import QueryPlayground.Yaml.Cursor

/-!
# Scalars as they are written

The three ways to write a scalar: in a block, in quotes, and plain. Each function starts at the first
character of the scalar, answers with its content and the cursor behind it, and takes as fuel a bound
on the length of the text.

A line break inside a scalar is folded: alone it becomes a space, and of several the first one
vanishes.
-/

namespace QueryPlayground.Yaml

/-! ## §1 Line breaks that are waiting -/

/-- Space that was read but is not content yet: blanks within a line, or line breaks. -/
structure Gap where
  /-- Whether a line break was read. -/
  broken : Bool
  /-- The blanks within the line, in reverse. -/
  blanks : List Char
  /-- The first line break. -/
  first : List Char
  /-- The line breaks after it, in reverse. -/
  more : List Char
  deriving Repr, Inhabited

namespace Gap

def none : Gap :=
  ⟨false, [], [], []⟩

/-- The content that a gap stands for, in reverse. -/
def content (g : Gap) : List Char :=
  if g.broken then
    if g.first == ['\n'] then (if g.more.isEmpty then [' '] else g.more)
    else g.more ++ g.first
  else g.blanks

def addBreak (g : Gap) (content : List Char) : Gap :=
  if g.broken then { g with more := content ++ g.more }
  else { g with broken := true, blanks := [], first := content }

/-- A gap with one blank more, which counts only within the first line. -/
def addBlank (g : Gap) (c : Char) : Gap :=
  if g.broken then g else { g with blanks := c :: g.blanks }

end Gap

/-! ## §2 Block scalars -/

/-- How a block scalar treats the line breaks at its end. -/
inductive Chomping where
  /-- All are dropped. -/
  | strip
  /-- The first one is kept. -/
  | clip
  /-- All are kept. -/
  | keep
  deriving DecidableEq, Repr

/-- What stands behind the indicator of a block scalar. -/
structure BlockHeader where
  /-- The treatment of the line breaks at the end. -/
  chomping : Chomping
  /-- The indentation, or zero where it is not given. -/
  increment : Nat

def chompingIndicator? (cs : List Char) : Option Chomping :=
  match cs with
  | '+' :: _ => some .keep
  | '-' :: _ => some .strip
  | _ => none

/-- Reads an indentation indicator, which may not be zero. -/
def indentIndicator (start : Mark) (c : Cursor) : Except Failure (Nat × Cursor) :=
  match c.rest with
  | d :: _ =>
    if d = '0' then .error (.within .blockScalar start .zeroIndent c.mark)
    else if d.isDigit then .ok (d.toNat - 48, c.skip 1)
    else .ok (0, c)
  | [] => .ok (0, c)

/-- Reads the header of a block scalar, in which the two indicators come in either order. -/
def blockHeader (start : Mark) (c : Cursor) : Except Failure (BlockHeader × Cursor) :=
  match chompingIndicator? c.rest with
  | some chomping => do
    let (increment, c) ← indentIndicator start (c.skip 1)
    return (⟨chomping, increment⟩, c)
  | none => do
    let (increment, c) ← indentIndicator start c
    if increment = 0 then return (⟨.clip, 0⟩, c)
    else
      match chompingIndicator? c.rest with
      | some chomping => return (⟨chomping, increment⟩, c.skip 1)
      | none => return (⟨.clip, increment⟩, c)

/-- Passes over indentation and empty lines, up to a text's indentation or, where that is not known
yet (zero), up to the first character that is no space. Answers with the line breaks in reverse and
the deepest indentation met. -/
def blockBreaks (start : Mark) (indent : Nat) :
    Nat → Nat → List Char → Cursor → Except Failure (Nat × List Char × Cursor)
  | 0, deepest, breaks, c => .ok (deepest, breaks, c)
  | fuel + 1, deepest, breaks, c =>
    let spaces := (c.taken (· = ' ')).length
    let c := c.skip (if indent = 0 then spaces else min spaces (indent - c.column))
    let deepest := max deepest c.column
    if (indent = 0 || c.column < indent) && startsWith '\t' c.rest then
      .error (.within .blockScalar start .tabInIndent c.mark)
    else if c.rest.isEmpty || !atBreakOrEnd c.rest then .ok (deepest, breaks, c)
    else blockBreaks start indent fuel deepest (c.breakContent ++ breaks) c.skipBreak

/-- Reads the lines of a block scalar: the content so far, the line break before this line and those
that follow it are in reverse, and so is the answer. -/
def blockLines (start : Mark) (literal : Bool) (indent size : Nat) :
    Nat → List Char → List Char → List Char → Bool → Cursor →
      Except Failure (List Char × List Char × List Char × Cursor)
  | 0, content, lead, trail, _, c => .ok (content, lead, trail, c)
  | fuel + 1, content, lead, trail, leadBlank, c =>
    if c.column == indent && !c.rest.isEmpty then
      let blank := match c.rest with
        | d :: _ => isBlankChar d
        | [] => false
      let joint :=
        if !literal && lead == ['\n'] && !leadBlank && !blank then
          (if trail.isEmpty then [' '] else trail)
        else trail ++ lead
      let line := c.taken (!isBreakChar ·)
      let content := line.reverse ++ joint ++ content
      let c := c.skip line.length
      match blockBreaks start indent size 0 [] c.skipBreak with
      | .error f => .error f
      | .ok (_, trail, after) =>
        blockLines start literal indent size fuel content c.breakContent trail blank after
    else .ok (content, lead, trail, c)

/-- Reads a block scalar inside a collection of the given indentation, `-1` at the top. -/
def blockScalar (size : Nat) (literal : Bool) (parent : Int) (c : Cursor) :
    Except Failure (List Char × Cursor) := do
  let start := c.mark
  let (header, c) ← blockHeader start (c.skip 1)
  let c := (c.skipWhile isBlankChar).skipComment
  if !atBreakOrEnd c.rest then .error (.within .blockScalar start .expectedLineEnd c.mark)
  else do
    let c := c.skipBreak
    let given := if header.increment = 0 then 0 else ((max parent 0) + header.increment).toNat
    let (deepest, breaks, c) ← blockBreaks start given size 0 [] c
    let indent := if given = 0 then max deepest (max (parent + 1) 1).toNat else given
    let (content, lead, trail, c) ← blockLines start literal indent size size [] [] breaks false c
    let tail :=
      match header.chomping with
      | .strip => []
      | .clip => lead
      | .keep => trail ++ lead
    return ((tail ++ content).reverse, c)

/-! ## §3 Quoted scalars -/

/-- What follows the backslash of an escape: a character, or a number of hexadecimal digits. -/
inductive Escape where
  | char (c : Char)
  | digits (count : Nat)

def escapeOf? (c : Char) : Option Escape :=
  match c with
  | '0' => some (.char (Char.ofNat 0))
  | 'a' => some (.char '\x07')
  | 'b' => some (.char '\x08')
  | 't' => some (.char '\t')
  | '\t' => some (.char '\t')
  | 'n' => some (.char '\n')
  | 'v' => some (.char '\x0b')
  | 'f' => some (.char '\x0c')
  | 'r' => some (.char '\r')
  | 'e' => some (.char '\x1b')
  | ' ' => some (.char ' ')
  | '"' => some (.char '"')
  | '/' => some (.char '/')
  | '\\' => some (.char '\\')
  | 'N' => some (.char (Char.ofNat 0x85))
  | '_' => some (.char (Char.ofNat 0xA0))
  | 'L' => some (.char (Char.ofNat 0x2028))
  | 'P' => some (.char (Char.ofNat 0x2029))
  | 'x' => some (.digits 2)
  | 'u' => some (.digits 4)
  | 'U' => some (.digits 8)
  | _ => none

/-- Reads an escape, whose backslash is next. -/
def quotedEscape (start : Mark) (c : Cursor) : Except Failure (Char × Cursor) :=
  match (c.rest.drop 1).head?.bind escapeOf? with
  | none => .error (.within .quotedValue start .unknownEscape c.mark)
  | some (.char d) => .ok (d, c.skip 2)
  | some (.digits count) =>
    let c := c.skip 2
    let digits := c.rest.take count
    if digits.length < count || !digits.all isHexChar then
      .error (.within .quotedValue start .expectedHexDigits c.mark)
    else
      let n := digits.foldl (fun n d => n * 16 + hexCharValue d) 0
      if (0xD800 ≤ n && n ≤ 0xDFFF) || 0x10FFFF < n then
        .error (.within .quotedValue start .badEscapeCode c.mark)
      else .ok (Char.ofNat n, c.skip count)

/-- Passes over blanks and line breaks. -/
def gapFrom : Nat → Gap → Cursor → Gap × Cursor
  | 0, g, c => (g, c)
  | fuel + 1, g, c =>
    match c.rest with
    | [] => (g, c)
    | d :: _ =>
      if isBlankChar d then gapFrom fuel (g.addBlank d) (c.skip 1)
      else if isBreakChar d then gapFrom fuel (g.addBreak c.breakContent) c.skipBreak
      else (g, c)

/-- Reads the characters of a quoted scalar up to a blank, a line break, the end of the text or the
closing quote. Answers with the content so far, in reverse, and whether an escaped line break ended
the run. -/
def quotedRun (start : Mark) (quote : Char) :
    Nat → List Char → Cursor → Except Failure (List Char × Bool × Cursor)
  | 0, content, c => .ok (content, false, c)
  | fuel + 1, content, c =>
    if atBlankOrEnd c.rest then .ok (content, false, c)
    else
      match c.rest with
      | [] => .ok (content, false, c)
      | d :: rest =>
        if quote = '\'' && d = '\'' && startsWith '\'' rest then
          quotedRun start quote fuel ('\'' :: content) (c.skip 2)
        else if d = quote then .ok (content, false, c)
        else if quote = '"' && d = '\\' then
          if !rest.isEmpty && atBreakOrEnd rest then .ok (content, true, (c.skip 1).skipBreak)
          else
            match quotedEscape start c with
            | .error f => .error f
            | .ok (e, c) => quotedRun start quote fuel (e :: content) c
        else quotedRun start quote fuel (d :: content) (c.skip 1)

/-- Reads a quoted scalar up to and with its closing quote. -/
def quotedLines (start : Mark) (quote : Char) (size : Nat) :
    Nat → List Char → Cursor → Except Failure (List Char × Cursor)
  | 0, content, c => .ok (content, c)
  | fuel + 1, content, c =>
    if c.atDocumentIndicator then .error (.within .quotedScalar start .documentIndicator c.mark)
    else if c.rest.isEmpty then .error (.within .quotedScalar start .endOfStream c.mark)
    else
      match quotedRun start quote size content c with
      | .error f => .error f
      | .ok (content, broken, c) =>
        if startsWith quote c.rest then .ok (content, c.skip 1)
        else
          let (gap, c) := gapFrom size ⟨broken, [], [], []⟩ c
          quotedLines start quote size fuel (gap.content ++ content) c

/-- Reads a quoted scalar, whose opening quote is next. -/
def quotedScalar (size : Nat) (quote : Char) (c : Cursor) : Except Failure (List Char × Cursor) := do
  let (content, after) ← quotedLines c.mark quote size (size + 1) [] (c.skip 1)
  return (content.reverse, after)

/-! ## §4 Plain scalars -/

/-- The characters that end a plain scalar inside a flow collection. -/
def isFlowIndicator (c : Char) : Bool :=
  c = ',' || c = '[' || c = ']' || c = '\x7b' || c = '\x7d'

/-- Whether a plain scalar ends before this text. -/
def endsPlain (flow : Bool) (cs : List Char) : Bool :=
  match cs with
  | [] => true
  | c :: rest => (c = ':' && atBlankOrEnd rest) || (flow && isFlowIndicator c)

/-- Whether a colon stands before an indicator that it may not stand before in a flow collection. -/
def colonBeforeIndicator (cs : List Char) : Bool :=
  match cs with
  | ':' :: d :: _ => isFlowIndicator d || d = '?'
  | _ => false

/-- Reads the characters of a plain scalar up to a blank, a line break or its end: the content so
far is in reverse. -/
def plainRun (start : Mark) (flow : Bool) :
    Nat → List Char → Gap → Cursor → Except Failure (List Char × Gap × Cursor)
  | 0, content, gap, c => .ok (content, gap, c)
  | fuel + 1, content, gap, c =>
    if atBlankOrEnd c.rest then .ok (content, gap, c)
    else if flow && colonBeforeIndicator c.rest then
      .error (.within .plainScalar start .unexpectedColon c.mark)
    else if endsPlain flow c.rest then .ok (content, gap, c)
    else
      match c.rest with
      | [] => .ok (content, gap, c)
      | d :: _ => plainRun start flow fuel (d :: (gap.content ++ content)) .none (c.skip 1)

/-- Passes over blanks and line breaks between the words of a plain scalar; a tab may not indent a
continued line. -/
def plainGap (start : Mark) (indent : Int) : Nat → Gap → Cursor → Except Failure (Gap × Cursor)
  | 0, g, c => .ok (g, c)
  | fuel + 1, g, c =>
    match c.rest with
    | [] => .ok (g, c)
    | d :: _ =>
      if isBlankChar d then
        if g.broken && c.column < indent && d = '\t' then
          .error (.within .plainScalar start .tabBeforePlain c.mark)
        else plainGap start indent fuel (g.addBlank d) (c.skip 1)
      else if isBreakChar d then plainGap start indent fuel (g.addBreak c.breakContent) c.skipBreak
      else .ok (g, c)

/-- Reads the words of a plain scalar. Answers with the content in reverse and whether a line break
came after it. -/
def plainWords (start : Mark) (flow : Bool) (indent : Int) (size : Nat) :
    Nat → List Char → Gap → Cursor → Except Failure (List Char × Bool × Cursor)
  | 0, content, gap, c => .ok (content, gap.broken, c)
  | fuel + 1, content, gap, c =>
    if c.atDocumentIndicator || startsWith '#' c.rest then .ok (content, gap.broken, c)
    else
      match plainRun start flow size content gap c with
      | .error f => .error f
      | .ok (content, gap, c) =>
        if c.rest.isEmpty || !atBlankOrEnd c.rest then .ok (content, gap.broken, c)
        else
          match plainGap start indent size gap c with
          | .error f => .error f
          | .ok (gap, c) =>
            if !flow && c.column < indent then .ok (content, gap.broken, c)
            else plainWords start flow indent size fuel content gap c

/-- Reads a plain scalar inside a collection of the given indentation. The answer says also whether a
line break came after it. -/
def plainScalar (size : Nat) (flow : Bool) (parent : Int) (c : Cursor) :
    Except Failure (List Char × Bool × Cursor) := do
  let (content, broken, after) ← plainWords c.mark flow (parent + 1) size (size + 1) [] .none c
  return (content.reverse, broken, after)

end QueryPlayground.Yaml
