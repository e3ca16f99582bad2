/-!
# Why YAML text is refused

A failure has a problem and its mark, and often the context in which it was met with the mark where
that began. `describe` is the wording: marks at the very start of the text are left out, and so is
the mark of a context that begins where the problem is.
-/

namespace QueryPlayground.Yaml

/-! ## §1 Marks -/

/-- A place in a text, by line and by column, both counted from zero. -/
structure Mark where
  line : Nat
  /-- The column, in characters. -/
  column : Nat
  deriving DecidableEq, Repr, Inhabited

namespace Mark

/-- Whether this is the very start of the text. -/
def isStart (m : Mark) : Bool :=
  m.line == 0 && m.column == 0

/-- The place as it is written, or nothing at the very start. -/
def describe (m : Mark) : String :=
  if m.isStart then ""
  else " at line " ++ toString (m.line + 1) ++ " column " ++ toString (m.column + 1)

end Mark

/-! ## §2 Problems and contexts -/

/-- What is wrong with the text. -/
inductive Problem where
  /-- A simple key without its colon. -/
  | missingColon
  /-- A dash where no item can stand. -/
  | unexpectedEntry
  /-- A question mark where no key can stand. -/
  | unexpectedKey
  /-- A colon where no value can stand. -/
  | unexpectedValue
  /-- No token starts with this character. -/
  | noToken
  | unknownDirective
  | missingDirectiveName
  /-- A directive name with a strange character. -/
  | badDirectiveName
  /-- Something after the end of a line's content. -/
  | expectedLineEnd
  | expectedVersionPoint
  /-- A version number of too many digits. -/
  | longVersion
  /-- A version number without digits. -/
  | missingVersion
  /-- A blank is due. -/
  | expectedBlank
  /-- A blank or a line break is due. -/
  | expectedBlankOrBreak
  /-- The name of an anchor or alias is due. -/
  | expectedAnchorName
  /-- A verbatim tag does not end. -/
  | expectedTagEnd
  /-- A tag handle does not start or end with its mark. -/
  | expectedTagMark
  /-- A tag is empty. -/
  | expectedTagUri
  /-- A percent sign without two hexadecimal digits. -/
  | expectedUriOctet
  /-- An escaped octet that starts no character. -/
  | badLeadingOctet
  /-- An escaped octet that continues no character. -/
  | badTrailingOctet
  /-- An indentation indicator of zero. -/
  | zeroIndent
  /-- A tab in the indentation of a block scalar. -/
  | tabInIndent
  /-- A document indicator inside a quoted scalar. -/
  | documentIndicator
  /-- The text ends inside a quoted scalar. -/
  | endOfStream
  | unknownEscape
  /-- An escape without enough hexadecimal digits. -/
  | expectedHexDigits
  | badEscapeCode
  /-- A colon before an indicator inside a plain scalar. -/
  | unexpectedColon
  /-- A tab in the indentation of a plain scalar. -/
  | tabBeforePlain
  | expectedDocumentStart
  /-- A second version directive. -/
  | duplicateVersion
  | incompatibleVersion
  /-- A second directive for a tag handle. -/
  | duplicateTag
  /-- A tag handle that was not declared. -/
  | undefinedTag
  | expectedNode
  | expectedDash
  | expectedKey
  /-- A comma or a closing bracket is due. -/
  | expectedCommaOrBracket
  /-- A comma or a closing brace is due. -/
  | expectedCommaOrBrace
  deriving DecidableEq, Repr

def Problem.message : Problem → String
  | missingColon => "could not find expected ':'"
  | unexpectedEntry => "block sequence entries are not allowed in this context"
  | unexpectedKey => "mapping keys are not allowed in this context"
  | unexpectedValue => "mapping values are not allowed in this context"
  | noToken => "found character that cannot start any token"
  | unknownDirective => "found unknown directive name"
  | missingDirectiveName => "could not find expected directive name"
  | badDirectiveName => "found unexpected non-alphabetical character"
  | expectedLineEnd => "did not find expected comment or line break"
  | expectedVersionPoint => "did not find expected digit or '.' character"
  | longVersion => "found extremely long version number"
  | missingVersion => "did not find expected version number"
  | expectedBlank => "did not find expected whitespace"
  | expectedBlankOrBreak => "did not find expected whitespace or line break"
  | expectedAnchorName => "did not find expected alphabetic or numeric character"
  | expectedTagEnd => "did not find the expected '>'"
  | expectedTagMark => "did not find expected '!'"
  | expectedTagUri => "did not find expected tag URI"
  | expectedUriOctet => "did not find URI escaped octet"
  | badLeadingOctet => "found an incorrect leading UTF-8 octet"
  | badTrailingOctet => "found an incorrect trailing UTF-8 octet"
  | zeroIndent => "found an indentation indicator equal to 0"
  | tabInIndent => "found a tab character where an indentation space is expected"
  | documentIndicator => "found unexpected document indicator"
  | endOfStream => "found unexpected end of stream"
  | unknownEscape => "found unknown escape character"
  | expectedHexDigits => "did not find expected hexdecimal number"
  | badEscapeCode => "found invalid Unicode character escape code"
  | unexpectedColon => "found unexpected ':'"
  | tabBeforePlain => "found a tab character that violates indentation"
  | expectedDocumentStart => "did not find expected <document start>"
  | duplicateVersion => "found duplicate %YAML directive"
  | incompatibleVersion => "found incompatible YAML document"
  | duplicateTag => "found duplicate %TAG directive"
  | undefinedTag => "found undefined tag handle"
  | expectedNode => "did not find expected node content"
  | expectedDash => "did not find expected '-' indicator"
  | expectedKey => "did not find expected key"
  | expectedCommaOrBracket => "did not find expected ',' or ']'"
  | expectedCommaOrBrace => "did not find expected ',' or '\x7d'"

/-- What was being read when a problem was met. -/
inductive Context where
  | simpleKey
  | nextToken
  | directive
  | directiveValue
  | versionDirective
  | tagDirective
  | tagDirectiveValue
  | anchor
  | alias
  | tag
  | tagValue
  | blockScalar
  | quotedScalar
  /-- The meaning of a quoted scalar. -/
  | quotedValue
  | plainScalar
  | node
  | blockNode
  | flowNode
  | blockSequence
  | blockMapping
  | flowSequence
  | flowMapping
  deriving DecidableEq, Repr

def Context.message : Context → String
  | simpleKey => "while scanning a simple key"
  | nextToken => "while scanning for the next token"
  | directive => "while scanning a directive"
  | directiveValue => "while parsing a directive"
  | versionDirective => "while scanning a %YAML directive"
  | tagDirective => "while scanning a %TAG directive"
  | tagDirectiveValue => "while parsing a %TAG directive"
  | anchor => "while scanning an anchor"
  | .alias => "while scanning an alias"
  | tag => "while scanning a tag"
  | tagValue => "while parsing a tag"
  | blockScalar => "while scanning a block scalar"
  | quotedScalar => "while scanning a quoted scalar"
  | quotedValue => "while parsing a quoted scalar"
  | plainScalar => "while scanning a plain scalar"
  | node => "while parsing a node"
  | blockNode => "while parsing a block node"
  | flowNode => "while parsing a flow node"
  | blockSequence => "while parsing a block collection"
  | blockMapping => "while parsing a block mapping"
  | flowSequence => "while parsing a flow sequence"
  | flowMapping => "while parsing a flow mapping"

/-! ## §3 Failures -/

/-- Why a text is no YAML. -/
inductive Failure where
  /-- A control character at a byte offset. -/
  | controlCharacter (offset : Nat)
  /-- A problem at a mark, with the context and the mark where that began. -/
  | problem (what : Problem) (at_ : Mark) (context : Option (Context × Mark))
  deriving DecidableEq, Repr

namespace Failure

/-- A problem without a context. -/
def bare (what : Problem) (m : Mark) : Failure :=
  .problem what m none

/-- A problem in a context. -/
def within (context : Context) (start : Mark) (what : Problem) (m : Mark) : Failure :=
  .problem what m (some (context, start))

def describe : Failure → String
  | controlCharacter offset =>
    "control characters are not allowed" ++
      (if offset = 0 then "" else " at position " ++ toString offset)
  | problem what m none => what.message ++ m.describe
  | problem what m (some (context, start)) =>
    what.message ++ m.describe ++ ", " ++ context.message ++
      (if start = m then "" else start.describe)

end Failure

end QueryPlayground.Yaml
