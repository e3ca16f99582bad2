import QueryPlayground.Yaml.Scanner

/-!
# Events of a YAML text

The structure of a text as a flat list: where documents, sequences and mappings begin and end, the
scalars, and the aliases. A reader walks through the tokens in states; the states of the enclosing
collections wait on a stack. Tokens are looked at one by one, so a text is read up to the first
problem, and `events` answers with the events before it and the problem.
-/

namespace QueryPlayground.Yaml

/-! ## §1 Events -/

/-- What a node carries in front: its anchor and the bytes of its tag. -/
structure Properties where
  /-- The name by which aliases refer to the node. -/
  anchor : Option (List Char)
  tag : Option (List Nat)
  deriving Repr, Inhabited

inductive EventKind where
  | documentStart
  | documentEnd
  | streamEnd
  /-- A node is repeated. -/
  | alias (name : List Char)
  | scalar (p : Properties) (content : List Char) (style : ScalarStyle)
  | sequenceStart (p : Properties)
  | sequenceEnd
  | mappingStart (p : Properties)
  | mappingEnd
  deriving Repr

structure Event where
  kind : EventKind
  mark : Mark
  deriving Repr

/-! ## §2 The reader -/

/-- What is due next. -/
inductive State where
  /-- A document, whose start may be left out. -/
  | documentStart (implicit : Bool)
  /-- The content behind the start of a document. -/
  | documentContent
  | documentEnd
  | blockNode
  /-- An item of a block sequence. -/
  | blockEntry (first : Bool)
  /-- An item of a sequence that is not indented below its key. -/
  | indentlessEntry
  | blockKey (first : Bool)
  | blockValue
  /-- An item of a flow sequence. -/
  | flowEntry (first : Bool)
  /-- The key of a single pair inside a flow sequence. -/
  | pairKey
  | pairValue
  | pairEnd
  | flowKey (first : Bool)
  /-- A value of a flow mapping; after a key without a colon it is empty. -/
  | flowValue (empty : Bool)
  /-- Nothing. -/
  | finished
  deriving DecidableEq, Repr

structure Reader where
  scanner : Scanner
  /-- What is due next. -/
  state : State
  /-- What is due after the open collections. -/
  states : List State
  /-- Where the open collections began. -/
  marks : List Mark
  /-- The declared tag handles with their bytes. -/
  handles : List (List Char × List Nat)

abbrev Step := StateT Reader (Except Failure)

namespace Reader

/-- The handles that are always declared. -/
def defaultHandles : List (List Char × List Nat) :=
  [(['!'], ['!'.toNat]), (['!', '!'], "tag:yaml.org,2002:".toList.map Char.toNat)]

def ofText (text : List Char) : Reader :=
  { scanner := .ofText text, state := .documentStart true, states := [], marks := [], handles := [] }

/-! ## §3 Small steps -/

def peek : Step Token := fun r => do
  let (t, s) ← r.scanner.peek
  return (t, { r with scanner := s })

/-- Takes the next token. -/
def advance : Step Unit :=
  modify fun r => { r with scanner := r.scanner.advance }

/-- Takes the next token and looks at the one behind it. -/
def advancePeek : Step Token := do
  advance
  peek

/-- Says what is due next. -/
def goto (s : State) : Step Unit :=
  modify fun r => { r with state := s }

/-- Says what is due after the node that comes next. -/
def later (s : State) : Step Unit :=
  modify fun r => { r with states := s :: r.states }

/-- Goes back to what is due after this node. -/
def back : Step Unit :=
  modify fun r => { r with state := r.states.head?.getD .finished, states := r.states.drop 1 }

/-- Remembers where a collection began. -/
def openAt (m : Mark) : Step Unit :=
  modify fun r => { r with marks := m :: r.marks }

/-- Forgets the innermost open collection and answers where it began. -/
def closeMark : Step Mark := do
  let r ← get
  set { r with marks := r.marks.drop 1 }
  return r.marks.head?.getD ⟨0, 0⟩

/-- A problem at a token inside the innermost open collection. -/
def failWithin {α : Type} (context : Context) (p : Problem) (t : Token) : Step α := do
  let m ← closeMark
  throw (.within context m p t.start)

def emptyScalar (m : Mark) : Step Event :=
  pure ⟨.scalar ⟨none, none⟩ [] .plain, m⟩

/-! ## §4 Documents -/

def declareHandle (handle : List Char) (bytes : List Nat) (m : Mark) : Step Unit := do
  let r ← get
  if r.handles.any (·.1 == handle) then throw (.bare .duplicateTag m)
  else set { r with handles := r.handles ++ [(handle, bytes)] }

/-- Reads directives; a version may be declared once. -/
def directives : Nat → Bool → Step Token
  | 0, _ => peek
  | fuel + 1, versioned => do
    let t ← peek
    match t.kind with
    | .version major minor =>
      if versioned then throw (.bare .duplicateVersion t.start)
      else if major ≠ 1 || (minor ≠ 1 && minor ≠ 2) then
        throw (.bare .incompatibleVersion t.start)
      else do
        advance
        directives fuel true
    | .tagHandle handle bytes => do
      declareHandle handle bytes t.start
      advance
      directives fuel versioned
    | _ => return t

/-- Reads directives and adds the handles that are always declared. -/
def processDirectives : Step Token := do
  let r ← get
  let t ← directives (r.scanner.size + 1) false
  modify fun r =>
    { r with
      handles := r.handles ++ defaultHandles.filter fun d => !r.handles.any (·.1 == d.1) }
  return t

def skipDocumentEnds : Nat → Step Token
  | 0 => peek
  | fuel + 1 => do
    let t ← peek
    match t.kind with
    | .documentEnd => do
      advance
      skipDocumentEnds fuel
    | _ => return t

/-- Reads the start of a document, or the end of the text. -/
def documentStart (implicit : Bool) : Step Event := do
  let r ← get
  let t ← if implicit then peek else skipDocumentEnds (r.scanner.size + 1)
  let special := match t.kind with
    | .version .. | .tagHandle .. | .documentStart | .streamEnd => true
    | _ => false
  if implicit && !special then do
    let _ ← processDirectives
    later .documentEnd
    goto .blockNode
    return ⟨.documentStart, t.start⟩
  else
    match t.kind with
    | .streamEnd => do
      goto .finished
      advance
      return ⟨.streamEnd, t.start⟩
    | _ => do
      let next ← processDirectives
      match next.kind with
      | .documentStart => do
        later .documentEnd
        goto .documentContent
        advance
        return ⟨.documentStart, t.start⟩
      | _ => throw (.bare .expectedDocumentStart next.start)

/-- Reads the end of a document, which may be left out. -/
def documentEnd : Step Event := do
  let t ← peek
  match t.kind with
  | .documentEnd => advance
  | _ => pure ()
  modify fun r => { r with handles := [] }
  goto (.documentStart false)
  return ⟨.documentEnd, t.start⟩

/-! ## §5 Nodes -/

/-- The tag of a node with its handle replaced by what was declared for it. -/
def resolveTag (start : Mark) (tag : Option (List Char × List Nat × Mark)) :
    Step (Option (List Nat)) := do
  match tag with
  | none => return none
  | some ([], suffix, _) => return some suffix
  | some (handle, suffix, m) => do
    let r ← get
    match r.handles.lookup handle with
    | some bytes => return some (bytes ++ suffix)
    | none => throw (.within .node start .undefinedTag m)

/-- Reads a tag, if one is next. -/
def tag? (t : Token) : Step (Option (List Char × List Nat × Mark) × Token) :=
  match t.kind with
  | .tag handle suffix => do
    let next ← advancePeek
    return (some (handle, suffix, t.start), next)
  | _ => return (none, t)

/-- Reads an anchor, if one is next. -/
def anchor? (t : Token) : Step (Option (List Char) × Token) :=
  match t.kind with
  | .anchor name => do
    let next ← advancePeek
    return (some name, next)
  | _ => return (none, t)

/-- Reads the anchor and the tag in front of a node, in either order. -/
def properties (t : Token) : Step (Properties × Token) := do
  let start := t.start
  let (anchor, t) ← anchor? t
  let (tag, t) ← tag? t
  let (anchor, t) ← if anchor.isSome then pure (anchor, t) else anchor? t
  let tag ← resolveTag start tag
  return (⟨anchor, tag⟩, t)

/-- Reads a node; inside a block mapping a sequence may stand at the column of its key. -/
def node (block indentless : Bool) : Step Event := do
  let t ← peek
  match t.kind with
  | .alias name => do
    back
    advance
    return ⟨.alias name, t.start⟩
  | _ => do
    let start := t.start
    let (p, t) ← properties t
    match t.kind, indentless, block with
    | .blockEntry, true, _ => do
      goto .indentlessEntry
      return ⟨.sequenceStart p, start⟩
    | .scalar content style, _, _ => do
      back
      advance
      let p := if p.tag == some ['!'.toNat] then { p with tag := none } else p
      return ⟨.scalar p content style, start⟩
    | .flowSequenceStart, _, _ => do
      goto (.flowEntry true)
      return ⟨.sequenceStart p, start⟩
    | .flowMappingStart, _, _ => do
      goto (.flowKey true)
      return ⟨.mappingStart p, start⟩
    | .blockSequenceStart, _, true => do
      goto (.blockEntry true)
      return ⟨.sequenceStart p, start⟩
    | .blockMappingStart, _, true => do
      goto (.blockKey true)
      return ⟨.mappingStart p, start⟩
    | _, _, _ =>
      if p.anchor.isSome || p.tag.isSome then do
        back
        return ⟨.scalar p [] .plain, start⟩
      else throw (.within (if block then .blockNode else .flowNode) start .expectedNode t.start)

/-- Reads the content of a document behind its start, which may be empty. -/
def documentContent : Step Event := do
  let t ← peek
  match t.kind with
  | .version .. | .tagHandle .. | .documentStart | .documentEnd | .streamEnd => do
    back
    emptyScalar t.start
  | _ => node true false

/-! ## §6 Block collections -/

/-- Begins a collection: takes its first token and remembers where it was. -/
def enter (first : Bool) : Step Unit := do
  if first then do
    let t ← peek
    openAt t.start
    advance

/-- Ends a collection at a token. -/
def leave (kind : EventKind) (t : Token) : Step Event := do
  back
  let _ ← closeMark
  advance
  return ⟨kind, t.start⟩

/-- Reads an item of a block sequence. -/
def blockEntry (first : Bool) : Step Event := do
  enter first
  let t ← peek
  match t.kind with
  | .blockEntry => do
    let next ← advancePeek
    match next.kind with
    | .blockEntry | .blockEnd => do
      goto (.blockEntry false)
      emptyScalar t.stop
    | _ => do
      later (.blockEntry false)
      node true false
  | .blockEnd => leave .sequenceEnd t
  | _ => failWithin .blockSequence .expectedDash t

/-- Reads an item of a sequence at the column of its key. -/
def indentlessEntry : Step Event := do
  let t ← peek
  match t.kind with
  | .blockEntry => do
    let next ← advancePeek
    match next.kind with
    | .blockEntry | .key | .value | .blockEnd => do
      goto .indentlessEntry
      emptyScalar t.stop
    | _ => do
      later .indentlessEntry
      node true false
  | _ => do
    back
    return ⟨.sequenceEnd, t.start⟩

/-- Reads a node of a block mapping behind its indicator, after which a state is due. -/
def blockMember (t : Token) (after : State) : Step Event := do
  let next ← advancePeek
  match next.kind with
  | .key | .value | .blockEnd => do
    goto after
    emptyScalar t.stop
  | _ => do
    later after
    node true true

/-- Reads a key of a block mapping. -/
def blockKey (first : Bool) : Step Event := do
  enter first
  let t ← peek
  match t.kind with
  | .key => blockMember t .blockValue
  | .blockEnd => leave .mappingEnd t
  | _ => failWithin .blockMapping .expectedKey t

/-- Reads a value of a block mapping. -/
def blockValue : Step Event := do
  let t ← peek
  match t.kind with
  | .value => blockMember t (.blockKey false)
  | _ => do
    goto (.blockKey false)
    emptyScalar t.start

/-! ## §7 Flow collections -/

/-- Reads an item of a flow sequence behind its comma; a key begins a single pair. -/
def flowItem (t : Token) : Step Event :=
  match t.kind with
  | .flowSequenceEnd => leave .sequenceEnd t
  | .key => do
    goto .pairKey
    advance
    return ⟨.mappingStart ⟨none, none⟩, t.start⟩
  | _ => do
    later (.flowEntry false)
    node false false

/-- Reads an item of a flow sequence. -/
def flowEntry (first : Bool) : Step Event := do
  enter first
  let t ← peek
  match t.kind with
  | .flowSequenceEnd => leave .sequenceEnd t
  | _ =>
    if first then flowItem t
    else
      match t.kind with
      | .flowEntry => do
        let next ← advancePeek
        flowItem next
      | _ => failWithin .flowSequence .expectedCommaOrBracket t

/-- Reads the key of a single pair. -/
def pairKey : Step Event := do
  let t ← peek
  match t.kind with
  | .value | .flowEntry | .flowSequenceEnd => do
    advance
    goto .pairValue
    emptyScalar t.stop
  | _ => do
    later .pairValue
    node false false

/-- Reads the value of a single pair. -/
def pairValue : Step Event := do
  let t ← peek
  match t.kind with
  | .value => do
    let next ← advancePeek
    match next.kind with
    | .flowEntry | .flowSequenceEnd => do
      goto .pairEnd
      emptyScalar next.start
    | _ => do
      later .pairEnd
      node false false
  | _ => do
    goto .pairEnd
    emptyScalar t.start

def pairEnd : Step Event := do
  let t ← peek
  goto (.flowEntry false)
  return ⟨.mappingEnd, t.start⟩

/-- Reads a key of a flow mapping behind its comma. -/
def flowMember (t : Token) : Step Event :=
  match t.kind with
  | .flowMappingEnd => leave .mappingEnd t
  | .key => do
    let next ← advancePeek
    match next.kind with
    | .value | .flowEntry | .flowMappingEnd => do
      goto (.flowValue false)
      emptyScalar next.start
    | _ => do
      later (.flowValue false)
      node false false
  | _ => do
    later (.flowValue true)
    node false false

/-- Reads a key of a flow mapping. -/
def flowKey (first : Bool) : Step Event := do
  enter first
  let t ← peek
  match t.kind with
  | .flowMappingEnd => leave .mappingEnd t
  | _ =>
    if first then flowMember t
    else
      match t.kind with
      | .flowEntry => do
        let next ← advancePeek
        flowMember next
      | _ => failWithin .flowMapping .expectedCommaOrBrace t

/-- Reads a value of a flow mapping. -/
def flowValue (empty : Bool) : Step Event := do
  let t ← peek
  if empty then do
    goto (.flowKey false)
    emptyScalar t.start
  else
    match t.kind with
    | .value => do
      let next ← advancePeek
      match next.kind with
      | .flowEntry | .flowMappingEnd => do
        goto (.flowKey false)
        emptyScalar next.start
      | _ => do
        later (.flowKey false)
        node false false
    | _ => do
      goto (.flowKey false)
      emptyScalar t.start

/-! ## §8 All events -/

/-- Reads the next event. -/
def event : Step Event := do
  let r ← get
  match r.state with
  | .documentStart implicit => documentStart implicit
  | .documentContent => documentContent
  | .documentEnd => documentEnd
  | .blockNode => node true false
  | .blockEntry first => blockEntry first
  | .indentlessEntry => indentlessEntry
  | .blockKey first => blockKey first
  | .blockValue => blockValue
  | .flowEntry first => flowEntry first
  | .pairKey => pairKey
  | .pairValue => pairValue
  | .pairEnd => pairEnd
  | .flowKey first => flowKey first
  | .flowValue empty => flowValue empty
  | .finished => do
    let t ← peek
    return ⟨.streamEnd, t.start⟩

/-- Reads events up to the end of the text or the first problem, behind those read so far in
reverse. -/
def eventsFrom : Nat → List Event → Reader → List Event × Option Failure
  | 0, done, _ => (done.reverse, none)
  | fuel + 1, done, r =>
    match event r with
    | .error f => (done.reverse, some f)
    | .ok (e, r) =>
      match e.kind with
      | .streamEnd => ((e :: done).reverse, none)
      | _ => eventsFrom fuel (e :: done) r

end Reader

/-! ## §9 Characters that a text may hold -/

/-- Whether a character may stand in a YAML text. -/
def isAllowed (c : Char) : Bool :=
  let n := c.toNat
  n == 9 || n == 10 || n == 13 || (32 ≤ n && n ≤ 0x7E) || n == 0x85 ||
    (0xA0 ≤ n && n ≤ 0xD7FF) || (0xE000 ≤ n && n ≤ 0xFFFD) || 0x10000 ≤ n

/-- The byte offset of the first character that may not stand in a YAML text. -/
def forbiddenAt? : Nat → List Char → Option Nat
  | _, [] => none
  | offset, c :: cs =>
    if isAllowed c then forbiddenAt? (offset + c.utf8Size) cs else some offset

/-- The events of a text and the problem at which reading ended. -/
def events (text : List Char) : List Event × Option Failure :=
  match forbiddenAt? 0 text with
  | some offset => ([], some (.controlCharacter offset))
  | none => Reader.eventsFrom (6 * text.length + 16) [] (.ofText text)

end QueryPlayground.Yaml
