import QueryPlayground.Yaml.Event
import QueryPlayground.Yaml.Scalar

/-!
# The value of a YAML text

The events of a text's only document become a JSON value. Anchors are numbered as they come, and an
alias stands for the node that ends up with its number. Every alias that is followed is counted, and
a text whose aliases repeat too much is refused, as is one whose collections nest too deep, one whose
keys are no scalars, and one with a tag of its own.
-/

namespace QueryPlayground.Yaml

open QueryPlayground.Json (Value)

/-! ## §1 Refusals -/

/-- A step from a value to one inside it. -/
inductive PathStep where
  | item (index : Nat)
  | key (name : String)
  /-- The value of a key that is not written out. -/
  | unknown
  deriving Repr

/-- The text of a path, whose last step comes first. -/
def pathText : List PathStep → String
  | [] => "."
  | .item index :: outer => pathText outer ++ "[" ++ toString index ++ "]"
  | .key name :: outer => (if outer.isEmpty then "" else pathText outer ++ ".") ++ name
  | .unknown :: outer => (if outer.isEmpty then "" else pathText outer ++ ".") ++ "?"

/-- Why a text has no value. -/
inductive Refusal where
  | malformed (f : Failure)
  /-- The text ends where a value is due. -/
  | endOfStream
  | secondDocument
  /-- An alias refers to nothing. -/
  | unknownAnchor (m : Mark)
  /-- Collections nest too deep. -/
  | tooDeep (m : Mark)
  /-- Aliases repeat too much. -/
  | tooManyAliases
  /-- The node at a path has no JSON value. -/
  | unsuited (reason : String) (m : Mark) (path : List PathStep)

def Refusal.describe : Refusal → String
  | malformed f => f.describe
  | endOfStream => "EOF while parsing a value"
  | secondDocument =>
    "deserializing from YAML containing more than one document is not supported"
  | unknownAnchor m => "unknown anchor" ++ m.describe
  | tooDeep m => "recursion limit exceeded" ++ m.describe
  | tooManyAliases => "repetition limit exceeded"
  | unsuited reason m path =>
    (if path.isEmpty then "" else pathText path ++ ": ") ++ reason ++ m.describe

/-! ## §2 The first document -/

/-- An event of a document: the aliases are numbers of anchors. -/
inductive NodeEvent where
  /-- There is no node at all. -/
  | void
  /-- The node of an anchor. -/
  | alias (anchor : Nat)
  | scalar (tag : Option (List Nat)) (content : String) (style : ScalarStyle)
  | sequenceStart (tag : Option (List Nat))
  | sequenceEnd
  | mappingStart (tag : Option (List Nat))
  | mappingEnd
  deriving Inhabited

/-- A document while it is collected. -/
structure Collected where
  events : Array (NodeEvent × Mark)
  /-- The numbers of the names of anchors; the latest number of a name comes first. -/
  names : List (List Char × Nat)
  /-- The events of the anchors' nodes; the latest one of a number comes first. -/
  targets : List (Nat × Nat)

namespace Collected

def empty : Collected :=
  ⟨#[], [], []⟩

/-- Adds an event without an anchor. -/
def add (d : Collected) (e : NodeEvent) (m : Mark) : Collected :=
  { d with events := d.events.push (e, m) }

/-- The number of different names. -/
def nameCount (d : Collected) : Nat :=
  (d.names.map (·.1)).eraseDups.length

def addNode (d : Collected) (anchor : Option (List Char)) (e : NodeEvent) (m : Mark) : Collected :=
  match anchor with
  | none => d.add e m
  | some name =>
    let number := d.nameCount
    { d with names := (name, number) :: d.names, targets := (number, d.events.size) :: d.targets }.add
      e m

end Collected

/-- Collects the events of the first document. Answers with them, with the problem that cut it
short, and with whether something comes after it. -/
def collect (failure : Option Failure) :
    List Event → Collected → Collected × Option Refusal × Bool
  | [], d => (d, failure.map .malformed, false)
  | e :: es, d =>
    match e.kind with
    | .streamEnd => (if d.events.isEmpty then d.add .void e.mark else d, none, false)
    | .documentStart => collect failure es d
    | .documentEnd =>
      let more := match es with
        | [e] => match e.kind with
          | .streamEnd => false
          | _ => true
        | _ => true
      (d, none, more)
    | .alias name =>
      match d.names.lookup name with
      | some number => collect failure es (d.add (.alias number) e.mark)
      | none => (d, some (.unknownAnchor e.mark), false)
    | .scalar p content style =>
      collect failure es (d.addNode p.anchor (.scalar p.tag (String.ofList content) style) e.mark)
    | .sequenceStart p => collect failure es (d.addNode p.anchor (.sequenceStart p.tag) e.mark)
    | .sequenceEnd => collect failure es (d.add .sequenceEnd e.mark)
    | .mappingStart p => collect failure es (d.addNode p.anchor (.mappingStart p.tag) e.mark)
    | .mappingEnd => collect failure es (d.add .mappingEnd e.mark)

/-! ## §3 Values -/

/-- A document ready to be read. -/
structure Source where
  events : Array (NodeEvent × Mark)
  /-- The events of the anchors' nodes. -/
  targets : List (Nat × Nat)
  /-- What is wrong behind the last event. -/
  failure : Refusal

namespace Source

/-- How deep collections may nest. -/
def maxDepth : Nat := 128

/-- How many aliases may be followed. -/
def maxJumps (s : Source) : Nat :=
  s.events.size * 100

def at? (s : Source) (pos : Nat) : Except Refusal (NodeEvent × Mark) :=
  match s.events[pos]? with
  | some e => .ok e
  | none => .error s.failure

/-- Follows an alias: the place of the node and the number of aliases followed. -/
def jump (s : Source) (anchor jumps : Nat) : Except Refusal (Nat × Nat) :=
  if s.maxJumps < jumps + 1 then .error .tooManyAliases
  else .ok ((s.targets.lookup anchor).getD 0, jumps + 1)

/-- Whether a tag is one that the text made up. -/
def isLocal (tag : Option (List Nat)) : Bool :=
  match tag with
  | some (b :: rest) =>
    b == '!'.toNat && (Text.utf8Decode? (if rest.isEmpty then [b] else rest)).isSome
  | _ => false

/-- The reason against a tag of its own. -/
def localTagReason : String := "invalid type: enum, expected any valid JSON value"

def scalarValue (tag : Option (List Nat)) (content : String) (style : ScalarStyle) :
    Except String Value :=
  match tag, style with
  | none, .plain => resolvePlain content
  | none, .marked => .ok (.str content)
  | some bytes, style =>
    match ScalarTag.ofBytes? bytes with
    | some t => resolveTagged t content
    | none =>
      if bytes.head? == some '!'.toNat && style == .plain then resolvePlain content
      else .ok (.str content)

/-- Reads a key at a place, where the wording of a refusal says what is expected. Answers with the
key and the number of aliases followed. -/
def key (s : Source) (expected : String) (path : List PathStep) :
    Nat → Nat → Nat → Except Refusal (String × Nat)
  | 0, _, _ => .error .tooManyAliases
  | fuel + 1, pos, jumps => do
    let (e, m) ← s.at? pos
    match e with
    | .scalar _ content _ => return (content, jumps)
    | .alias anchor => do
      let (pos, jumps) ← s.jump anchor jumps
      key s expected path fuel pos jumps
    | .sequenceStart _ =>
      throw (.unsuited ("invalid type: sequence, expected " ++ expected) m path)
    | .mappingStart _ => throw (.unsuited ("invalid type: map, expected " ++ expected) m path)
    | _ => throw .endOfStream

/-- The step to the value of a key whose event is at a place. -/
def keyStep (s : Source) (pos : Nat) : PathStep :=
  match s.events[pos]? with
  | some (.scalar _ content _, _) => .key content
  | _ => .unknown

mutual

/-- Reads the node at a place. Answers with its value, the place behind it and the number of aliases
followed. -/
def value (s : Source) :
    Nat → Nat → List PathStep → Nat → Nat → Except Refusal (Value × Nat × Nat)
  | 0, _, _, _, _ => .error .tooManyAliases
  | fuel + 1, depth, path, pos, jumps => do
    let (e, m) ← s.at? pos
    match e with
    | .void => return (.null, pos + 1, jumps)
    | .alias anchor => do
      let (target, jumps) ← s.jump anchor jumps
      let (v, _, jumps) ← value s fuel depth path target jumps
      return (v, pos + 1, jumps)
    | .scalar tag content style =>
      if isLocal tag then throw (.unsuited localTagReason m path)
      else
        match scalarValue tag content style with
        | .ok v => return (v, pos + 1, jumps)
        | .error reason => throw (.unsuited reason m path)
    | .sequenceStart tag =>
      if isLocal tag then throw (.unsuited localTagReason m path)
      else
        match depth with
        | 0 => throw (.tooDeep m)
        | depth + 1 => items s fuel depth path [] 0 (pos + 1) jumps
    | .mappingStart tag =>
      if isLocal tag then throw (.unsuited localTagReason m path)
      else
        match depth with
        | 0 => throw (.tooDeep m)
        | depth + 1 => members s fuel depth path true [] (pos + 1) jumps
    | .sequenceEnd | .mappingEnd => throw .endOfStream

/-- Reads the items of a sequence, behind those read so far in reverse, and its end. -/
def items (s : Source) :
    Nat → Nat → List PathStep → List Value → Nat → Nat → Nat → Except Refusal (Value × Nat × Nat)
  | 0, _, _, _, _, _, _ => .error .tooManyAliases
  | fuel + 1, depth, path, done, index, pos, jumps => do
    let (e, _) ← s.at? pos
    match e with
    | .sequenceEnd => return (.arr done.reverse, pos + 1, jumps)
    | _ => do
      let (v, pos, jumps) ← value s fuel depth (.item index :: path) pos jumps
      items s fuel depth path (v :: done) (index + 1) pos jumps

/-- Reads the members of a mapping, beside those read so far, and its end. -/
def members (s : Source) :
    Nat → Nat → List PathStep → Bool → List (String × Value) → Nat → Nat →
      Except Refusal (Value × Nat × Nat)
  | 0, _, _, _, _, _, _ => .error .tooManyAliases
  | fuel + 1, depth, path, first, done, pos, jumps => do
    let (e, _) ← s.at? pos
    match e with
    | .mappingEnd => return (.obj done, pos + 1, jumps)
    | _ => do
      let expected := if first then "a string key" else "a string"
      let (k, jumps) ← key s expected path (s.events.size + 1) pos jumps
      let (v, pos, jumps) ← value s fuel depth (s.keyStep pos :: path) (pos + 1) jumps
      members s fuel depth path false (Json.Members.insert k v done) pos jumps

end

/-- Fuel for reading a document: each alias may repeat all of it. -/
def enough (s : Source) : Nat :=
  (s.maxJumps + 2) * (2 * s.events.size + 2)

end Source

/-! ## §4 Whole texts -/

/-- Reads a text that is one document. -/
def parseChars (text : List Char) : Except Refusal Value := do
  let (events, failure) := events text
  let (d, refusal, more) := collect failure events .empty
  let s : Source := ⟨d.events, d.targets, refusal.getD .endOfStream⟩
  let (v, _, _) ← s.value s.enough Source.maxDepth [] 0 0
  match refusal with
  | some r => throw r
  | none => if more then throw .secondDocument else return v

/-- Reads a text that is one document; a refusal is described in words. -/
def parse (text : String) : Except String Value :=
  (parseChars text.toList).mapError (·.describe)

end QueryPlayground.Yaml
