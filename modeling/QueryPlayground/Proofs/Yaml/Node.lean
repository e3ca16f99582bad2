import QueryPlayground.Yaml.Event
import QueryPlayground.Proofs.Yaml.Supply

/-!
# Nodes, their tokens and their events

The part of YAML that the writer uses as trees: scalars in some style, block collections, and flow
collections where they are empty. A sequence that is the value of a key may hang at the column of the
key, and is then not bracketed by tokens of its own. The reader makes the events of a tree out of its
tokens.

Main statements: `emits_of_supplies` and `eventsFrom_of_emits`.
-/

namespace QueryPlayground.Yaml

/-! ## §1 Nodes -/

/-- A key of a mapping. -/
structure Key where
  text : String
  style : ScalarStyle
  /-- Whether a sequence that is its value stands at its column. -/
  hangs : Bool

/-- A node of a text. -/
inductive Node where
  | scalar (content : String) (style : ScalarStyle)
  | seq (items : List Node)
  | map (members : List (Key × Node))

mutual

/-- The tokens of a node. -/
def Node.tokens (hanging : Bool) : Node → List TokenKind
  | .scalar content style => [.scalar content.toList style]
  | .seq [] => [.flowSequenceStart, .flowSequenceEnd]
  | .seq (v :: vs) =>
    if hanging then itemTokens (v :: vs)
    else .blockSequenceStart :: (itemTokens (v :: vs) ++ [.blockEnd])
  | .map [] => [.flowMappingStart, .flowMappingEnd]
  | .map (m :: ms) => .blockMappingStart :: (memberTokens (m :: ms) ++ [.blockEnd])

/-- The tokens of the items of a block sequence. -/
def itemTokens : List Node → List TokenKind
  | [] => []
  | v :: vs => .blockEntry :: (v.tokens false ++ itemTokens vs)

/-- The tokens of the members of a block mapping. -/
def memberTokens : List (Key × Node) → List TokenKind
  | [] => []
  | (k, v) :: ms =>
    .key :: .scalar k.text.toList k.style :: .value :: (v.tokens k.hangs ++ memberTokens ms)

end

mutual

/-- The events of a node. -/
def Node.events : Node → List EventKind
  | .scalar content style => [.scalar ⟨none, none⟩ content.toList style]
  | .seq items => .sequenceStart ⟨none, none⟩ :: (itemEvents items ++ [.sequenceEnd])
  | .map members => .mappingStart ⟨none, none⟩ :: (memberEvents members ++ [.mappingEnd])

/-- The events of the items of a sequence. -/
def itemEvents : List Node → List EventKind
  | [] => []
  | v :: vs => v.events ++ itemEvents vs

/-- The events of the members of a mapping. -/
def memberEvents : List (Key × Node) → List EventKind
  | [] => []
  | (k, v) :: ms => .scalar ⟨none, none⟩ k.text.toList k.style :: (v.events ++ memberEvents ms)

end

/-- The kinds of tokens with which a node begins. -/
def TokenKind.OpensNode : TokenKind → Prop
  | .scalar .. | .flowSequenceStart | .flowMappingStart | .blockSequenceStart | .blockMappingStart => True
  | _ => False

/-- A node begins with a token that says which it is, or, where it hangs, with that of its first item.
-/
theorem Node.exists_head (v : Node) (hanging : Bool) :
    ∃ k ks, v.tokens hanging = k :: ks ∧ (k.OpensNode ∨ hanging = true ∧ k = .blockEntry) := by
  match v, hanging with
  | .scalar .., _ => exact ⟨_, _, rfl, .inl trivial⟩
  | .seq [], _ => exact ⟨_, _, rfl, .inl trivial⟩
  | .seq (_ :: _), false => exact ⟨_, _, rfl, .inl trivial⟩
  | .seq (_ :: _), true => exact ⟨_, _, rfl, .inr ⟨rfl, rfl⟩⟩
  | .map [], _ => exact ⟨_, _, rfl, .inl trivial⟩
  | .map (_ :: _), _ => exact ⟨_, _, rfl, .inl trivial⟩

namespace Reader

/-! ## §2 Runs of the reader -/

/-- Where a step of the reader succeeds, the next one goes on from there. -/
theorem ok_bind {α β : Type} {x : Step α} {f : α → Step β} {r r' : Reader} {a : α}
    (h : x r = .ok (a, r')) : (x >>= f) r = f a r' := by
  show (x r >>= fun p => f p.1 p.2) = _
  rw [h]
  rfl

/-- The next token is looked at, and looked at again. -/
theorem exists_peek {r : Reader} {k : TokenKind} {ks : List TokenKind}
    (h : r.scanner.Supplies (k :: ks)) :
    ∃ a b s, peek r = .ok (⟨k, a, b⟩, { r with scanner := s }) ∧ s.Supplies (k :: ks) ∧
      (∀ r' : Reader, r'.scanner = s → peek r' = .ok (⟨k, a, b⟩, r')) ∧ s.advance.Supplies ks := by
  obtain ⟨⟨_, a, b⟩, s, hpeek, rfl, hagain, hrest⟩ := h
  refine ⟨a, b, s, ?_, ⟨_, s, hagain, rfl, hagain, hrest⟩, ?_, hrest⟩
  · simp [peek, hpeek, bind, Except.bind, pure, Except.pure]
  · rintro r' rfl
    simp [peek, hagain, bind, Except.bind, pure, Except.pure]

/-- What was entered already is not entered again. -/
theorem enter_false (r : Reader) : enter false r = .ok ((), r) := rfl

/-- What the reader does where something is due. -/
def step : State → Step Event
  | .documentStart implicit => documentStart implicit
  | .documentContent => documentContent
  | .documentEnd => documentEnd
  | .blockNode => node true false
  | .blockEntry first => blockEntry first
  | .indentlessEntry => indentlessEntry
  | .blockKey first => blockKey first
  | .blockValue => blockValue
  | .flowEntry first => flowEntry first
  | .pairKey => pairKey
  | .pairValue => pairValue
  | .pairEnd => pairEnd
  | .flowKey first => flowKey first
  | .flowValue empty => flowValue empty
  | .finished => do
    let t ← peek
    return ⟨.streamEnd, t.start⟩

/-- What the reader reads next is what is due. -/
theorem event_eq (r : Reader) : event r = step r.state r := by
  obtain ⟨s, x, xs, ms, hs⟩ := r
  cases x <;> rfl

/-- The reader goes on by reading these events. -/
inductive Emits : Reader → List EventKind → Reader → Prop where
  | nil (r : Reader) : Emits r [] r
  | cons {r r' r'' : Reader} {e : Event} {ks : List EventKind} :
      event r = .ok (e, r') → Emits r' ks r'' → Emits r (e.kind :: ks) r''

/-- Reading goes on with what is read after it. -/
theorem Emits.trans {r r' r'' : Reader} {ks ks' : List EventKind} (h : Emits r ks r')
    (h' : Emits r' ks' r'') : Emits r (ks ++ ks') r'' := by
  induction h with
  | nil => exact h'
  | cons he _ ih => exact .cons he (ih h')

/-- A step reads the first of these events, and the reader goes on by reading the others. -/
def Runs (x : Step Event) (r : Reader) (ks : List EventKind) (r' : Reader) : Prop :=
  ∃ e m es, x r = .ok (e, m) ∧ ks = e.kind :: es ∧ Emits m es r'

/-- Reading begins with what is due. -/
theorem Runs.emits {x : Step Event} {r r' : Reader} {ks : List EventKind} (h : Runs x r ks r')
    (hx : step r.state = x) : Emits r ks r' := by
  obtain ⟨e, m, es, he, rfl, hes⟩ := h
  exact .cons ((event_eq r).trans (hx ▸ he)) hes

/-- What a step and the reading after it read goes on with what is read then. -/
theorem Runs.append {x : Step Event} {r r' r'' : Reader} {ks ks' : List EventKind}
    (h : Runs x r ks r') (h' : Emits r' ks' r'') : Runs x r (ks ++ ks') r'' := by
  obtain ⟨e, m, es, he, rfl, hes⟩ := h
  exact ⟨e, m, es ++ ks', he, rfl, hes.trans h'⟩

/-- Steps that do the same read the same. -/
theorem Runs.of_eq {x y : Step Event} {r m r' : Reader} {ks : List EventKind} (h : Runs y m ks r')
    (hxy : x r = y m) : Runs x r ks r' := by
  obtain ⟨e, m', es, he, hks, hes⟩ := h
  exact ⟨e, m', es, hxy.trans he, hks, hes⟩

/-- The reader behind a node. -/
def resume (r : Reader) (s : Scanner) : Reader :=
  { r with scanner := s, state := r.states.head?.getD .finished, states := r.states.drop 1 }

/-- The reader behind a collection. -/
def closed (r : Reader) (s : Scanner) : Reader :=
  { r.resume s with marks := r.marks.drop 1 }

/-! ## §3 Nodes -/

/-- A scalar is one event, made of one token. -/
theorem node_of_scalar {r : Reader} {content : List Char} {style : ScalarStyle} {ks : List TokenKind}
    (h : r.scanner.Supplies (.scalar content style :: ks)) (indentless : Bool) :
    ∃ s, Runs (node true indentless) r [.scalar ⟨none, none⟩ content style] (r.resume s) ∧
      s.Supplies ks := by
  obtain ⟨a, b, s, hpeek, -, -, hrest⟩ := exists_peek h
  refine ⟨s.advance, ⟨⟨.scalar ⟨none, none⟩ content style, a⟩, _, [], ?_, rfl, .nil _⟩, hrest⟩
  rw [node, ok_bind hpeek]
  rfl

/-- The token with which a collection begins, the event it makes, and what is due inside. -/
inductive Opens : TokenKind → EventKind → State → Prop where
  | flowSequence : Opens .flowSequenceStart (.sequenceStart ⟨none, none⟩) (.flowEntry true)
  | flowMapping : Opens .flowMappingStart (.mappingStart ⟨none, none⟩) (.flowKey true)
  | blockSequence : Opens .blockSequenceStart (.sequenceStart ⟨none, none⟩) (.blockEntry true)
  | blockMapping : Opens .blockMappingStart (.mappingStart ⟨none, none⟩) (.blockKey true)

/-- A collection is opened by a node and entered by the event that follows. -/
theorem exists_enter {r : Reader} {k : TokenKind} {e : EventKind} {x : State} {ks : List TokenKind}
    (ho : Opens k e x) (h : r.scanner.Supplies (k :: ks)) (indentless : Bool) :
    ∃ a m s, node true indentless r = .ok (⟨e, a⟩, m) ∧ m.state = x ∧
      enter true m = .ok ((), { r with scanner := s, state := x, marks := a :: r.marks }) ∧
      s.Supplies ks := by
  obtain ⟨a, b, s, hpeek, -, hagain, hrest⟩ := exists_peek h
  refine ⟨a, { r with scanner := s, state := x }, s.advance, ?_, rfl, ?_, hrest⟩
  · rw [node, ok_bind hpeek]
    cases ho <;> rfl
  · show (peek >>= _) _ = _
    rw [ok_bind (hagain _ rfl)]
    rfl

/-- A collection whose entries are read by a step. -/
theorem runs_of_opens {r : Reader} {k : TokenKind} {e : EventKind} {x : State} {ks after : List TokenKind}
    {es : List EventKind} {entries : Step Event} (ho : Opens k e x) (h : r.scanner.Supplies (k :: ks))
    (indentless : Bool) (hx : step x = (enter true >>= fun _ => entries))
    (hentries : ∀ m : Reader, m.scanner.Supplies ks →
      ∃ s, Runs entries m es (m.closed s) ∧ s.Supplies after) :
    ∃ s, Runs (node true indentless) r (e :: es) (r.resume s) ∧ s.Supplies after := by
  -- The reader opens the collection, enters it, and then reads its entries as if there were no
  -- more.
  obtain ⟨a, m, s, hnode, rfl, henter, hrest⟩ := exists_enter ho h indentless
  obtain ⟨s', hruns, hafter⟩ :=
    hentries { r with scanner := s, state := m.state, marks := a :: r.marks } hrest
  have hm : step m.state m = entries { r with scanner := s, state := m.state, marks := a :: r.marks } := by
    rw [hx, ok_bind henter]
  exact ⟨s', ⟨⟨e, a⟩, m, es, hnode, rfl, (hruns.of_eq hm).emits rfl⟩, hafter⟩

/-- A step that meets the token that ends a collection leaves it. -/
theorem runs_leave {x : Step Event} {r : Reader} {k : TokenKind} {ks : List TokenKind} {e : EventKind}
    (hx : ∀ a b m, peek r = .ok (⟨k, a, b⟩, m) → x r = leave e ⟨k, a, b⟩ m)
    (h : r.scanner.Supplies (k :: ks)) : ∃ s, Runs x r [e] (r.closed s) ∧ s.Supplies ks := by
  -- The token that ends it has been looked at, and is taken away.
  obtain ⟨a, b, s, hpeek, -, -, hrest⟩ := exists_peek h
  refine ⟨s.advance, ⟨⟨e, a⟩, _, [], ?_, rfl, .nil _⟩, hrest⟩
  rw [hx a b _ hpeek]
  rfl

/-- The first item of a flow sequence. -/
def firstItem : Step Event := do
  let t ← peek
  match t.kind with
  | .flowSequenceEnd => leave .sequenceEnd t
  | _ => flowItem t

/-- The first key of a flow mapping. -/
def firstMember : Step Event := do
  let t ← peek
  match t.kind with
  | .flowMappingEnd => leave .mappingEnd t
  | _ => flowMember t

/-- An empty flow sequence has two events. -/
theorem node_of_emptySequence {r : Reader} {ks : List TokenKind} (indentless : Bool)
    (h : r.scanner.Supplies (.flowSequenceStart :: .flowSequenceEnd :: ks)) :
    ∃ s, Runs (node true indentless) r [.sequenceStart ⟨none, none⟩, .sequenceEnd] (r.resume s) ∧
      s.Supplies ks :=
  runs_of_opens .flowSequence h indentless (show _ = (enter true >>= fun _ => firstItem) from rfl)
    fun _ hm => runs_leave (fun _ _ _ h => ok_bind h) hm

/-- An empty flow mapping has two events. -/
theorem node_of_emptyMapping {r : Reader} {ks : List TokenKind} (indentless : Bool)
    (h : r.scanner.Supplies (.flowMappingStart :: .flowMappingEnd :: ks)) :
    ∃ s, Runs (node true indentless) r [.mappingStart ⟨none, none⟩, .mappingEnd] (r.resume s) ∧
      s.Supplies ks :=
  runs_of_opens .flowMapping h indentless (show _ = (enter true >>= fun _ => firstMember) from rfl)
    fun _ hm => runs_leave (fun _ _ _ h => ok_bind h) hm

/-! ## §4 Entries -/

/-- An indicator in front of a node: where it is due, what is due behind the node, and whether the node
may be a sequence that hangs. -/
inductive Leads : State → TokenKind → State → Bool → Prop where
  | item : Leads (.blockEntry false) .blockEntry (.blockEntry false) false
  | hanging : Leads .indentlessEntry .blockEntry .indentlessEntry false
  | key : Leads (.blockKey false) .key .blockValue true
  | value : Leads .blockValue .value (.blockKey false) true

/-- What an indicator leads to is a node, read with what is due behind it remembered. -/
theorem step_of_leads {x y : State} {i k : TokenKind} {indentless : Bool} (hx : Leads x i y indentless)
    (hk : k.OpensNode ∨ i = .value ∧ k = .blockEntry) {r : Reader} {ks : List TokenKind}
    (h : r.scanner.Supplies (i :: k :: ks)) :
    ∃ s, step x r = node true indentless { r with scanner := s, states := y :: r.states } ∧
      s.Supplies (k :: ks) := by
  -- The reader looks at the indicator, advances, and looks at the token behind it.
  obtain ⟨a, b, s, hpeek, -, -, hrest⟩ := exists_peek h
  obtain ⟨c, d, s', hnext, hagain, -, -⟩ := exists_peek (r := { r with scanner := s.advance }) hrest
  have hadvance : advancePeek { r with scanner := s } = .ok (⟨k, c, d⟩, { r with scanner := s' }) := hnext
  refine ⟨s', ?_, hagain⟩
  -- In each of the four places the reader asks whether a node follows. It does, so the other cases
  -- of the token are excluded.
  cases hx with
  | item =>
    have hnode : k.OpensNode := by simpa using hk
    rw [step, blockEntry, ok_bind (enter_false r), ok_bind hpeek]
    show (advancePeek >>= _) _ = _
    rw [ok_bind hadvance]
    cases k <;> first | exact hnode.elim | rfl
  | hanging =>
    have hnode : k.OpensNode := by simpa using hk
    rw [step, indentlessEntry, ok_bind hpeek]
    show (advancePeek >>= _) _ = _
    rw [ok_bind hadvance]
    cases k <;> first | exact hnode.elim | rfl
  | key =>
    have hnode : k.OpensNode := by simpa using hk
    rw [step, blockKey, ok_bind (enter_false r), ok_bind hpeek]
    show (advancePeek >>= _) _ = _
    rw [ok_bind hadvance]
    cases k <;> first | exact hnode.elim | rfl
  | value =>
    rw [step, blockValue, ok_bind hpeek]
    show (advancePeek >>= _) _ = _
    rw [ok_bind hadvance]
    cases k <;> first | rfl | simp [TokenKind.OpensNode] at hk

/-- What may follow a node: where it hangs, no further item of it. -/
def Follows (hanging : Bool) (ks : List TokenKind) : Prop :=
  hanging = true → ∃ k ks', ks = k :: ks' ∧ k ≠ .blockEntry

/-- Where no node hangs anything may follow. -/
theorem follows_false (ks : List TokenKind) : Follows false ks := by
  simp [Follows]

/-- A hanging sequence ends in front of the token that follows it. -/
theorem hanging_ends {r : Reader} {ks : List TokenKind} (hks : Follows true ks)
    (h : r.scanner.Supplies ks) :
    ∃ s, Runs indentlessEntry r [.sequenceEnd] (r.resume s) ∧ s.Supplies ks := by
  obtain ⟨k, ks', rfl, hk⟩ := hks rfl
  obtain ⟨a, b, s, hpeek, hagain, -, -⟩ := exists_peek h
  refine ⟨s, ⟨⟨.sequenceEnd, a⟩, _, [], ?_, rfl, .nil _⟩, hagain⟩
  rw [indentlessEntry, ok_bind hpeek]
  cases k <;> first | exact (hk rfl).elim | rfl

/-- An entry is read once the node behind its indicator is. -/
theorem entry_runs {x y : State} {i : TokenKind} {indentless : Bool} (hx : Leads x i y indentless)
    (hanging : Bool) (hh : hanging = true → i = .value) {v : Node} {r : Reader} {ks : List TokenKind}
    {es : List EventKind} (h : r.scanner.Supplies (i :: (v.tokens hanging ++ ks)))
    (hv : ∀ m : Reader, m.scanner.Supplies (v.tokens hanging ++ ks) →
      ∃ s, Runs (node true indentless) m es (m.resume s) ∧ s.Supplies ks) :
    ∃ s, Runs (step x) r es { r with scanner := s, state := y } ∧ s.Supplies ks := by
  obtain ⟨k, ks', htokens, hk⟩ := v.exists_head hanging
  rw [htokens] at h hv
  obtain ⟨s, hstep, hnode⟩ := step_of_leads hx (hk.imp_right (And.imp_left hh)) h
  obtain ⟨s', hruns, hrest⟩ := hv { r with scanner := s, states := y :: r.states } hnode
  exact ⟨s', hruns.of_eq hstep, hrest⟩

mutual

/-- A node is read event by event, by recursion on the tree. A sequence that hangs is read only where
the reader allows one, and must not be followed by an item. -/
theorem node_runs : (v : Node) → {r : Reader} → {ks : List TokenKind} → (hanging indentless : Bool) →
    (hanging = true → indentless = true) → Follows hanging ks →
    r.scanner.Supplies (v.tokens hanging ++ ks) →
    ∃ s, Runs (node true indentless) r v.events (r.resume s) ∧ s.Supplies ks
  | .scalar .., _, _, _, _, _, _, h => node_of_scalar h _
  | .seq [], _, _, _, _, _, _, h => node_of_emptySequence _ h
  | .seq (v :: vs), r, ks, false, indentless, _, _, h => by
    have h : r.scanner.Supplies (.blockSequenceStart :: (itemTokens (v :: vs) ++ .blockEnd :: ks)) := by
      simpa [Node.tokens] using h
    exact runs_of_opens .blockSequence h indentless
      (show _ = (enter true >>= fun _ => blockEntry false) from rfl) fun _ hm => items_run (v :: vs) hm
  | .seq (v :: vs), r, ks, true, indentless, hi, hks, h => by
    -- The value of a key may hang, so the first indicator of the items is also the start of it.
    obtain rfl := hi rfl
    have h : r.scanner.Supplies (.blockEntry :: (v.tokens false ++ (itemTokens vs ++ ks))) := by
      simpa [Node.tokens, itemTokens] using h
    obtain ⟨a, b, s, hpeek, hs, -, -⟩ := exists_peek h
    obtain ⟨s', hruns, hs'⟩ := hangingItems_run (v :: vs) hks
      (r := { r with scanner := s, state := .indentlessEntry }) (by simpa [itemTokens] using hs)
    refine ⟨s', ⟨⟨.sequenceStart ⟨none, none⟩, a⟩, { r with scanner := s, state := .indentlessEntry }, _,
      ?_, rfl, hruns.emits rfl⟩, hs'⟩
    rw [node, ok_bind hpeek]
    rfl
  | .map [], _, _, _, _, _, _, h => node_of_emptyMapping _ h
  | .map (m :: ms), r, ks, _, indentless, _, _, h => by
    have h : r.scanner.Supplies (.blockMappingStart :: (memberTokens (m :: ms) ++ .blockEnd :: ks)) := by
      simpa [Node.tokens] using h
    exact runs_of_opens .blockMapping h indentless
      (show _ = (enter true >>= fun _ => blockKey false) from rfl) fun _ hm => members_run (m :: ms) hm

/-- The items of a block sequence are read until it ends. -/
theorem items_run : (vs : List Node) → {r : Reader} → {ks : List TokenKind} →
    r.scanner.Supplies (itemTokens vs ++ .blockEnd :: ks) →
    ∃ s, Runs (blockEntry false) r (itemEvents vs ++ [.sequenceEnd]) (r.closed s) ∧ s.Supplies ks
  -- No item is left, so the sequence ends.
  | [], r, _, h => runs_leave (fun _ _ _ hpeek => (ok_bind (enter_false r)).trans (ok_bind hpeek)) h
  | v :: vs, r, ks, h => by
    have h : r.scanner.Supplies
        (.blockEntry :: (v.tokens false ++ (itemTokens vs ++ .blockEnd :: ks))) := by
      simpa [itemTokens] using h
    -- An item is a node behind its indicator.
    obtain ⟨s, hruns, hs⟩ :=
      entry_runs .item false (by simp) h fun m hm => node_runs v false false (by simp) (follows_false _) hm
    obtain ⟨s', hruns', hs'⟩ := items_run vs (r := { r with scanner := s, state := .blockEntry false }) hs
    refine ⟨s', ?_, hs'⟩
    rw [itemEvents, List.append_assoc]
    exact hruns.append (hruns'.emits rfl)

/-- The items of a sequence that hangs are read until something else follows. -/
theorem hangingItems_run : (vs : List Node) → {r : Reader} → {ks : List TokenKind} → Follows true ks →
    r.scanner.Supplies (itemTokens vs ++ ks) →
    ∃ s, Runs indentlessEntry r (itemEvents vs ++ [.sequenceEnd]) (r.resume s) ∧ s.Supplies ks
  | [], _, _, hks, h => hanging_ends hks h
  | v :: vs, r, ks, hks, h => by
    have h : r.scanner.Supplies (.blockEntry :: (v.tokens false ++ (itemTokens vs ++ ks))) := by
      simpa [itemTokens] using h
    -- What ends them is not an item, so the last one ends the sequence.
    obtain ⟨s, hruns, hs⟩ :=
      entry_runs .hanging false (by simp) h fun m hm =>
        node_runs v false false (by simp) (follows_false _) hm
    obtain ⟨s', hruns', hs'⟩ :=
      hangingItems_run vs hks (r := { r with scanner := s, state := .indentlessEntry }) hs
    refine ⟨s', ?_, hs'⟩
    rw [itemEvents, List.append_assoc]
    exact hruns.append (hruns'.emits rfl)

/-- The members of a mapping are read until it ends. -/
theorem members_run : (ms : List (Key × Node)) → {r : Reader} → {ks : List TokenKind} →
    r.scanner.Supplies (memberTokens ms ++ .blockEnd :: ks) →
    ∃ s, Runs (blockKey false) r (memberEvents ms ++ [.mappingEnd]) (r.closed s) ∧ s.Supplies ks
  | [], r, _, h => runs_leave (fun _ _ _ hpeek => (ok_bind (enter_false r)).trans (ok_bind hpeek)) h
  | (k, v) :: ms, r, ks, h => by
    have h : r.scanner.Supplies (.key :: ((Node.scalar k.text k.style).tokens false ++
        .value :: (v.tokens k.hangs ++ (memberTokens ms ++ .blockEnd :: ks)))) := by
      simpa [memberTokens, Node.tokens] using h
    -- A key follows a value, or the end of the mapping does, so a sequence that hangs is not
    -- lengthened.
    have hfollows : Follows k.hangs (memberTokens ms ++ .blockEnd :: ks) := by
      cases ms with
      | nil => exact fun _ => ⟨_, _, rfl, by simp⟩
      | cons m ms => exact fun _ => ⟨_, _, rfl, by simp⟩
    obtain ⟨s, hkey, hs⟩ := entry_runs .key false (by simp) h fun m hm => node_of_scalar hm true
    obtain ⟨s', hvalue, hs'⟩ := entry_runs .value k.hangs (fun _ => rfl)
      (r := { r with scanner := s, state := .blockValue }) hs
      fun m hm => node_runs v k.hangs true (fun _ => rfl) hfollows hm
    obtain ⟨s'', hruns, hs''⟩ :=
      members_run ms (r := { r with scanner := s', state := .blockKey false }) hs'
    refine ⟨s'', ?_, hs''⟩
    simp only [memberEvents, List.cons_append, List.append_assoc]
    exact hkey.append ((hvalue.emits rfl).trans (hruns.emits rfl))

end

/-! ## §5 Documents -/

/-- The reader knows its own state. -/
theorem ok_get (r : Reader) : (get : Step Reader) r = .ok (r, r) := rfl

/-- A document that starts without an indicator starts where its node does. -/
theorem emits_start {r : Reader} {k : TokenKind} {ks : List TokenKind} (hk : k.OpensNode)
    (hr : r.state = .documentStart true) (h : r.scanner.Supplies (k :: ks)) :
    ∃ s hs, Emits r [.documentStart]
        { r with scanner := s, state := .blockNode, states := .documentEnd :: r.states, handles := hs } ∧
      s.Supplies (k :: ks) := by
  obtain ⟨a, b, s, hpeek, hs, hagain, -⟩ := exists_peek h
  -- No directive stands in front of a node.
  have hdirectives : directives (s.size + 1) false { r with scanner := s } =
      .ok (⟨k, a, b⟩, { r with scanner := s }) := by
    rw [directives, ok_bind (hagain _ rfl)]
    cases k <;> first | exact hk.elim | rfl
  have hprocess : processDirectives { r with scanner := s } = .ok (⟨k, a, b⟩,
      { r with
        scanner := s
        handles := r.handles ++ defaultHandles.filter fun d => !r.handles.any (·.1 == d.1) }) := by
    rw [processDirectives, ok_bind (ok_get _), ok_bind hdirectives]
    rfl
  have hevent : event r = .ok (⟨.documentStart, a⟩,
      { r with
        scanner := s
        state := .blockNode
        states := .documentEnd :: r.states
        handles := r.handles ++ defaultHandles.filter fun d => !r.handles.any (·.1 == d.1) }) := by
    rw [event_eq, hr, step, documentStart, ok_bind (ok_get _)]
    show (peek >>= _) r = _
    rw [ok_bind hpeek]
    cases k <;> first | exact hk.elim | exact ok_bind hprocess
  exact ⟨s, _, .cons hevent (.nil _), hs⟩

/-- A document ends at the end of the text. -/
theorem emits_end {r : Reader} (hr : r.state = .documentEnd) (h : r.scanner.Supplies [.streamEnd]) :
    ∃ r', Emits r [.documentEnd, .streamEnd] r' := by
  obtain ⟨a, b, s, hpeek, hs, hagain, -⟩ := exists_peek h
  -- The end of the text ends the document, and no further one follows.
  have hskip (n : Nat) (m : Reader) (hm : m.scanner = s) :
      skipDocumentEnds (n + 1) m = .ok (⟨.streamEnd, a, b⟩, m) := by
    rw [skipDocumentEnds, ok_bind (hagain m hm)]
    rfl
  have hdocument : event r = .ok (⟨.documentEnd, a⟩,
      { r with scanner := s, state := .documentStart false, handles := [] }) := by
    rw [event_eq, hr, step, documentEnd, ok_bind hpeek]
    rfl
  have hstream (m : Reader) (hm : m.scanner = s) (hstate : m.state = .documentStart false) :
      event m = .ok (⟨.streamEnd, a⟩, { m with scanner := s.advance, state := .finished }) := by
    rw [event_eq, hstate, step, documentStart, ok_bind (ok_get _)]
    show (skipDocumentEnds _ >>= _) _ = _
    rw [ok_bind (hskip _ _ hm), ← hm]
    rfl
  exact ⟨_, .cons hdocument (.cons (hstream _ rfl rfl) (.nil _))⟩

/-- The events of a text whose tokens are those of a node. -/
theorem emits_of_supplies {r : Reader} (hstate : r.state = .documentStart true) {v : Node}
    (h : r.scanner.Supplies (v.tokens false ++ [.streamEnd])) :
    ∃ r', Emits r (.documentStart :: (v.events ++ [.documentEnd, .streamEnd])) r' := by
  obtain ⟨k, ks, htokens, hk⟩ := v.exists_head false
  have hk : k.OpensNode := by simpa using hk
  have h : r.scanner.Supplies (k :: (ks ++ [.streamEnd])) := by simpa [htokens] using h
  -- The document starts, its node is read, and it ends.
  obtain ⟨s, hs, hstart, hnode⟩ := emits_start hk hstate h
  have hnode : s.Supplies (v.tokens false ++ [.streamEnd]) := by simpa [htokens] using hnode
  obtain ⟨s', hruns, hrest⟩ := node_runs v false false (by simp) (follows_false _)
    (r := { r with scanner := s, state := .blockNode, states := .documentEnd :: r.states, handles := hs })
    hnode
  have hstart := hstart.trans (hruns.emits rfl)
  obtain ⟨r', hend⟩ := emits_end (r := { r with
    scanner := s', state := .documentEnd, states := r.states, handles := hs }) rfl hrest
  exact ⟨r', by simpa using hstart.trans hend⟩

/-- All events of a run that ends the text are read, given enough fuel. -/
theorem eventsFrom_of_emits {ks : List EventKind} : ∀ {r r' : Reader} {fuel : Nat} (done : List Event),
    Emits r (ks ++ [.streamEnd]) r' → .streamEnd ∉ ks → ks.length < fuel →
    ∃ es : List Event, es.map (·.kind) = ks ++ [.streamEnd] ∧
      eventsFrom fuel done r = (done.reverse ++ es, none) := by
  -- By induction on the events that are left. The last one ends the run, and no other one does.
  induction ks with
  | nil =>
    intro r r' fuel done h _ hfuel
    obtain ⟨fuel, rfl⟩ : ∃ n, fuel = n + 1 := ⟨fuel - 1, by simp at hfuel; omega⟩
    generalize hl : [] ++ [EventKind.streamEnd] = l at h
    cases h with
    | nil => simp at hl
    | @cons _ r₁ _ e l he hrest =>
      obtain ⟨hk, rfl⟩ := List.cons.inj hl
      refine ⟨[e], by simp, ?_⟩
      simp [eventsFrom, he, ← hk]
  | cons k ks ih =>
    intro r r' fuel done h hks hfuel
    obtain ⟨fuel, rfl⟩ : ∃ n, fuel = n + 1 := ⟨fuel - 1, by simp at hfuel; omega⟩
    generalize hl : (k :: ks) ++ [EventKind.streamEnd] = l at h
    cases h with
    | nil => simp at hl
    | @cons _ r₁ _ e l he hrest =>
      obtain ⟨rfl, rfl⟩ := List.cons.inj hl
      obtain ⟨es, hes, hrun⟩ := ih (e :: done) hrest (fun h => hks (List.mem_cons_of_mem _ h))
        (by simpa using hfuel)
      refine ⟨e :: es, by simpa using hes, ?_⟩
      have hne : e.kind ≠ .streamEnd := fun h => hks (h ▸ List.mem_cons_self)
      simpa [eventsFrom, he, hne] using hrun

end Reader

end QueryPlayground.Yaml
