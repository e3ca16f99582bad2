import QueryPlayground.Yaml.Scanner

/-!
# Tokens taken one by one

A scanner can be asked for its tokens one by one, and then reads no further than it has to; or it can
read the whole text at once. What is handed out is the same: reading does not look at the tokens that
are settled, so a settled token may be taken before or after the next ones are read.

Main statement: `supplies_of_reads`.
-/

namespace QueryPlayground.Yaml

namespace Scanner

/-! ## §1 A token put back -/

/-- The scanner with a token put back in front of its queue. -/
def hold (t : Token) (s : Scanner) : Scanner :=
  { s with queue := t :: s.queue, taken := s.taken - 1 }

/-- No token that was taken may still turn out to be a key. -/
def KeysAhead (s : Scanner) : Prop :=
  ∀ k, some k ∈ s.keys → s.taken ≤ k.number

/-- A step that does not look at the tokens that were taken. -/
structure Steady (f : Scanner → Except Failure Scanner) : Prop where
  commutes : ∀ s t, 1 ≤ s.taken → s.KeysAhead → f (s.hold t) = (f s).map (hold t)
  keeps : ∀ s s', s.KeysAhead → f s = .ok s' →
    s'.KeysAhead ∧ s'.taken = s.taken ∧ s'.size = s.size

/-- Steps one after the other. -/
theorem Steady.bind {f g : Scanner → Except Failure Scanner} (hf : Steady f) (hg : Steady g) :
    Steady fun s => f s >>= g := by
  constructor
  case commutes =>
    intro s t ht hs
    show f (s.hold t) >>= g = (f s >>= g).map _
    -- The second step meets a scanner as the first one, since that takes no token.
    rw [hf.commutes s t ht hs]
    cases h : f s with
    | error e => rfl
    | ok s' =>
      obtain ⟨hs', htaken, -⟩ := hf.keeps s s' hs h
      exact hg.commutes s' t (htaken ▸ ht) hs'
  case keeps =>
    intro s s' hs h
    cases hm : f s with
    | error e => simp [hm, Bind.bind, Except.bind] at h
    | ok m =>
      simp only [hm, Bind.bind, Except.bind] at h
      obtain ⟨hkeys, htaken, hsize⟩ := hf.keeps s m hs hm
      obtain ⟨hkeys', htaken', hsize'⟩ := hg.keeps m s' hkeys h
      exact ⟨hkeys', htaken'.trans htaken, hsize'.trans hsize⟩

/-- A change that adds no key and takes no token. -/
theorem Steady.pure {f : Scanner → Scanner}
    (commutes : ∀ s t, 1 ≤ s.taken → s.KeysAhead → f (s.hold t) = (f s).hold t)
    (keys : ∀ s k, some k ∈ (f s).keys → some k ∈ s.keys) (taken : ∀ s, (f s).taken = s.taken)
    (size : ∀ s, (f s).size = s.size) : Steady fun s => .ok (f s) := by
  constructor
  case commutes =>
    intro s t ht hs
    rw [commutes s t ht hs]
    rfl
  case keeps =>
    rintro s _ hs ⟨⟩
    exact ⟨fun k hk => taken s ▸ hs k (keys s k hk), taken s, size s⟩

/-- A choice that does not depend on the tokens taken. -/
theorem Steady.ite {p : Scanner → Prop} [DecidablePred p] {f g : Scanner → Except Failure Scanner}
    (hp : ∀ s t, p (hold t s) ↔ p s) (hf : Steady f) (hg : Steady g) :
    Steady fun s => if p s then f s else g s := by
  constructor
  case commutes =>
    intro s t ht hs
    simp only [hp]
    split
    · exact hf.commutes s t ht hs
    · exact hg.commutes s t ht hs
  case keeps =>
    intro s s' hs h
    split at h
    · exact hf.keeps s s' hs h
    · exact hg.keeps s s' hs h

theorem steady_error {f : Scanner → Failure} (h : ∀ s t, f (hold t s) = f s) :
    Steady fun s => .error (f s) := by
  constructor
  case commutes => simp [h, Except.map]
  case keeps =>
    intro s s' _ h
    cases h

/-- A step that reads from the text alone what it then does. -/
theorem Steady.elim {α : Type} {r : Scanner → Except Failure α}
    {f : Scanner → α → Except Failure Scanner} (hr : ∀ s t, r (hold t s) = r s)
    (hf : ∀ a, Steady (f · a)) : Steady fun s => r s >>= f s := by
  constructor
  case commutes =>
    intro s t ht hs
    simp only [hr]
    cases r s with
    | error e => rfl
    | ok a => exact (hf a).commutes s t ht hs
  case keeps =>
    intro s s' hs h
    cases ha : r s with
    | error e => simp [ha, Bind.bind, Except.bind] at h
    | ok a =>
      simp only [ha, Bind.bind, Except.bind] at h
      exact (hf a).keeps s s' hs h

/-! ## §2 The steps of the scanner -/

/-- To drop a pending key looks at the keys alone. -/
theorem steady_dropKey : Steady dropKey := by
  constructor
  case commutes =>
    intro s t _ _
    obtain ⟨c, size, q, taken, indent, outer, allowed, keys⟩ := s
    unfold dropKey hold
    cases keys with
    | nil => rfl
    | cons k keys =>
      cases k with
      | none => rfl
      | some k => cases h : k.required <;> simp [h, Except.map, missingColon]
  case keeps =>
    intro s s' hs h
    unfold dropKey at h
    split at h
    · next k keys hk =>
      split at h
      · cases h
      · cases h
        refine ⟨fun k' hk' => hs k' ?_, rfl, rfl⟩
        rw [hk]
        simp_all
    · cases h
      exact ⟨hs, rfl, rfl⟩

/-- The number of the next token does not change when one is put back. -/
theorem steady_saveKey : Steady saveKey := by
  have hsave : Steady fun s => .ok
      { s with
        keys := some
          { required := !s.inFlow && s.indent == s.cursor.column
            number := s.taken + s.queue.length
            index := s.cursor.index
            mark := s.cursor.mark } :: s.keys.drop 1 } := by
    constructor
    case commutes =>
      intro s t ht _
      have hnumber : s.taken - 1 + (s.queue.length + 1) = s.taken + s.queue.length := by omega
      simp only [hold, inFlow, List.length_cons, Except.map, hnumber]
      rfl
    case keeps =>
      rintro s _ hs ⟨⟩
      refine ⟨fun k hk => ?_, rfl, rfl⟩
      rcases List.mem_cons.mp hk with hk | hk
      · cases hk
        exact Nat.le_add_right _ _
      · exact hs k (List.mem_of_mem_drop hk)
  exact Steady.ite (fun _ _ => Iff.rfl) (steady_dropKey.bind hsave)
    (Steady.pure (fun _ _ _ _ => rfl) (fun _ _ h => h) (fun _ => rfl) fun _ => rfl)

/-- A token goes to the same place behind those taken, also if one of these is put back. -/
theorem insertAt_hold {s : Scanner} {n : Nat} (ht : 1 ≤ s.taken) (hn : s.taken ≤ n) (t u : Token) :
    (s.hold t).insertAt n u = (s.insertAt n u).hold t := by
  have hplace : n - (s.taken - 1) = n - s.taken + 1 := by omega
  simp [insertAt, hold, hplace]

/-- A key behind which a collection begins is not among the tokens that were taken. -/
theorem roll_hold {s : Scanner} {number : Option Nat} (ht : 1 ≤ s.taken)
    (hn : ∀ n, number = some n → s.taken ≤ n) (column : Nat) (kind : TokenKind) (m : Mark)
    (t : Token) : (s.hold t).roll column number kind m = (s.roll column number kind m).hold t := by
  have hcond : (s.hold t).inFlow = s.inFlow ∧ (s.hold t).indent = s.indent := ⟨rfl, rfl⟩
  unfold roll
  rw [hcond.1, hcond.2]
  split
  · rfl
  · cases number with
    | none => rfl
    | some n =>
      exact insertAt_hold (s := { s with indent := column, outer := s.indent :: s.outer }) ht
        (hn n rfl) t _

/-- Neither keys nor the tokens taken change where collections begin or end. -/
theorem roll_keeps (s : Scanner) (column : Nat) (number : Option Nat) (kind : TokenKind) (m : Mark) :
    (s.roll column number kind m).keys = s.keys ∧ (s.roll column number kind m).taken = s.taken ∧
      (s.roll column number kind m).size = s.size := by
  unfold roll
  split
  · exact ⟨rfl, rfl, rfl⟩
  · cases number <;> exact ⟨rfl, rfl, rfl⟩

theorem unroll_keeps (s : Scanner) (column : Int) :
    (s.unroll column).keys = s.keys ∧ (s.unroll column).taken = s.taken ∧
      (s.unroll column).size = s.size := by
  unfold unroll
  split <;> exact ⟨rfl, rfl, rfl⟩

theorem unroll_hold (s : Scanner) (column : Int) (t : Token) :
    (s.hold t).unroll column = (s.unroll column).hold t := by
  have hflow : (s.hold t).inFlow = s.inFlow := rfl
  unfold unroll
  rw [hflow]
  split <;> rfl

/-- A block collection is opened at the cursor. -/
theorem steady_roll (kind : TokenKind) :
    Steady fun s => .ok (s.roll s.cursor.column none kind s.cursor.mark) :=
  Steady.pure (fun _ t ht _ => roll_hold ht (by simp) _ kind _ t)
    (fun s k hk => (roll_keeps s _ _ kind _).1 ▸ hk) (fun s => (roll_keeps s _ _ kind _).2.1)
    fun s => (roll_keeps s _ _ kind _).2.2

/-- The block collections behind a column are closed. -/
theorem steady_unroll (column : Scanner → Int) (h : ∀ s t, column (hold t s) = column s) :
    Steady fun s => .ok (s.unroll (column s)) :=
  Steady.pure (fun s t _ _ => by simp only [h, unroll_hold]) (fun s k hk => (unroll_keeps s _).1 ▸ hk)
    (fun s => (unroll_keeps s _).2.1) fun s => (unroll_keeps s _).2.2

/-- A token goes to the end of the queue. -/
theorem steady_takeTo (kind : TokenKind) (allowed : Scanner → Bool) (c : Scanner → Cursor)
    (ha : ∀ s t, allowed (hold t s) = allowed s) (hc : ∀ s t, c (hold t s) = c s) :
    Steady fun s => .ok ({ s with keyAllowed := allowed s }.takeTo kind (c s)) :=
  Steady.pure (fun s t _ _ => by simp only [ha, hc, takeTo]; rfl) (fun _ _ h => h) (fun _ => rfl)
    fun _ => rfl

theorem steady_take (kind : TokenKind) (length : Nat) (allowed : Scanner → Bool)
    (ha : ∀ s t, allowed (hold t s) = allowed s) :
    Steady fun s => .ok ({ s with keyAllowed := allowed s }.take kind length) :=
  steady_takeTo kind allowed (·.cursor.skip length) ha fun _ _ => rfl

/-! ## §3 Reading a token -/

/-- The end of the text is read by such steps, and so is a token of every kind. -/
theorem steady_readEnd : Steady readEnd := by
  have hline : Steady fun s => .ok
      { s with
        cursor := if s.cursor.column == 0 then s.cursor
          else { s.cursor with line := s.cursor.line + 1, column := 0 } } :=
    Steady.pure (fun _ _ _ _ => rfl) (fun _ _ h => h) (fun _ => rfl) fun _ => rfl
  exact ((hline.bind (steady_unroll (fun _ => -1) fun _ _ => rfl)).bind steady_dropKey).bind
    (steady_take .streamEnd 0 (fun _ => false) fun _ _ => rfl)

theorem steady_readDirective : Steady readDirective := by
  have hpush (x : Token × Cursor) :
      Steady fun s => .ok ({ s with keyAllowed := false, cursor := x.2 }.push x.1) :=
    Steady.pure (fun _ _ _ _ => rfl) (fun _ _ h => h) (fun _ => rfl) fun _ => rfl
  exact ((steady_unroll (fun _ => -1) fun _ _ => rfl).bind steady_dropKey).bind
    (Steady.elim (fun _ _ => rfl) hpush)

theorem steady_readDocument (kind : TokenKind) : Steady (readDocument · kind) :=
  ((steady_unroll (fun _ => -1) fun _ _ => rfl).bind steady_dropKey).bind
    (steady_take kind 3 (fun _ => false) fun _ _ => rfl)

theorem steady_readFlowStart (kind : TokenKind) : Steady (readFlowStart · kind) := by
  have hopen : Steady fun s => .ok ({ s with keys := none :: s.keys, keyAllowed := true }.take kind 1) :=
    Steady.pure (fun _ _ _ _ => rfl) (fun s k hk => by simpa [take] using hk) (fun _ => rfl) fun _ => rfl
  exact steady_saveKey.bind hopen

theorem steady_readFlowEnd (kind : TokenKind) : Steady (readFlowEnd · kind) := by
  have hclose : Steady fun s => .ok
      ({ s with keys := if s.inFlow then s.keys.drop 1 else s.keys, keyAllowed := false }.take kind 1) := by
    refine Steady.pure (fun _ _ _ _ => rfl) (fun s k hk => ?_) (fun _ => rfl) fun _ => rfl
    simp only [take] at hk
    split at hk
    · exact List.mem_of_mem_drop hk
    · exact hk
  exact steady_dropKey.bind hclose

theorem steady_readFlowEntry : Steady readFlowEntry :=
  steady_dropKey.bind (steady_take .flowEntry 1 (fun _ => true) fun _ _ => rfl)

/-- A step that is refused where no key may begin in a block collection. -/
theorem Steady.unlessLate {f : Scanner → Except Failure Scanner} (p : Problem) (hf : Steady f) :
    Steady fun s => if !s.inFlow && !s.keyAllowed then s.fail p else f s :=
  Steady.ite (fun _ _ => Iff.rfl) (steady_error fun _ _ => rfl) hf

theorem steady_readBlockEntry : Steady readBlockEntry :=
  Steady.unlessLate _ (((steady_roll .blockSequenceStart).bind steady_dropKey).bind
    (steady_take .blockEntry 1 (fun _ => true) fun _ _ => rfl))

theorem steady_readKey : Steady readKey :=
  Steady.unlessLate _ (((steady_roll .blockMappingStart).bind steady_dropKey).bind
    (steady_take .key 1 (fun s => !s.inFlow) fun _ _ => rfl))

/-- The tokens that make a pending key a key go before it, and so behind those that were taken. -/
theorem steady_readValue : Steady readValue := by
  have hnew : Steady fun s => if !s.inFlow && !s.keyAllowed then s.fail .unexpectedValue
      else (.ok (s.roll s.cursor.column none .blockMappingStart s.cursor.mark) : Except _ _) >>= fun s =>
        .ok ({ s with keyAllowed := !s.inFlow }.take .value 1) :=
    Steady.unlessLate _ ((steady_roll .blockMappingStart).bind
      (steady_take .value 1 (fun s => !s.inFlow) fun _ _ => rfl))
  have hpending (k : SimpleKey) (keys : List (Option SimpleKey)) (s : Scanner)
      (h : s.keys = some k :: keys) : s.readValue = .ok ({ (s.insertAt k.number ⟨.key, k.mark, k.mark⟩).roll
          k.mark.column (some k.number) .blockMappingStart k.mark with
        keys := none :: keys, keyAllowed := false }.take .value 1) := by
    simp only [readValue, h]
  have hother (s : Scanner) (h : ∀ k keys, s.keys ≠ some k :: keys) :
      s.readValue = (if !s.inFlow && !s.keyAllowed then s.fail .unexpectedValue
        else (.ok (s.roll s.cursor.column none .blockMappingStart s.cursor.mark) : Except _ _) >>= fun s =>
          .ok ({ s with keyAllowed := !s.inFlow }.take .value 1)) := by
    unfold readValue
    split
    · next k keys hk => exact absurd hk (h k keys)
    · rfl
  constructor
  -- Either a key is pending, and its tokens go before it, or the value begins a mapping itself.
  case commutes =>
    intro s t ht hs
    by_cases h : ∃ k keys, s.keys = some k :: keys
    · obtain ⟨k, keys, h⟩ := h
      -- The pending key is ahead, so the place of its tokens does not change.
      have hk : s.taken ≤ k.number := hs k (h ▸ List.mem_cons_self)
      rw [hpending k keys s h, hpending k keys (s.hold t) h, insertAt_hold ht hk,
        roll_hold (by exact ht) (by rintro _ ⟨⟩; exact hk)]
      rfl
    · simp only [not_exists] at h
      rw [hother s h, hother (s.hold t) h]
      exact hnew.commutes s t ht hs
  case keeps =>
    intro s s' hs hok
    by_cases h : ∃ k keys, s.keys = some k :: keys
    · obtain ⟨k, keys, h⟩ := h
      rw [hpending k keys s h] at hok
      cases hok
      obtain ⟨-, htaken, hsize⟩ := roll_keeps (s.insertAt k.number ⟨.key, k.mark, k.mark⟩) k.mark.column
        (some k.number) .blockMappingStart k.mark
      refine ⟨fun k' hk' => ?_, htaken, hsize⟩
      have hmem : some k' ∈ s.keys := by
        rw [h]
        simp only [take, List.mem_cons, reduceCtorEq, false_or] at hk'
        exact List.mem_cons_of_mem _ hk'
      show (({ s with } : Scanner).insertAt k.number ⟨.key, k.mark, k.mark⟩ |>.roll k.mark.column
        (some k.number) .blockMappingStart k.mark).taken ≤ k'.number
      rw [htaken]
      exact hs k' hmem
    · simp only [not_exists] at h
      rw [hother s h] at hok
      exact hnew.keeps s s' hs hok

/-- A step that reads a token from its own characters. -/
theorem Steady.token {α : Type} {f : Scanner → Except Failure Scanner} (hf : Steady f)
    (r : Scanner → Except Failure α) (hr : ∀ s t, r (hold t s) = r s) (kind : α → TokenKind)
    (allowed : α → Bool) (c : α → Cursor) :
    Steady fun s => f s >>= fun s => r s >>= fun x =>
      .ok ({ s with keyAllowed := allowed x }.takeTo (kind x) (c x)) :=
  hf.bind (Steady.elim hr fun x =>
    steady_takeTo (kind x) (fun _ => allowed x) (fun _ => c x) (fun _ _ => rfl) fun _ _ => rfl)

theorem steady_readAnchor : Steady readAnchor :=
  steady_saveKey.token (anchorName .anchor ·.cursor) (fun _ _ => rfl) (.anchor ·.1) (fun _ => false) (·.2)

theorem steady_readAlias : Steady readAlias :=
  steady_saveKey.token (anchorName .alias ·.cursor) (fun _ _ => rfl) (.alias ·.1) (fun _ => false) (·.2)

theorem steady_readTag : Steady readTag :=
  steady_saveKey.token (fun s => tagToken s.size s.inFlow s.cursor) (fun _ _ => rfl) (·.1)
    (fun _ => false) (·.2)

theorem steady_readBlockScalar (literal : Bool) : Steady (readBlockScalar · literal) :=
  steady_dropKey.token (fun s => blockScalar s.size literal s.indent s.cursor) (fun _ _ => rfl)
    (.scalar ·.1 .marked) (fun _ => true) (·.2)

theorem steady_readQuoted (quote : Char) : Steady (readQuoted · quote) :=
  steady_saveKey.token (fun s => quotedScalar s.size quote s.cursor) (fun _ _ => rfl)
    (.scalar ·.1 .marked) (fun _ => false) (·.2)

theorem steady_readPlain : Steady readPlain :=
  steady_saveKey.token (fun s => plainScalar s.size s.inFlow s.indent s.cursor) (fun _ _ => rfl)
    (.scalar ·.1 .plain) (·.2.1) (·.2.2)

/-- Reads the token that a text starts with. -/
def dispatch (text : List Char) (s : Scanner) : Except Failure Scanner :=
  match text with
  | [] => s.readEnd
  | c :: rest =>
    let lineStart := s.cursor.column == 0
    if lineStart && c = '%' then s.readDirective
    else if lineStart && startsWithThree '-' (c :: rest) then s.readDocument .documentStart
    else if lineStart && startsWithThree '.' (c :: rest) then s.readDocument .documentEnd
    else if c = '[' then s.readFlowStart .flowSequenceStart
    else if c = '\x7b' then s.readFlowStart .flowMappingStart
    else if c = ']' then s.readFlowEnd .flowSequenceEnd
    else if c = '\x7d' then s.readFlowEnd .flowMappingEnd
    else if c = ',' then s.readFlowEntry
    else if c = '-' && atBlankOrEnd rest then s.readBlockEntry
    else if c = '?' && (s.inFlow || atBlankOrEnd rest) then s.readKey
    else if c = ':' && (s.inFlow || atBlankOrEnd rest) then s.readValue
    else if c = '*' then s.readAlias
    else if c = '&' then s.readAnchor
    else if c = '!' then s.readTag
    else if c = '|' && !s.inFlow then s.readBlockScalar true
    else if c = '>' && !s.inFlow then s.readBlockScalar false
    else if c = '\'' then s.readQuoted '\''
    else if c = '"' then s.readQuoted '"'
    else if startsPlain s.inFlow (c :: rest) then s.readPlain
    else .error (.within .nextToken s.cursor.mark .noToken s.cursor.mark)

/-- Which token is read depends on the text and on the place of the scanner. -/
theorem steady_dispatch (text : List Char) : Steady (dispatch text) := by
  cases text with
  | nil => exact steady_readEnd
  | cons c rest =>
    refine Steady.ite (fun _ _ => Iff.rfl) steady_readDirective ?_
    refine Steady.ite (fun _ _ => Iff.rfl) (steady_readDocument _) ?_
    refine Steady.ite (fun _ _ => Iff.rfl) (steady_readDocument _) ?_
    refine Steady.ite (fun _ _ => Iff.rfl) (steady_readFlowStart _) ?_
    refine Steady.ite (fun _ _ => Iff.rfl) (steady_readFlowStart _) ?_
    refine Steady.ite (fun _ _ => Iff.rfl) (steady_readFlowEnd _) ?_
    refine Steady.ite (fun _ _ => Iff.rfl) (steady_readFlowEnd _) ?_
    refine Steady.ite (fun _ _ => Iff.rfl) steady_readFlowEntry ?_
    refine Steady.ite (fun _ _ => Iff.rfl) steady_readBlockEntry ?_
    refine Steady.ite (fun _ _ => Iff.rfl) steady_readKey ?_
    refine Steady.ite (fun _ _ => Iff.rfl) steady_readValue ?_
    refine Steady.ite (fun _ _ => Iff.rfl) steady_readAlias ?_
    refine Steady.ite (fun _ _ => Iff.rfl) steady_readAnchor ?_
    refine Steady.ite (fun _ _ => Iff.rfl) steady_readTag ?_
    refine Steady.ite (fun _ _ => Iff.rfl) (steady_readBlockScalar _) ?_
    refine Steady.ite (fun _ _ => Iff.rfl) (steady_readBlockScalar _) ?_
    refine Steady.ite (fun _ _ => Iff.rfl) (steady_readQuoted _) ?_
    refine Steady.ite (fun _ _ => Iff.rfl) (steady_readQuoted _) ?_
    refine Steady.ite (fun _ _ => Iff.rfl) steady_readPlain ?_
    exact steady_error fun _ _ => rfl

/-! ## §4 Space before a token -/

/-- The scanner in front of the next token, with the keys given up that cannot be any more. -/
def ready (s : Scanner) : Except Failure Scanner :=
  s.skipSpace.dropStaleKeys

/-- A token is read behind the space in front of it, once the collections are closed that end there. -/
theorem readToken_eq (s : Scanner) :
    s.readToken = (s.ready >>= fun s => .ok (s.unroll s.cursor.column)) >>= fun s =>
      s.dispatch s.cursor.rest := by
  show s.ready >>= _ = _
  cases s.ready <;> rfl

/-- Space is passed over whatever the tokens and the keys are. -/
theorem skipSpaceFrom_with (fuel : Nat) (s : Scanner) (q : List Token) (n : Nat)
    (keys : List (Option SimpleKey)) (hkeys : keys.length = s.keys.length) :
    skipSpaceFrom fuel { s with queue := q, taken := n, keys := keys } =
      { skipSpaceFrom fuel s with queue := q, taken := n, keys := keys } := by
  induction fuel generalizing s with
  | zero => rfl
  | succ fuel ih =>
    have hflow : ({ s with queue := q, taken := n, keys := keys } : Scanner).inFlow = s.inFlow := by
      simp only [inFlow, hkeys]
    simp only [skipSpaceFrom, hflow]
    split
    · exact ih { s with cursor := _, keyAllowed := s.keyAllowed || !s.inFlow } hkeys
    · rfl

theorem skipSpaceFrom_keeps (fuel : Nat) (s : Scanner) :
    (skipSpaceFrom fuel s).keys = s.keys ∧ (skipSpaceFrom fuel s).taken = s.taken ∧
      (skipSpaceFrom fuel s).size = s.size ∧ (skipSpaceFrom fuel s).queue = s.queue := by
  induction fuel generalizing s with
  | zero => exact ⟨rfl, rfl, rfl, rfl⟩
  | succ fuel ih =>
    simp only [skipSpaceFrom]
    split
    · exact ih _
    · exact ⟨rfl, rfl, rfl, rfl⟩

theorem skipSpace_with (s : Scanner) (q : List Token) (n : Nat) (keys : List (Option SimpleKey))
    (hkeys : keys.length = s.keys.length) :
    skipSpace { s with queue := q, taken := n, keys := keys } =
      { s.skipSpace with queue := q, taken := n, keys := keys } :=
  skipSpaceFrom_with _ { s with cursor := _ } q n keys hkeys

theorem skipSpace_keeps (s : Scanner) :
    s.skipSpace.keys = s.keys ∧ s.skipSpace.taken = s.taken ∧ s.skipSpace.size = s.size ∧
      s.skipSpace.queue = s.queue :=
  skipSpaceFrom_keeps _ { s with cursor := _ }

/-- Skipping space does not look at the tokens. -/
theorem steady_skipSpace : Steady fun s => .ok s.skipSpace := by
  refine Steady.pure (fun s t _ _ => ?_) (fun s k hk => (skipSpace_keeps s).1 ▸ hk)
    (fun s => (skipSpace_keeps s).2.1) fun s => (skipSpace_keeps s).2.2.1
  obtain ⟨hkeys, htaken, -, hqueue⟩ := skipSpace_keeps s
  calc (s.hold t).skipSpace
    _ = { s.skipSpace with queue := t :: s.queue, taken := s.taken - 1, keys := s.keys } :=
      skipSpace_with s _ _ s.keys rfl
    _ = s.skipSpace.hold t := by simp only [hold, hqueue, htaken, hkeys]

/-- Stale keys are given up, and it is an error where one of them is required. -/
theorem dropStaleKeys_eq_ok_iff {s s' : Scanner} :
    s.dropStaleKeys = .ok s' ↔
      (∀ k, some k ∈ s.keys → s.isStale k = true → k.required = false) ∧
        s' = { s with keys := s.keys.map (Option.filter (!s.isStale ·)) } := by
  -- The code looks for a stale key that is required in the list of those that are stale.
  have hmem (k : SimpleKey) : k ∈ s.keys.filterMap (Option.filter s.isStale) ↔
      some k ∈ s.keys ∧ s.isStale k = true := by
    simp only [List.mem_filterMap, Option.filter_eq_some_iff]
    constructor
    · rintro ⟨_, hk, rfl, hs⟩
      exact ⟨hk, hs⟩
    · rintro ⟨hk, hs⟩
      exact ⟨_, hk, rfl, hs⟩
  simp only [dropStaleKeys]
  split
  · next k hk =>
    have hreq : k.required = true := by simpa using List.find?_some hk
    have hk := (hmem k).mp (List.mem_of_find?_eq_some hk)
    constructor
    · intro h
      cases h
    · rintro ⟨h, -⟩
      rw [h k hk.1 hk.2] at hreq
      cases hreq
  · next hnone =>
    have hnone : ∀ k, some k ∈ s.keys → s.isStale k = true → k.required = false := fun k hk hs => by
      simpa using List.find?_eq_none.mp hnone k ((hmem k).mpr ⟨hk, hs⟩)
    exact ⟨fun h => ⟨hnone, (Except.ok.inj h).symm⟩, fun h => h.2 ▸ rfl⟩

/-- Nothing is given up where no key is stale. -/
theorem dropStaleKeys_eq_self {s : Scanner} (h : ∀ k, some k ∈ s.keys → s.isStale k = false) :
    s.dropStaleKeys = .ok s := by
  have hkeys : s.keys.map (Option.filter (!s.isStale ·)) = s.keys :=
    (List.map_congr_left fun k hk => by cases k <;> simp_all).trans (List.map_id _)
  refine dropStaleKeys_eq_ok_iff.mpr ⟨fun k hk hs => ?_, by rw [hkeys]⟩
  rw [h k hk] at hs
  cases hs

theorem steady_dropStaleKeys : Steady dropStaleKeys := by
  constructor
  case commutes =>
    intro s t _ _
    have hstale : (s.hold t).isStale = s.isStale := rfl
    have hkeys : (s.hold t).keys = s.keys := rfl
    rw [dropStaleKeys, dropStaleKeys, hstale, hkeys]
    cases (s.keys.filterMap fun k => k.filter s.isStale).find? (·.required) <;> rfl
  case keeps =>
    intro s s' hs h
    obtain ⟨-, rfl⟩ := dropStaleKeys_eq_ok_iff.mp h
    refine ⟨fun k hk => ?_, rfl, rfl⟩
    obtain ⟨k', hk', hfilter⟩ := List.mem_map.mp hk
    obtain ⟨rfl, -⟩ := Option.filter_eq_some_iff.mp hfilter
    exact hs k hk'

theorem steady_ready : Steady ready :=
  steady_skipSpace.bind steady_dropStaleKeys

/-- Reading the next token is steady, as its parts are. -/
theorem steady_readToken : Steady readToken := by
  have hdispatch : Steady fun s => s.dispatch s.cursor.rest := by
    constructor
    case commutes => exact fun s t => (steady_dispatch s.cursor.rest).commutes s t
    case keeps => exact fun s s' => (steady_dispatch s.cursor.rest).keeps s s'
  have hread := (steady_ready.bind (steady_unroll (·.cursor.column) fun _ _ => rfl)).bind hdispatch
  exact (funext readToken_eq : readToken = _) ▸ hread

/-! ## §5 Keys that are given up -/

/-- What is skipped moves the cursor on, and never back. -/
theorem skipBreak_ahead (c : Cursor) : c.line ≤ c.skipBreak.line ∧ c.index ≤ c.skipBreak.index := by
  unfold Cursor.skipBreak
  split
  · exact ⟨Nat.le_succ _, Nat.le_add_right _ _⟩
  · split
    · exact ⟨Nat.le_succ _, Nat.le_succ _⟩
    · exact ⟨Nat.le_refl _, Nat.le_refl _⟩
  · exact ⟨Nat.le_refl _, Nat.le_refl _⟩

theorem skipComment_ahead (c : Cursor) : c.line ≤ c.skipComment.line ∧ c.index ≤ c.skipComment.index := by
  unfold Cursor.skipComment
  split
  · exact ⟨Nat.le_refl _, Nat.le_add_right _ _⟩
  · exact ⟨Nat.le_refl _, Nat.le_refl _⟩

theorem skipSpaceFrom_ahead (fuel : Nat) (s : Scanner) :
    s.cursor.line ≤ (skipSpaceFrom fuel s).cursor.line ∧
      s.cursor.index ≤ (skipSpaceFrom fuel s).cursor.index := by
  induction fuel generalizing s with
  | zero => exact ⟨Nat.le_refl _, Nat.le_refl _⟩
  | succ fuel ih =>
    simp only [skipSpaceFrom]
    -- Each round skips spaces, then a comment, then a break.
    have hcomment := skipComment_ahead
      (s.cursor.skipWhile fun c => c = ' ' || ((s.inFlow || !s.keyAllowed) && c = '\t'))
    have hskip : s.cursor.index ≤
        (s.cursor.skipWhile fun c => c = ' ' || ((s.inFlow || !s.keyAllowed) && c = '\t')).index :=
      Nat.le_add_right _ _
    split
    · refine ⟨Nat.le_trans ?_ (ih _).1, Nat.le_trans ?_ (ih _).2⟩
      · exact Nat.le_trans hcomment.1 (skipBreak_ahead _).1
      · exact Nat.le_trans (Nat.le_trans hskip hcomment.2) (skipBreak_ahead _).2
    · exact ⟨hcomment.1, Nat.le_trans hskip hcomment.2⟩

/-- What is given up in front of a space is given up behind it. -/
theorem isStale_skipSpace {s : Scanner} {k : SimpleKey} (h : s.isStale k = true) :
    s.skipSpace.isStale k = true := by
  have hmark : s.cursor.line ≤ s.skipSpace.cursor.line ∧ s.cursor.index ≤ s.skipSpace.cursor.index := by
    refine ⟨Nat.le_trans ?_ (skipSpaceFrom_ahead _ _).1, Nat.le_trans ?_ (skipSpaceFrom_ahead _ _).2⟩
    · dsimp only
      split <;> exact Nat.le_refl _
    · dsimp only
      split
      · exact Nat.le_add_right _ _
      · exact Nat.le_refl _
  simp only [isStale, Bool.or_eq_true, decide_eq_true_eq] at h ⊢
  omega

/-- A scanner that can read on may give up keys first. -/
theorem dropStaleKeys_of_ready {s t : Scanner} (h : s.ready = .ok t) :
    ∃ s', s.dropStaleKeys = .ok s' ∧ s'.ready = .ok t ∧ s'.dropStaleKeys = .ok s' := by
  obtain ⟨hreq, rfl⟩ := dropStaleKeys_eq_ok_iff.mp h
  obtain ⟨hkeys, htaken, -, hqueue⟩ := skipSpace_keeps s
  rw [hkeys] at hreq
  have hdrop : s.dropStaleKeys = .ok { s with keys := s.keys.map (Option.filter (!s.isStale ·)) } :=
    dropStaleKeys_eq_ok_iff.mpr ⟨fun k hk hs => hreq k hk (isStale_skipSpace hs), rfl⟩
  have hmem (k : SimpleKey) (hk : some k ∈ s.keys.map (Option.filter (!s.isStale ·))) :
      some k ∈ s.keys ∧ s.isStale k = false := by
    obtain ⟨k', hk', hfilter⟩ := List.mem_map.mp hk
    obtain ⟨rfl, hs⟩ := Option.filter_eq_some_iff.mp hfilter
    exact ⟨hk', by simpa using hs⟩
  refine ⟨_, hdrop, ?_, dropStaleKeys_eq_self fun k hk => (hmem k hk).2⟩
  have hskip := skipSpace_with s s.queue s.taken (s.keys.map (Option.filter (!s.isStale ·)))
    (List.length_map _)
  rw [ready, show ({ s with keys := s.keys.map (Option.filter (!s.isStale ·)) } : Scanner).skipSpace = _
    from hskip]
  refine dropStaleKeys_eq_ok_iff.mpr ⟨fun k hk hs => hreq k (hmem k hk).1 hs, ?_⟩
  -- What is stale in front of the space is stale behind it, so filtering by both is filtering by one.
  have hboth : (s.keys.map (Option.filter (!s.isStale ·))).map (Option.filter (!s.skipSpace.isStale ·)) =
      s.keys.map (Option.filter (!s.skipSpace.isStale ·)) := by
    rw [List.map_map]
    refine List.map_congr_left fun k _ => ?_
    cases k with
    | none => rfl
    | some k =>
      cases hs : s.isStale k with
      | false => simp [Option.filter, hs]
      | true => simp [Option.filter, hs, isStale_skipSpace hs]
  simp only [hkeys, ← hboth, ← hqueue, ← htaken]
  rfl

/-! ## §6 Tokens one by one -/

/-- Reads so many tokens. -/
def reads : Nat → Scanner → Except Failure Scanner
  | 0, s => .ok s
  | n + 1, s => s.readToken >>= reads n

theorem steady_reads (n : Nat) : Steady (reads n) := by
  induction n with
  | zero => exact Steady.pure (fun _ _ _ _ => rfl) (fun _ _ h => h) (fun _ => rfl) fun _ => rfl
  | succ n ih => exact steady_readToken.bind ih

/-- To read some tokens is to read the first one and then the others. -/
theorem reads_succ_eq_ok {n : Nat} {s e : Scanner} (h : s.reads (n + 1) = .ok e) :
    ∃ t m, s.ready = .ok t ∧ s.readToken = .ok m ∧ m.reads n = .ok e := by
  cases hm : s.readToken with
  | error f => simp [reads, hm, Bind.bind, Except.bind] at h
  | ok m =>
    cases ht : s.ready with
    | error f => simp [readToken_eq, ht, Bind.bind, Except.bind] at hm
    | ok t => exact ⟨t, m, rfl, rfl, by simpa [reads, hm, Bind.bind, Except.bind] using h⟩

/-- The scanner hands out tokens of these kinds, one after the other, however often it is asked for each
of them. -/
def Supplies : Scanner → List TokenKind → Prop
  | _, [] => True
  | s, k :: ks => ∃ t s', s.peek = .ok (t, s') ∧ t.kind = k ∧ s'.peek = .ok (t, s') ∧
      s'.advance.Supplies ks

/-- The first token of the queue is settled. -/
structure HeadSettled (s : Scanner) : Prop where
  queue : s.queue ≠ []
  fresh : s.dropStaleKeys = .ok s
  head : s.headPending = false

/-- Where the first token is settled, nothing has to be read for it. -/
theorem HeadSettled.settle {s : Scanner} (h : s.HeadSettled) (fuel : Nat) :
    settle (fuel + 1) s = .ok s := by
  simp [Scanner.settle, h.queue, h.fresh, h.head, Bind.bind, Except.bind, Pure.pure, Except.pure]

/-- Reading until the first token is settled reads a part of what is left. -/
theorem exists_settle {fuel n : Nat} {s e : Scanner} (hn : n < fuel) (hr : s.reads n = .ok e)
    (hkeys : s.KeysAhead) (hend : ∀ k ∈ e.keys, k = none) (hq : e.queue ≠ []) :
    ∃ m s', m ≤ n ∧ settle fuel s = .ok s' ∧ s'.reads m = .ok e ∧ s'.HeadSettled ∧ s'.KeysAhead ∧
      s'.size = s.size := by
  induction fuel generalizing n s with
  | zero => omega
  | succ fuel ih =>
    cases n with
    -- Everything has been read, so no key is pending and the first token is settled.
    | zero =>
      obtain rfl : s = e := Except.ok.inj hr
      have hnone : ∀ k, some k ∉ s.keys := fun k hk => Option.some_ne_none k (hend _ hk)
      have hs : s.HeadSettled := by
        refine ⟨hq, dropStaleKeys_eq_self fun k hk => absurd hk (hnone k), ?_⟩
        rw [headPending, List.any_eq_false]
        intro k hk
        simp [hend k hk]
      exact ⟨0, s, Nat.le_refl _, hs.settle fuel, rfl, hs, hkeys, rfl⟩
    | succ n =>
      obtain ⟨t, m, ht, hm, hrest⟩ := reads_succ_eq_ok hr
      obtain ⟨hkeys', -, hsize⟩ := steady_readToken.keeps s m hkeys hm
      obtain ⟨i, s', hi, hsettle, hreads, hs', hahead, hsize'⟩ :=
        ih (Nat.lt_of_succ_lt_succ hn) hrest hkeys'
      -- An empty queue is filled by reading on.
      by_cases hempty : s.queue = []
      · refine ⟨i, s', Nat.le_succ_of_le hi, ?_, hreads, hs', hahead, hsize'.trans hsize⟩
        simp [Scanner.settle, hempty, hm, hsettle, Bind.bind, Except.bind]
      · -- Keys that are stale are given up first, which changes nothing for the reading.
        obtain ⟨d, hd, hdready, hfresh⟩ := dropStaleKeys_of_ready ht
        have hdread : d.readToken = s.readToken := by rw [readToken_eq, readToken_eq, hdready, ht]
        obtain ⟨hdkeys, -, hdsize⟩ := steady_dropStaleKeys.keeps s d hkeys hd
        have hdqueue : d.queue = s.queue := by
          obtain ⟨-, rfl⟩ := dropStaleKeys_eq_ok_iff.mp hd
          rfl
        cases hpending : d.headPending with
        -- The first token may still turn out to be a key, so reading goes on.
        | true =>
          refine ⟨i, s', Nat.le_succ_of_le hi, ?_, hreads, hs', hahead, hsize'.trans hsize⟩
          simp [Scanner.settle, hempty, hd, hpending, hdread, hm, hsettle, Bind.bind, Except.bind]
        -- The first token is settled, and all that is left is still to be read.
        | false =>
          refine ⟨n + 1, d, Nat.le_refl _, ?_, ?_, ⟨hdqueue ▸ hempty, hfresh, hpending⟩, hdkeys, hdsize⟩
          · simp [Scanner.settle, hempty, hd, hpending, Bind.bind, Except.bind, Pure.pure, Except.pure]
          · rw [reads, hdread]
            exact hr

theorem HeadSettled.hold_advance {s : Scanner} {t : Token} {q : List Token} (hq : s.queue = t :: q) :
    s.advance.hold t = s := by
  obtain ⟨c, size, queue, taken, indent, outer, allowed, keys⟩ := s
  cases hq
  rfl

/-- Keys that are pending are behind a first token that is settled. -/
theorem HeadSettled.keysAhead {s : Scanner} (h : s.HeadSettled) (hkeys : s.KeysAhead) :
    s.advance.KeysAhead := by
  intro k hk
  have hne : k.number ≠ s.taken := by
    have := List.any_eq_false.mp h.head _ hk
    simpa using this
  have hle : s.taken ≤ k.number := hkeys k hk
  show s.taken + 1 ≤ k.number
  omega

/-- A scanner that reads all of its text hands out, when asked one by one, what it reads. -/
theorem supplies_of_reads {n : Nat} {s e : Scanner} (hr : s.reads n = .ok e) (hkeys : s.KeysAhead)
    (hend : ∀ k ∈ e.keys, k = none) (hn : n ≤ s.size + 2) :
    s.Supplies (e.queue.map (·.kind)) := by
  generalize hts : e.queue = ts
  induction ts generalizing n s e with
  | nil => trivial
  | cons t ts ih =>
    obtain ⟨m, s', hm, hsettle, hreads, hs', hahead, hsize⟩ :=
      exists_settle (Nat.lt_succ_of_le hn) hr hkeys hend (by simp [hts])
    obtain ⟨u, q, hq⟩ := List.exists_cons_of_ne_nil hs'.queue
    have hkeys' := hs'.keysAhead hahead
    -- What is read with the first token in the queue is what is read without it.
    have hhold := (steady_reads m).commutes s'.advance u (Nat.le_add_left _ _) hkeys'
    rw [HeadSettled.hold_advance hq, hreads] at hhold
    cases hrest : s'.advance.reads m with
    | error f => simp [hrest, Except.map] at hhold
    | ok e' =>
      simp only [hrest, Except.map, Except.ok.injEq] at hhold
      subst hhold
      obtain ⟨rfl, rfl⟩ := List.cons.inj hts
      have hpeek : s.peek = .ok (u, s') := by
        simp [peek, hsettle, hq, Bind.bind, Except.bind, Pure.pure, Except.pure]
      have hagain : s'.peek = .ok (u, s') := by
        simp [peek, hs'.settle, hq, Bind.bind, Except.bind, Pure.pure, Except.pure]
      refine ⟨u, s', hpeek, rfl, hagain, ih hrest hkeys' hend ?_ rfl⟩
      show m ≤ s'.size + 2
      omega

end Scanner

end QueryPlayground.Yaml
