import QueryPlayground.Proofs.Json.Token

/-!
# The texts that spell a value

A grammar of JSON texts with space at every place where it is allowed: a value of words, numbers,
strings and nested lists is spelled by many texts, which differ in their space and in the order of
members. The reader takes each of them to the value, in front of any text that does not go on as a
number, and the fuel it starts with is always enough.

Main statements: `reads` and `Spells.parseChars`.
-/

namespace QueryPlayground.Json

/-! ## §1 The grammar -/

/-- Nothing but space. -/
def IsGap (cs : List Char) : Prop :=
  ∀ c ∈ cs, isSpace c = true

/-- The members of an object that has these written in it, in order. -/
def Members.collect (ms done : List (String × Value)) : List (String × Value) :=
  ms.foldl (fun done m => Members.insert m.1 m.2 done) done

mutual

/-- A text without space at its ends that spells a value, with at most so many levels of arrays and
objects. -/
inductive Spells : Nat → Value → List Char → Prop where
  | null {d : Nat} : Spells d .null ['n', 'u', 'l', 'l']
  | yes {d : Nat} : Spells d (.bool true) ['t', 'r', 'u', 'e']
  | no {d : Nat} : Spells d (.bool false) ['f', 'a', 'l', 's', 'e']
  | int {d : Nat} {n : Int} : IsWord n → Spells d (.int n) (intChars n)
  | str {d : Nat} {s : String} : Spells d (.str s) (quote s)
  | emptyArr {d : Nat} {a : List Char} : IsGap a → Spells (d + 1) (.arr []) ('[' :: (a ++ [']']))
  | arr {d : Nat} {items : List Value} {cs : List Char} :
      SpellsItems d items cs → Spells (d + 1) (.arr items) ('[' :: (cs ++ [']']))
  | emptyObj {d : Nat} {a : List Char} : IsGap a → Spells (d + 1) (.obj []) ('{' :: (a ++ ['}']))
  | obj {d : Nat} {ms : List (String × Value)} {cs : List Char} :
      SpellsMembers d ms cs → Spells (d + 1) (.obj (Members.collect ms [])) ('{' :: (cs ++ ['}']))

/-- The items of an array between its brackets, of which there is at least one. -/
inductive SpellsItems : Nat → List Value → List Char → Prop where
  | last {d : Nat} {v : Value} {a cs b : List Char} :
      IsGap a → Spells d v cs → IsGap b → SpellsItems d [v] (a ++ (cs ++ b))
  | cons {d : Nat} {v : Value} {vs : List Value} {a cs b more : List Char} :
      IsGap a → Spells d v cs → IsGap b → SpellsItems d vs more →
      SpellsItems d (v :: vs) (a ++ (cs ++ (b ++ ',' :: more)))

/-- The members of an object between its braces, of which there is at least one. -/
inductive SpellsMembers : Nat → List (String × Value) → List Char → Prop where
  | last {d : Nat} {k : String} {v : Value} {a b c cs e : List Char} :
      IsGap a → IsGap b → IsGap c → Spells d v cs → IsGap e →
      SpellsMembers d [(k, v)] (a ++ (quote k ++ (b ++ ':' :: (c ++ (cs ++ e)))))
  | cons {d : Nat} {k : String} {v : Value} {ms : List (String × Value)}
      {a b c cs e more : List Char} :
      IsGap a → IsGap b → IsGap c → Spells d v cs → IsGap e → SpellsMembers d ms more →
      SpellsMembers d ((k, v) :: ms)
        (a ++ (quote k ++ (b ++ ':' :: (c ++ (cs ++ (e ++ ',' :: more))))))

end

/-! ## §2 Space -/

theorem isGap_nil : IsGap [] := by
  simp [IsGap]

theorem isGap_singleton {c : Char} (h : isSpace c = true) : IsGap [c] := by
  simpa [IsGap] using h

theorem IsGap.append {a b : List Char} (ha : IsGap a) (hb : IsGap b) : IsGap (a ++ b) := by
  intro c hc
  rcases List.mem_append.mp hc with hc | hc
  exacts [ha c hc, hb c hc]

/-- A text in front of which no space has to be skipped. -/
def IsSharp (cs : List Char) : Prop :=
  ∃ c rest, cs = c :: rest ∧ isSpace c = false

theorem IsSharp.append {cs : List Char} (h : IsSharp cs) (rest : List Char) :
    IsSharp (cs ++ rest) := by
  obtain ⟨c, tail, rfl, hc⟩ := h
  exact ⟨c, tail ++ rest, rfl, hc⟩

theorem isSharp_cons {c : Char} (h : isSpace c = false) (cs : List Char) : IsSharp (c :: cs) :=
  ⟨c, cs, rfl, h⟩

@[simp]
theorem skipSpace_append {a cs : List Char} (ha : IsGap a) (hcs : IsSharp cs) :
    skipSpace (a ++ cs) = cs := by
  obtain ⟨c, rest, rfl, hc⟩ := hcs
  rw [skipSpace, List.dropWhile_append_of_pos ha]
  simp [hc]

theorem skipSpace_of_isSharp {cs : List Char} (h : IsSharp cs) : skipSpace cs = cs := by
  simpa using skipSpace_append isGap_nil h

theorem isSharp_quote (s : String) : IsSharp (quote s) :=
  ⟨'"', _, rfl, by decide⟩

theorem not_isSpace_of_isDigit {c : Char} (h : c.isDigit = true) : isSpace c = false := by
  have hc : c ≠ ' ' ∧ c ≠ '\n' ∧ c ≠ '\t' ∧ c ≠ '\r' := by
    refine ⟨?_, ?_, ?_, ?_⟩ <;> rintro rfl <;> revert h <;> decide
  simp [isSpace, hc]

/-- A spelled value begins with a character of its own, which closes nothing. -/
theorem Spells.head {d : Nat} {v : Value} {cs : List Char} (h : Spells d v cs) :
    ∃ c rest, cs = c :: rest ∧ isSpace c = false ∧ c ≠ ']' := by
  cases h with
  | null | yes | no | str | emptyArr | arr | emptyObj | obj =>
    exact ⟨_, _, rfl, by decide, by decide⟩
  | int hn =>
    have hend : EndsNumber [] := by simp [EndsNumber]
    rcases number_intChars hn hend with ⟨c, ds, hds, hc, -⟩ | ⟨ds, hds, -⟩
    · refine ⟨c, ds, hds, not_isSpace_of_isDigit hc, ?_⟩
      rintro rfl
      exact absurd hc (by decide)
    · exact ⟨_, _, hds, by decide, by decide⟩

theorem Spells.isSharp {d : Nat} {v : Value} {cs : List Char} (h : Spells d v cs) : IsSharp cs := by
  obtain ⟨c, rest, hcs, hc, -⟩ := h.head
  exact ⟨c, rest, hcs, hc⟩

theorem Spells.length_pos {d : Nat} {v : Value} {cs : List Char} (h : Spells d v cs) :
    0 < cs.length := by
  obtain ⟨c, rest, rfl, -⟩ := h.head
  simp

/-- Behind a number may be space and the separators of collections. -/
theorem endsNumber_of_head {cs : List Char}
    (h : ∀ c, cs.head? = some c → isSpace c = true ∨ c ∈ [',', ']', '}']) : EndsNumber cs := by
  intro c hc
  rcases h c hc with hspace | hmem
  · simp only [isSpace, Bool.or_eq_true, decide_eq_true_eq] at hspace
    rcases hspace with ((rfl | rfl) | rfl) | rfl <;> decide
  · simp only [List.mem_cons, List.not_mem_nil, or_false] at hmem
    rcases hmem with rfl | rfl | rfl <;> decide

theorem endsNumber_of_isGap {a : List Char} (ha : IsGap a) : EndsNumber a :=
  endsNumber_of_head fun c hc => .inl (ha c (List.mem_of_mem_head? hc))

theorem endsNumber_append {a : List Char} (ha : IsGap a) {c : Char} (hc : c ∈ [',', ']', '}'])
    (rest : List Char) : EndsNumber (a ++ c :: rest) := by
  refine endsNumber_of_head fun b hb => ?_
  cases a with
  | nil =>
    obtain rfl : c = b := by simpa using hb
    exact .inr hc
  | cons a as =>
    obtain rfl : a = b := by simpa using hb
    exact .inl (ha a List.mem_cons_self)

/-! ## §3 Separators -/

/-- What stands in front of an item or a member: a comma, unless it is the first one. -/
def lead (first : Bool) : List Char :=
  if first then [] else [',']

theorem nextItem_of_closed {a : List Char} (ha : IsGap a) (first : Bool) (rest : List Char) :
    nextItem first (a ++ ']' :: rest) = .ok none := by
  rw [nextItem, skipSpace_append ha (isSharp_cons (by decide) rest)]
  rfl

theorem afterClose_append {a : List Char} (ha : IsGap a) {c : Char} (hc : isSpace c = false)
    (rest : List Char) : afterClose (a ++ c :: rest) = rest := by
  rw [afterClose, skipSpace_append ha (isSharp_cons hc rest)]
  rfl

/-- An item follows where a text begins that is no space and closes nothing. -/
theorem nextItem_of_head {a b cs : List Char} (h : ∃ c rest, cs = c :: rest ∧ isSpace c = false ∧ c ≠ ']')
    (ha : IsGap a) (hb : IsGap b) (first : Bool) (rest : List Char) :
    nextItem first (a ++ (lead first ++ (b ++ (cs ++ rest)))) = .ok (some (cs ++ rest)) := by
  obtain ⟨c, tail, rfl, hc, hclose⟩ := h
  have hsharp : IsSharp (c :: tail ++ rest) := isSharp_cons hc _
  cases first with
  | true =>
    have hskip : skipSpace (a ++ (b ++ (c :: tail ++ rest))) = c :: tail ++ rest := by
      rw [← List.append_assoc, skipSpace_append (ha.append hb) hsharp]
    show nextItem true (a ++ (b ++ (c :: tail ++ rest))) = _
    rw [nextItem, hskip]
    split <;> simp_all
  | false =>
    show nextItem false (a ++ ',' :: (b ++ (c :: tail ++ rest))) = _
    rw [nextItem, skipSpace_append ha (isSharp_cons (by decide) _)]
    have hskip : skipSpace (b ++ c :: (tail ++ rest)) = c :: (tail ++ rest) :=
      skipSpace_append hb hsharp
    simp [hskip, hclose]

theorem nextKey_of_closed {a : List Char} (ha : IsGap a) (first : Bool) (rest : List Char) :
    nextKey first (a ++ '}' :: rest) = .ok none := by
  rw [nextKey, skipSpace_append ha (isSharp_cons (by decide) rest)]
  rfl

theorem nextKey_of_quote {a b : List Char} (ha : IsGap a) (hb : IsGap b) (first : Bool) (k : String)
    (rest : List Char) :
    nextKey first (a ++ (lead first ++ (b ++ (quote k ++ rest)))) =
      .ok (some (k.toList.flatMap escapeChar ++ '"' :: rest)) := by
  rw [quote_append]
  cases first with
  | true =>
    show nextKey true (a ++ (b ++ '"' :: _)) = _
    rw [nextKey, ← List.append_assoc,
      skipSpace_append (ha.append hb) (isSharp_cons (by decide) _)]
    simp
  | false =>
    show nextKey false (a ++ ',' :: (b ++ '"' :: _)) = _
    rw [nextKey, skipSpace_append ha (isSharp_cons (by decide) _)]
    simp [skipSpace_append hb (isSharp_cons (by decide : isSpace '"' = false) _)]

theorem colon_append {b : List Char} (hb : IsGap b) (rest : List Char) :
    colon (b ++ ':' :: rest) = .ok rest := by
  rw [colon, skipSpace_append hb (isSharp_cons (by decide) rest)]
  rfl

/-! ## §4 Reading -/

theorem readValue_of_isDigit (fuel depth : Nat) {c : Char} (hc : c.isDigit = true)
    (rest : List Char) : readValue (fuel + 1) depth (c :: rest) = number false (c :: rest) := by
  have hne {e : Char} (he : e.isDigit = false) : c ≠ e := by
    rintro rfl
    exact Bool.noConfusion (hc.symm.trans he)
  rw [readValue, skipSpace_of_isSharp (isSharp_cons (not_isSpace_of_isDigit hc) rest)]
  split
  case h_9 => simp_all
  all_goals
    rename_i heq
    first
    | exact absurd heq (List.cons_ne_nil _ _)
    | exact absurd (List.cons.inj heq).1 (hne (by decide))

theorem readValue_quote (fuel depth : Nat) (s : String) (rest : List Char) :
    readValue (fuel + 1) depth (quote s ++ rest) = .ok (.str s, rest) := by
  rw [readValue, skipSpace_of_isSharp ((isSharp_quote s).append rest), quote_append]
  simp only [string_quote, bind, Except.bind, pure, Except.pure]

theorem readValue_intChars (fuel depth : Nat) {n : Int} (hn : IsWord n) {rest : List Char}
    (hrest : EndsNumber rest) :
    readValue (fuel + 1) depth (intChars n ++ rest) = .ok (.int n, rest) := by
  rcases number_intChars hn hrest with ⟨c, ds, hds, hc, hread⟩ | ⟨ds, hds, hread⟩
  · rw [hds, List.cons_append, readValue_of_isDigit fuel depth hc, hread]
  · rw [hds, List.cons_append, readValue,
      skipSpace_of_isSharp (isSharp_cons (by decide) _)]
    exact hread

/-- Space in front of a value does not count. -/
theorem readValue_append {a cs : List Char} (ha : IsGap a) (hcs : IsSharp cs) (fuel depth : Nat) :
    readValue (fuel + 1) depth (a ++ cs) = readValue (fuel + 1) depth cs := by
  rw [readValue, readValue, skipSpace_append ha hcs, skipSpace_of_isSharp hcs]

theorem readItems_of_closed (fuel depth : Nat) (first : Bool) (done : List Value) {a : List Char}
    (ha : IsGap a) (rest : List Char) :
    readItems (fuel + 1) depth first done (a ++ ']' :: rest) = .ok (.arr done.reverse, rest) := by
  rw [readItems, nextItem_of_closed ha]
  simp only [afterClose_append ha (by decide : isSpace ']' = false)]

theorem readMembers_of_closed (fuel depth : Nat) (first : Bool) (done : List (String × Value))
    {a : List Char} (ha : IsGap a) (rest : List Char) :
    readMembers (fuel + 1) depth first done (a ++ '}' :: rest) = .ok (.obj done, rest) := by
  rw [readMembers, nextKey_of_closed ha]
  simp only [afterClose_append ha (by decide : isSpace '}' = false)]

/-- Behind an item the reader goes on with those that are left. -/
theorem readItems_of_spells {fuel d : Nat} {v : Value} {a b cs : List Char} (h : Spells d v cs)
    (ha : IsGap a) (hb : IsGap b) (first : Bool) (done : List Value) {rest : List Char}
    (hread : readValue fuel d (cs ++ rest) = .ok (v, rest)) :
    readItems (fuel + 1) d first done (a ++ (lead first ++ (b ++ (cs ++ rest)))) =
      readItems fuel d false (v :: done) rest := by
  rw [readItems, nextItem_of_head h.head ha hb]
  simp only [hread]

/-- Behind a member the reader goes on with those that are left. -/
theorem readMembers_of_quote {fuel d : Nat} {k : String} {v : Value} {a b c cs rest : List Char}
    (ha : IsGap a) (hb : IsGap b) (hc : IsGap c) (first : Bool) (done : List (String × Value))
    (hread : readValue fuel d cs = .ok (v, rest)) :
    readMembers (fuel + 1) d first done
        (a ++ (lead first ++ (b ++ (quote k ++ (c ++ ':' :: cs))))) =
      readMembers fuel d false (Members.insert k v done) rest := by
  rw [readMembers, nextKey_of_quote ha hb]
  simp only [string_quote, colon_append hc, hread]

/-- What is read at some amount of fuel: every value that is spelled in front, and the items and
members that are left of a collection whose first ones are read. -/
structure Reads (fuel : Nat) : Prop where
  value {d : Nat} {v : Value} {a cs rest : List Char} :
    IsGap a → Spells d v cs → 2 * cs.length ≤ fuel → EndsNumber rest →
    readValue fuel d (a ++ (cs ++ rest)) = .ok (v, rest)
  items {d : Nat} {vs : List Value} {a cs : List Char} (done : List Value) (rest : List Char)
    (first : Bool) :
    IsGap a → SpellsItems d vs cs → 2 * cs.length + 2 ≤ fuel →
    readItems fuel d first done (a ++ (lead first ++ (cs ++ ']' :: rest))) =
      .ok (.arr (done.reverse ++ vs), rest)
  members {d : Nat} {ms : List (String × Value)} {a cs : List Char}
    (done : List (String × Value)) (rest : List Char) (first : Bool) :
    IsGap a → SpellsMembers d ms cs → 2 * cs.length + 2 ≤ fuel →
    readMembers fuel d first done (a ++ (lead first ++ (cs ++ '}' :: rest))) =
      .ok (.obj (Members.collect ms done), rest)

/-- A collection is read by reading what it holds with less fuel. -/
theorem Reads.value_succ {fuel : Nat} (h : Reads fuel) {d : Nat} {v : Value} {cs rest : List Char}
    (hv : Spells d v cs) (hfuel : 2 * cs.length ≤ fuel + 1) (hrest : EndsNumber rest) :
    readValue (fuel + 1) d (cs ++ rest) = .ok (v, rest) := by
  cases hv with
  | null | yes | no => simp [readValue, skipSpace, isSpace, word]
  | int hn => exact readValue_intChars fuel d hn hrest
  | str => exact readValue_quote fuel d _ rest
  | @emptyArr d a ha =>
    obtain ⟨fuel, rfl⟩ : ∃ n, fuel = n + 1 := ⟨fuel - 1, by grind⟩
    rw [List.cons_append, List.append_assoc, readValue, skipSpace_of_isSharp ⟨_, _, rfl, by decide⟩]
    exact readItems_of_closed fuel d true [] ha rest
  | @arr d items cs hitems =>
    rw [List.cons_append, List.append_assoc, readValue, skipSpace_of_isSharp ⟨_, _, rfl, by decide⟩]
    simp only [List.length_cons, List.length_append, List.length_nil] at hfuel
    exact h.items [] rest true isGap_nil hitems (by omega)
  | @emptyObj d a ha =>
    obtain ⟨fuel, rfl⟩ : ∃ n, fuel = n + 1 := ⟨fuel - 1, by grind⟩
    rw [List.cons_append, List.append_assoc, readValue, skipSpace_of_isSharp ⟨_, _, rfl, by decide⟩]
    exact readMembers_of_closed fuel d true [] ha rest
  | @obj d ms cs hms =>
    rw [List.cons_append, List.append_assoc, readValue, skipSpace_of_isSharp ⟨_, _, rfl, by decide⟩]
    simp only [List.length_cons, List.length_append, List.length_nil] at hfuel
    exact h.members [] rest true isGap_nil hms (by omega)

/-- An item takes one round of the reader, and behind it stands the end or the comma in front of more.
-/
theorem Reads.items_succ {fuel : Nat} (h : Reads fuel) {d : Nat} {vs done : List Value}
    {a cs rest : List Char} (first : Bool) (ha : IsGap a) (hvs : SpellsItems d vs cs)
    (hfuel : 2 * cs.length + 2 ≤ fuel + 1) :
    readItems (fuel + 1) d first done (a ++ (lead first ++ (cs ++ ']' :: rest))) =
      .ok (.arr (done.reverse ++ vs), rest) := by
  cases hvs with
  | @last d v b cs e hb hv he =>
    simp only [List.length_append] at hfuel
    have hread : readValue fuel d (cs ++ (e ++ ']' :: rest)) = .ok (v, e ++ ']' :: rest) :=
      h.value isGap_nil hv (by omega) (endsNumber_append he (by simp) rest)
    obtain ⟨fuel, rfl⟩ : ∃ n, fuel = n + 1 := ⟨fuel - 1, by have := hv.length_pos; omega⟩
    rw [List.append_assoc, List.append_assoc, readItems_of_spells hv ha hb first done hread,
      readItems_of_closed fuel d false _ he]
    simp
  | @cons d v vs b cs e more hb hv he hmore =>
    simp only [List.length_append, List.length_cons] at hfuel
    have hread : readValue fuel d (cs ++ (e ++ ',' :: (more ++ ']' :: rest))) =
        .ok (v, e ++ ',' :: (more ++ ']' :: rest)) :=
      h.value isGap_nil hv (by omega) (endsNumber_append he (by simp) _)
    have hmore' := h.items (v :: done) rest false he hmore (by omega)
    rw [List.append_assoc, List.append_assoc, List.append_assoc, List.cons_append,
      readItems_of_spells hv ha hb first done hread]
    simpa [lead] using hmore'

/-- A member takes one round of the reader, like an item, and is collected with those that are found.
-/
theorem Reads.members_succ {fuel : Nat} (h : Reads fuel) {d : Nat} {ms done : List (String × Value)}
    {a cs rest : List Char} (first : Bool) (ha : IsGap a) (hms : SpellsMembers d ms cs)
    (hfuel : 2 * cs.length + 2 ≤ fuel + 1) :
    readMembers (fuel + 1) d first done (a ++ (lead first ++ (cs ++ '}' :: rest))) =
      .ok (.obj (Members.collect ms done), rest) := by
  cases hms with
  | @last d k v b c g cs e hb hc hg hv he =>
    simp only [List.length_append, List.length_cons] at hfuel
    have hread : readValue fuel d (g ++ (cs ++ (e ++ '}' :: rest))) = .ok (v, e ++ '}' :: rest) :=
      h.value hg hv (by omega) (endsNumber_append he (by simp) rest)
    obtain ⟨fuel, rfl⟩ : ∃ n, fuel = n + 1 := ⟨fuel - 1, by have := hv.length_pos; omega⟩
    simp only [List.append_assoc, List.cons_append]
    rw [readMembers_of_quote ha hb hc first done hread, readMembers_of_closed fuel d false _ he]
    rfl
  | @cons d k v ms b c g cs e more hb hc hg hv he hmore =>
    simp only [List.length_append, List.length_cons] at hfuel
    have hread : readValue fuel d (g ++ (cs ++ (e ++ ',' :: (more ++ '}' :: rest)))) =
        .ok (v, e ++ ',' :: (more ++ '}' :: rest)) :=
      h.value hg hv (by omega) (endsNumber_append he (by simp) _)
    have hmore' := h.members (Members.insert k v done) rest false he hmore (by omega)
    simp only [List.append_assoc, List.cons_append]
    rw [readMembers_of_quote ha hb hc first done hread]
    simpa [lead, Members.collect] using hmore'

/-- The fuel that a text needs grows with its length, two for each character. -/
theorem reads (fuel : Nat) : Reads fuel := by
  induction fuel with
  | zero =>
    constructor
    case value =>
      intro d v a cs rest _ hv hfuel _
      have := hv.length_pos
      omega
    case items => intros; omega
    case members => intros; omega
  | succ fuel ih =>
    constructor
    case value =>
      intro d v a cs rest ha hv hfuel hrest
      rw [readValue_append ha (hv.isSharp.append rest)]
      exact ih.value_succ hv hfuel hrest
    case items => exact fun _ _ first ha hvs hfuel => ih.items_succ first ha hvs hfuel
    case members => exact fun _ _ first ha hms hfuel => ih.members_succ first ha hms hfuel

/-- A text that spells a value, with space around it, is read to the value. -/
theorem Spells.parseChars {v : Value} {a cs b : List Char} (h : Spells maxDepth v cs) (ha : IsGap a)
    (hb : IsGap b) : Value.parseChars (a ++ (cs ++ b)) = .ok v := by
  have hread : Value.read (a ++ (cs ++ b)) = .ok (v, b) := by
    refine (reads _).value ha h ?_ (endsNumber_of_isGap hb)
    simp only [enough, List.length_append]
    omega
  have hskip : skipSpace (b ++ []) = [] := List.dropWhile_append_of_pos hb
  rw [List.append_nil] at hskip
  rw [Value.parseChars, hread]
  simp [bind, Except.bind, pure, Except.pure, atEnd, hskip]

theorem Spells.parseChars_alone {v : Value} {cs : List Char} (h : Spells maxDepth v cs) :
    Value.parseChars cs = .ok v := by
  simpa using h.parseChars isGap_nil isGap_nil

end QueryPlayground.Json
