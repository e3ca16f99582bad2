import QueryPlayground.Proofs.History.Paging

/-!
# Searching for a piece of an entry

A search compares lowercase texts, and the lowercase of a capital sigma depends on what stands around
it. A piece of an entry is found by its own text as long as each capital sigma in it stands between
neighbours that settle its form inside the piece; other pieces have an entry that has them and is not
found by them. The neighbours of a character are the nearest ones that case rules do not pass over.

Main statement: `settled_iff_found`. The word ΚΟΣΜΟΣ, which a search for its first three letters
misses, is `not_found_of_sigma_inside`.
-/

namespace QueryPlayground.Text

/-! ## §1 Lowercase inside a text -/

/-- The lowercase of a text between the text before it, in reverse, and the text after it. -/
def lowerWithin (before : List Char) : List Char → List Char → List Char
  | [], _ => []
  | c :: cs, after => lowerBetween before c (cs ++ after) ++ lowerWithin (c :: before) cs after

theorem lowerWithin_append (before cs rest after : List Char) :
    lowerWithin before (cs ++ rest) after =
      lowerWithin before cs (rest ++ after) ++ lowerWithin (cs.reverse ++ before) rest after := by
  induction cs generalizing before with
  | nil => rfl
  | cons c cs ih =>
    rw [List.cons_append, lowerWithin, ih (c :: before), lowerWithin]
    simp

theorem lowerFrom_eq (before done cs : List Char) :
    lowerFrom before done cs = done.reverse ++ lowerWithin before cs [] := by
  induction cs generalizing before done with
  | nil => simp [lowerFrom, lowerWithin]
  | cons c cs ih =>
    rw [lowerFrom, ih, lowerWithin]
    simp

/-- In a text of ASCII characters each character has its lowercase alone. -/
theorem lowerWithin_of_ascii {cs : List Char} (h : cs.all (·.toNat < 128) = true)
    (before after : List Char) : lowerWithin before cs after = cs.map Char.toLower := by
  induction cs generalizing before with
  | nil => rfl
  | cons c cs ih =>
    rw [List.all_cons, Bool.and_eq_true, decide_eq_true_eq] at h
    have hsigma : c.toNat ≠ 0x3A3 := by omega
    rw [lowerWithin, ih h.2, lowerBetween, if_neg hsigma, lowerChar, if_pos h.1]
    rfl

theorem lowerChars_eq (cs : List Char) : lowerChars cs = lowerWithin [] cs [] := by
  unfold lowerChars
  split
  next h => exact (lowerWithin_of_ascii h [] []).symm
  next => rw [lowerFrom_eq, List.reverse_nil, List.nil_append]

/-! ## §2 Capital sigmas -/

/-- The capital sigma. -/
def capitalSigma : Char := Char.ofNat 0x3A3

/-- The small sigma at the end of a word. -/
def finalSigma : Char := Char.ofNat 0x3C2

/-- The small sigma elsewhere. -/
def smallSigma : Char := Char.ofNat 0x3C3

/-- The nearest character that case rules do not pass over. -/
def neighbor? (cs : List Char) : Option Char :=
  (cs.dropWhile isCaseIgnorable).head?

/-- The form of a capital sigma between two texts does not depend on what stands around them: it has
a neighbour on both sides, or one before it without case or one behind it with case. -/
def SettlesSigma (before after : List Char) : Prop :=
  match neighbor? before, neighbor? after with
  | some _, some _ => True
  | some c, none => isCased c = false
  | none, some c => isCased c = true
  | none, none => False

/-- A text in which the form of each capital sigma is settled. -/
def Settled (cs : List Char) : Prop :=
  ∀ before after, cs = before ++ capitalSigma :: after → SettlesSigma before.reverse after

theorem meetsCased_eq (cs : List Char) : meetsCased cs = (neighbor? cs).any isCased := by
  unfold meetsCased neighbor?
  cases cs.dropWhile isCaseIgnorable <;> rfl

/-- A neighbour is sought further away only where there is none. -/
theorem neighbor?_append (cs rest : List Char) :
    neighbor? (cs ++ rest) = (neighbor? cs).or (neighbor? rest) := by
  induction cs with
  | nil => rfl
  | cons c cs ih =>
    unfold neighbor? at ih ⊢
    rw [List.cons_append, List.dropWhile_cons, List.dropWhile_cons]
    split
    next => exact ih
    next => rfl

theorem lowerBetween_capitalSigma (before after : List Char) :
    lowerBetween before capitalSigma after =
      [if meetsCased before && !meetsCased after then finalSigma else smallSigma] :=
  rfl

theorem lowerBetween_of_ne {c : Char} (h : c ≠ capitalSigma) (before after : List Char) :
    lowerBetween before c after = lowerChar c := by
  have hsigma : c.toNat ≠ 0x3A3 := by
    intro hc
    apply h
    rw [← Char.ofNat_toNat c, hc]
    rfl
  rw [lowerBetween, if_neg hsigma]

theorem lowerBetween_of_settles {before after : List Char} (h : SettlesSigma before after)
    (front back : List Char) :
    lowerBetween (before ++ front) capitalSigma (after ++ back) =
      lowerBetween before capitalSigma after := by
  simp only [lowerBetween_capitalSigma, meetsCased_eq, neighbor?_append]
  unfold SettlesSigma at h
  cases hbefore : neighbor? before <;> cases hafter : neighbor? after <;> simp_all

/-- A settled text has the same lowercase wherever it stands. -/
theorem lowerWithin_of_settled {cs : List Char} (h : Settled cs) (front back : List Char) :
    lowerWithin front cs back = lowerWithin [] cs [] := by
  -- Generalised to what is left of the text behind a part of it.
  have hrest (done rest : List Char) (hsplit : cs = done.reverse ++ rest) :
      lowerWithin (done ++ front) rest back = lowerWithin done rest [] := by
    induction rest generalizing done with
    | nil => rfl
    | cons c rest ih =>
      have hmore := ih (c :: done) (by simpa using hsplit)
      rw [List.cons_append] at hmore
      rw [lowerWithin, lowerWithin, hmore, List.append_nil]
      by_cases hc : c = capitalSigma
      · subst hc
        have hsettles := h done.reverse rest hsplit
        rw [List.reverse_reverse] at hsettles
        rw [lowerBetween_of_settles hsettles]
      · rw [lowerBetween_of_ne hc, lowerBetween_of_ne hc]
  exact hrest [] cs rfl

theorem infix_lowerChars_of_settled {cs text : List Char} (h : Settled cs) (hpiece : cs <:+: text) :
    lowerChars cs <:+: lowerChars text := by
  obtain ⟨front, back, rfl⟩ := hpiece
  refine ⟨lowerWithin [] front (cs ++ back), lowerWithin (cs.reverse ++ front.reverse) back [], ?_⟩
  rw [lowerChars_eq, lowerChars_eq, List.append_assoc front, lowerWithin_append, lowerWithin_append,
    lowerWithin_of_settled h (front.reverse ++ [])]
  simp

/-! ## §3 Sigmas that are not settled -/

/-- A text has no more of something in its lowercase at one place than at another if none of its
characters has. -/
theorem count_lowerWithin_le {x : Char} {front back front' back' : List Char} (cs : List Char)
    (h : ∀ before c after, cs = before ++ c :: after →
      (lowerBetween (before.reverse ++ front) c (after ++ back)).count x ≤
        (lowerBetween (before.reverse ++ front') c (after ++ back')).count x) :
    (lowerWithin front cs back).count x ≤ (lowerWithin front' cs back').count x := by
  induction cs generalizing front front' with
  | nil => exact Nat.le_refl _
  | cons c cs ih =>
    rw [lowerWithin, lowerWithin, List.count_append, List.count_append]
    refine Nat.add_le_add (h [] c cs rfl) (ih fun before d after hsplit => ?_)
    simpa using h (c :: before) d after (by rw [hsplit, List.cons_append])

/-- And it has less of it if one of its characters has less. -/
theorem count_lowerWithin_lt {x c : Char} {front back front' back' before after : List Char}
    (h : ∀ start d rest, before ++ c :: after = start ++ d :: rest →
      (lowerBetween (start.reverse ++ front) d (rest ++ back)).count x ≤
        (lowerBetween (start.reverse ++ front') d (rest ++ back')).count x)
    (hlt : (lowerBetween (before.reverse ++ front) c (after ++ back)).count x <
      (lowerBetween (before.reverse ++ front') c (after ++ back')).count x) :
    (lowerWithin front (before ++ c :: after) back).count x <
      (lowerWithin front' (before ++ c :: after) back').count x := by
  rw [lowerWithin_append, lowerWithin_append, lowerWithin, lowerWithin]
  simp only [List.count_append, List.cons_append]
  -- The texts before the character and behind it have no more, and the character has less.
  have hfirst : (lowerWithin front before (c :: (after ++ back))).count x ≤
      (lowerWithin front' before (c :: (after ++ back'))).count x := by
    apply count_lowerWithin_le
    rintro start d rest rfl
    simpa using h start d (rest ++ c :: after) (by simp)
  have hlast : (lowerWithin (c :: (before.reverse ++ front)) after back).count x ≤
      (lowerWithin (c :: (before.reverse ++ front')) after back').count x := by
    apply count_lowerWithin_le
    rintro start d rest rfl
    simpa using h (before ++ c :: start) d rest (by simp)
  omega

/-- Around a capital sigma that is not settled a letter can be put, before the text or behind it, that
takes its form away from it. -/
theorem exists_letter_of_not_settles {before after : List Char} (h : ¬ SettlesSigma before after) :
    ∃ x front back, (front = [] ∧ back = ['a'] ∨ front = ['a'] ∧ back = []) ∧
      (x = finalSigma ∨ x = smallSigma) ∧
      (lowerBetween (before ++ front) capitalSigma (after ++ back)).count x <
        (lowerBetween before capitalSigma after).count x ∧
      ∀ start rest, (lowerBetween (start ++ front) capitalSigma (rest ++ back)).count x ≤
        (lowerBetween start capitalSigma rest).count x := by
  have hletter : neighbor? ['a'] = some 'a' := by decide
  have hcased : isCased 'a' = true := by decide
  have hnil : neighbor? [] = none := rfl
  have hne : finalSigma ≠ smallSigma := by decide
  have hne' : smallSigma ≠ finalSigma := by decide
  simp only [lowerBetween_capitalSigma, meetsCased_eq, neighbor?_append]
  unfold SettlesSigma at h
  cases hbefore : neighbor? before with
  | some c =>
    -- A letter behind the text makes a sigma one inside a word.
    cases hafter : neighbor? after with
    | some d => simp [hbefore, hafter] at h
    | none =>
      refine ⟨finalSigma, [], ['a'], .inl ⟨rfl, rfl⟩, .inl rfl, ?_, fun start rest => ?_⟩
      · simp_all
      · cases neighbor? start <;> cases neighbor? rest <;> simp_all [List.count_singleton]
  | none =>
    -- A letter in front of the text makes it one at the end of a word.
    refine ⟨smallSigma, ['a'], [], .inr ⟨rfl, rfl⟩, .inr rfl, ?_, fun start rest => ?_⟩
    · cases hafter : neighbor? after <;> simp_all
    · cases neighbor? start with
      | some c => cases neighbor? rest <;> simp_all [List.count_singleton]
      | none =>
        cases neighbor? rest with
        | none => simp_all
        | some d => cases hd : isCased d <;> simp_all

/-- A text that is not settled stands in one whose lowercase does not have the lowercase of it. -/
theorem exists_not_infix_of_not_settled {cs : List Char} (h : ¬ Settled cs) :
    ∃ text, cs <:+: text ∧ ¬ lowerChars cs <:+: lowerChars text := by
  unfold Settled at h
  push Not at h
  obtain ⟨before, after, rfl, hsigma⟩ := h
  obtain ⟨x, front, back, hletter, hx, hlt, hle⟩ := exists_letter_of_not_settles hsigma
  refine ⟨front ++ (before ++ capitalSigma :: after) ++ back, ⟨front, back, rfl⟩, ?_⟩
  intro hpiece
  -- The letter adds none of the sigmas of the one form, and takes one away.
  have hless : (lowerWithin front (before ++ capitalSigma :: after) back).count x <
      (lowerWithin [] (before ++ capitalSigma :: after) []).count x := by
    apply count_lowerWithin_lt
    · intro start d rest _
      by_cases hd : d = capitalSigma
      · subst hd
        simpa using hle start.reverse rest
      · exact Nat.le_of_eq (by rw [lowerBetween_of_ne hd, lowerBetween_of_ne hd])
    · simpa using hlt
  -- A piece has no more of a form than the whole, in which only the text has any.
  have hcount := hpiece.sublist.count_le x
  rw [lowerChars_eq, lowerChars_eq, List.append_assoc front, lowerWithin_append [] front,
    lowerWithin_append _ (before ++ capitalSigma :: after) back] at hcount
  have hnone (around rest : List Char) : (lowerWithin around ['a'] rest).count x = 0 := by
    rw [lowerWithin_of_ascii (by decide)]
    obtain rfl | rfl := hx <;> decide
  have hletters (around around' rest rest' : List Char) :
      (lowerWithin around front rest).count x = 0 ∧ (lowerWithin around' back rest').count x = 0 := by
    obtain ⟨rfl, rfl⟩ | ⟨rfl, rfl⟩ := hletter
    · exact ⟨rfl, hnone around' rest'⟩
    · exact ⟨hnone around rest, rfl⟩
  have hback : lowerWithin (front.reverse ++ []) (before ++ capitalSigma :: after) (back ++ []) =
      lowerWithin front (before ++ capitalSigma :: after) back := by
    obtain ⟨rfl, rfl⟩ | ⟨rfl, rfl⟩ := hletter <;> rfl
  rw [hback, List.count_append, List.count_append, (hletters _ [] _ []).1, (hletters [] _ [] _).2]
    at hcount
  omega

end QueryPlayground.Text

namespace QueryPlayground.History

/-! ## §4 What is found by its own text -/

/-- A text whose capital sigmas are settled finds every entry that has it, and no other text does. -/
theorem settled_iff_found (needle : String) :
    Text.Settled needle.toList ↔
      ∀ (t : Table) (order : Order) (l : List Entry), t.Lists (some needle) order l →
        ∀ e ∈ t.rows, needle.toList <:+: e.content.toList → e ∈ l := by
  constructor
  · intro hsettled t order l hl e he hpiece
    refine (hl.mem_iff e).mpr ⟨he, ?_⟩
    intro text htext
    obtain rfl := Option.mem_some.mp htext
    exact Text.infix_lowerChars_of_settled hsettled hpiece
  · intro hfound
    by_contra hsettled
    obtain ⟨text, hpiece, hmissed⟩ := Text.exists_not_infix_of_not_settled hsettled
    -- A table of the one entry that the letter next to the text makes.
    let e : Entry := ⟨1, 0, String.ofList text⟩
    let t : Table := ⟨[e], 1⟩
    have hd : DistinctIds t.rows := List.nodup_singleton _
    have hl := Table.lists_filter_ordered hd (some needle) .ascending
    have he := hfound t .ascending _ hl e (List.mem_singleton_self e) (by simpa [e] using hpiece)
    have hmatches := ((hl.mem_iff e).mp he).2 needle rfl
    rw [String.toList_ofList] at hmatches
    exact hmissed hmatches

/-- The first letters of an entry find it until one that is a capital sigma inside its word. -/
theorem not_found_of_sigma_inside :
    let e : Entry := ⟨1, 900, "ΚΟΣΜΟΣ"⟩
    "ΚΟΣ".toList <:+: e.content.toList ∧
      Table.query ⟨[e], 1⟩ ⟨0, 20, some "ΚΟ", .descending⟩ = ⟨[e], false⟩ ∧
      Table.query ⟨[e], 1⟩ ⟨0, 20, some "ΚΟΣ", .descending⟩ = ⟨[], false⟩ := by
  intro e
  refine ⟨⟨[], "ΜΟΣ".toList, by decide⟩, by decide +kernel, by decide +kernel⟩

end QueryPlayground.History
