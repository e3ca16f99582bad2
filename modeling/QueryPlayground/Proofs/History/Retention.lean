import Mathlib.Data.List.Destutter
import Mathlib.Data.List.DropRight
import QueryPlayground.Proofs.History.Numbering
import QueryPlayground.Proofs.History.Recording

/-!
# What a history retains

A history that begins without entries shows, at any time, the end of the sequence of texts that were
recorded in it: leave out of all texts those that cannot be recorded at all, collapse every run of
equal ones to one, and keep as many from the end as there may be entries. The readings of the clock
play no part in it. Numbers come to an end after the greatest one, and with them the sequence.

Main statement: `Database.contents_insertEach`.
-/

namespace QueryPlayground.History

/-! ## §1 Sequences of texts -/

section Sequences

variable {α : Type} [DecidableEq α]

private theorem destutter'_concat (l : List α) (a b : α) :
    (l ++ [b]).destutter' (· ≠ ·) a =
      if (l.destutter' (· ≠ ·) a).getLast? = some b then l.destutter' (· ≠ ·) a
      else l.destutter' (· ≠ ·) a ++ [b] := by
  induction l generalizing a with
  | nil => by_cases h : a = b <;> simp [h]
  | cons c l ih =>
    by_cases h : a = c
    · subst h
      simpa using ih a
    · rw [List.cons_append, List.destutter'_cons_pos _ h, List.destutter'_cons_pos _ h, ih c,
        List.getLast?_cons_of_ne_nil (List.destutter'_ne_nil _ _)]
      split <;> rfl

/-- One more element at the end of a sequence is collapsed into the last one if it equals it. -/
theorem destutter_concat (l : List α) (b : α) :
    (l ++ [b]).destutter (· ≠ ·) =
      if (l.destutter (· ≠ ·)).getLast? = some b then l.destutter (· ≠ ·)
      else l.destutter (· ≠ ·) ++ [b] := by
  cases l with
  | nil => simp
  | cons a l => exact destutter'_concat l a b

omit [DecidableEq α]

/-- The end of a sequence with one more element: the first ones go until there is room for it. -/
theorem rtake_concat {l : List α} {n : Nat} (hn : 1 ≤ n) (b : α) :
    (l ++ [b]).rtake n = (l.rtake n).drop ((l.rtake n).length + 1 - n) ++ [b] := by
  obtain ⟨m, rfl⟩ := Nat.exists_eq_add_of_le' hn
  rw [List.rtake_concat_succ]
  simp only [List.rtake, List.drop_drop, List.length_drop]
  congr 2
  omega

theorem getLast?_rtake {l : List α} {n : Nat} (hn : 1 ≤ n) :
    (l.rtake n).getLast? = l.getLast? := by
  rw [List.rtake, List.getLast?_drop]
  split
  next h =>
    have : l = [] := List.length_eq_zero_iff.mp (by omega)
    simp [this]
  next => rfl

end Sequences

namespace Limits

/-- A text can be recorded if it is not empty and not too long. -/
def Admits (limits : Limits) (content : String) : Prop :=
  content ≠ "" ∧ content.length ≤ limits.maxEntrySize

instance (limits : Limits) (content : String) : Decidable (limits.Admits content) :=
  inferInstanceAs (Decidable (_ ∧ _))

/-- The texts of a sequence that can be recorded, each run of equal ones collapsed to one. -/
def chosen (limits : Limits) (texts : List String) : List String :=
  (texts.filter fun content => limits.Admits content).destutter (· ≠ ·)

theorem chosen_concat (limits : Limits) (texts : List String) (content : String) :
    limits.chosen (texts ++ [content]) =
      if limits.Admits content ∧ (limits.chosen texts).getLast? ≠ some content then
        limits.chosen texts ++ [content]
      else limits.chosen texts := by
  unfold chosen
  by_cases ha : limits.Admits content
  · have hadmitted : [content].filter (fun c => limits.Admits c) = [content] := by simp [ha]
    rw [List.filter_append, hadmitted, destutter_concat]
    split <;> simp_all
  · simp [ha]

end Limits

/-! ## §2 Tables -/

namespace Table

/-- The texts of the entries, oldest first. -/
def contents (t : Table) : List String :=
  t.listing.map (·.content)

/-- How many numbers are left after one. -/
def numbersAfter (last : Int) : Nat :=
  (maxId - last).toNat

theorem takes_iff_admits {t : Table} {limits : Limits} {content : String} :
    t.queue.Takes limits content ↔
      limits.Admits content ∧ t.contents.getLast? ≠ some content := by
  rw [Queue.Takes, Limits.Admits, contents, List.getLast?_map, queue, and_assoc]
  cases t.listing.getLast? <;> simp

/-- In a numbered table no number is left once the greatest one was given out. -/
theorem Numbered.exhausted_iff {t : Table} (ht : t.Numbered) (limits : Limits) :
    t.queue.Exhausted limits ↔ maxId ≤ t.lastId := by
  rw [Table.exhausted_iff, nextId?, (ht.room limits).greatestId_eq, lastId_room]
  simp

/-- A table that began without entries, after the last number `last`, and now has the end of the
sequence of `texts`, as far as numbers went. -/
structure Retains (limits : Limits) (last : Int) (texts : List String) (t : Table) : Prop where
  /-- The table is numbered. -/
  numbered : t.Numbered
  /-- It has the end of the sequence. -/
  contents_eq : t.contents = (texts.take (numbersAfter last)).rtake limits.maxEntries
  /-- A number was given out for each text of the sequence. -/
  lastId_eq : t.lastId = last + min texts.length (numbersAfter last)

variable {limits : Limits} {last : Int} {texts : List String} {t : Table}

theorem retains_nil (limits : Limits) (h : t.rows = []) : t.Retains limits t.lastId [] := by
  refine ⟨⟨?_, ?_⟩, ?_, by simp⟩
  · rw [h]
    exact List.nodup_nil
  · simp [h]
  · simp [contents, listing, h]

/-- A sequence for which numbers did not suffice may go on. -/
theorem Retains.concat_of_full (h : t.Retains limits last texts)
    (hfull : numbersAfter last ≤ texts.length) (content : String) :
    t.Retains limits last (texts ++ [content]) := by
  refine ⟨h.numbered, ?_, ?_⟩
  · rw [h.contents_eq, List.take_append_of_le_length hfull]
  · rw [h.lastId_eq, List.length_append, Nat.min_eq_right hfull, Nat.min_eq_right (by omega)]

/-- Once numbers are used up, nothing changes any more. -/
theorem Retains.enter_of_full (h : t.Retains limits last texts)
    (hfull : numbersAfter last ≤ texts.length) (now : Int) (content : String) :
    t.enter limits now content = t := by
  have hlast := h.lastId_eq
  rw [Nat.min_eq_right hfull, numbersAfter] at hlast
  rcases enter_cases h.numbered.distinct limits now content with ⟨⟨-, hfree⟩, -⟩ | ⟨-, hsame⟩
  · rw [h.numbered.exhausted_iff] at hfree
    omega
  · exact hsame

/-- While there are numbers, a text goes to the end of the sequence if it is chosen for it. -/
theorem Retains.enter_of_lt (hL : 1 ≤ limits.maxEntries) (h : t.Retains limits last texts)
    (hroom : texts.length < numbersAfter last) (now : Int) (content : String) :
    (t.enter limits now content).Retains limits last
      (if limits.Admits content ∧ texts.getLast? ≠ some content then texts ++ [content]
      else texts) := by
  have hcontents : t.contents = texts.rtake limits.maxEntries := by
    rw [h.contents_eq, List.take_of_length_le (by omega)]
  have hlast : t.lastId = last + texts.length := by
    rw [h.lastId_eq, Nat.min_eq_left (by omega)]
  have htakes : t.queue.Takes limits content ↔
      limits.Admits content ∧ texts.getLast? ≠ some content := by
    rw [takes_iff_admits, hcontents, getLast?_rtake hL]
  have hstep := insert_step h.numbered.distinct limits now content
  unfold enter
  cases hinsert : t.insert limits now content with
  | skipped =>
    rw [hinsert, Outcome.Means, htakes] at hstep
    rw [if_neg hstep]
    exact h
  | exhausted =>
    rw [hinsert, Outcome.Means, h.numbered.exhausted_iff] at hstep
    rw [numbersAfter] at hroom
    omega
  | recorded i t' =>
    rw [hinsert] at hstep
    obtain ⟨hchosen, -, -, hrecords⟩ := hstep
    have hgives := gives_of_insert h.numbered hinsert
    rw [if_pos (htakes.mp hchosen)]
    -- The queue drops from its front what does not fit beside the new entry.
    have hkept : (t.queue.kept limits).map (·.content) =
        t.contents.drop (t.contents.length + 1 - limits.maxEntries) := by
      rw [Queue.kept, List.map_drop, contents, List.length_map]
      rfl
    refine ⟨hgives.numbered, ?_, ?_⟩
    · have hentries : t'.listing = t.queue.kept limits ++ [i.inserted] := hrecords.entries_eq
      rw [contents, hentries, List.map_append, hkept, hcontents, List.map_singleton,
        hrecords.content_eq, List.take_of_length_le (by simp; omega), rtake_concat hL]
    · rw [hgives.lastId_eq, hlast, List.length_append, Nat.min_eq_left (by simp; omega)]
      simp only [List.length_singleton]
      omega

/-- A text goes to the end of the sequence if it is chosen for it. -/
theorem Retains.enter (hL : 1 ≤ limits.maxEntries)
    (h : t.Retains limits last (limits.chosen texts)) (now : Int) (content : String) :
    (t.enter limits now content).Retains limits last (limits.chosen (texts ++ [content])) := by
  rw [Limits.chosen_concat]
  rcases Nat.lt_or_ge (limits.chosen texts).length (numbersAfter last) with hroom | hfull
  · exact h.enter_of_lt hL hroom now content
  · rw [h.enter_of_full hfull]
    split
    · exact h.concat_of_full hfull content
    · exact h

/-- Texts put one after the other into a table without entries leave the end of their sequence. -/
theorem retains_enterEach (hL : 1 ≤ limits.maxEntries) (hempty : t.rows = [])
    (xs : List (Int × String)) :
    (t.enterEach limits xs).Retains limits t.lastId (limits.chosen (xs.map (·.2))) := by
  -- From the back, as what a text comes to depends on those before it.
  induction xs using List.reverseRecOn with
  | nil => exact retains_nil limits hempty
  | append_singleton xs x ih =>
    have hconcat : t.enterEach limits (xs ++ [x]) =
        (t.enterEach limits xs).enter limits x.1 x.2 := by
      simp [enterEach]
    rw [hconcat, List.map_append]
    exact ih.enter hL x.1 x.2

/-- What is retained is within the limit. -/
theorem Retains.length_le (h : t.Retains limits last texts) :
    t.rows.length ≤ limits.maxEntries := by
  have hlength := congrArg List.length h.contents_eq
  simp only [contents, List.length_map, length_listing, List.rtake, List.length_drop] at hlength
  omega

/-- No two neighbours in it are equal. -/
theorem Retains.isChain (h : t.Retains limits last (limits.chosen texts)) :
    t.contents.IsChain (· ≠ ·) := by
  rw [h.contents_eq]
  exact ((List.isChain_destutter _ _).take _).drop _

end Table

/-! ## §3 Databases -/

namespace Database

/-- Records texts in a history in order, each at its reading of the clock. -/
def insertEach (limits : Limits) (kind : HistoryKind) (xs : List (Int × String)) (d : Database) :
    Database :=
  xs.foldl (fun d x => (d.run limits true (.insert kind x.2 x.1)).2) d

theorem table_insertEach (limits : Limits) (kind : HistoryKind) (xs : List (Int × String))
    (d : Database) :
    (d.insertEach limits kind xs).table kind = (d.table kind).enterEach limits xs := by
  induction xs generalizing d with
  | nil => rfl
  | cons x xs ih =>
    rw [insertEach, List.foldl_cons]
    refine (ih _).trans ?_
    rw [table_run_insert, if_pos rfl]
    rfl

/-- A history without entries, in which texts are recorded one after the other at any readings of
the clock, has as its entries the end of the sequence of those that can be recorded, without
repetitions; should the sequence be longer than numbers suffice, the end of the part for which they
do. At no time are there more entries than allowed, or two neighbours of one text. -/
theorem contents_insertEach (limits : Limits) (hL : 1 ≤ limits.maxEntries) (kind : HistoryKind)
    (d : Database) (hempty : (d.table kind).rows = []) (xs : List (Int × String)) :
    let t := (d.insertEach limits kind xs).table kind
    let texts := limits.chosen (xs.map (·.2))
    let free := Table.numbersAfter (d.table kind).lastId
    (texts.length ≤ free → t.contents = texts.rtake limits.maxEntries) ∧
      t.contents = (texts.take free).rtake limits.maxEntries ∧
      ∀ n, let t := (d.insertEach limits kind (xs.take n)).table kind
        t.rows.length ≤ limits.maxEntries ∧ t.contents.IsChain (· ≠ ·) := by
  intro t texts free
  have hretains : ∀ xs, ((d.insertEach limits kind xs).table kind).Retains limits
      (d.table kind).lastId (limits.chosen (xs.map (·.2))) := by
    intro xs
    rw [table_insertEach]
    exact Table.retains_enterEach hL hempty xs
  have hcontents : t.contents = (texts.take free).rtake limits.maxEntries :=
    (hretains xs).contents_eq
  refine ⟨fun hfree => ?_, hcontents, fun n => ?_⟩
  · rw [hcontents, List.take_of_length_le hfree]
  · exact ⟨(hretains (xs.take n)).length_le, (hretains (xs.take n)).isChain⟩

/-- A clock that runs backwards, and texts that are empty, too long or repeated, also across
those. -/
theorem contents_insertEach_backwards :
    let limits : Limits := ⟨2, 3⟩
    let d : Database := ⟨⟨[], 5⟩, .empty⟩
    let xs := [(9, "a"), (8, "a"), (7, ""), (6, "long"), (5, "a"), (4, "b"), (3, "b"), (2, "a")]
    1 ≤ limits.maxEntries ∧ (d.table .queries).rows = [] ∧
      ((d.insertEach limits .queries xs).table .queries).contents = ["b", "a"] := by
  intro limits d xs
  have hL : 1 ≤ limits.maxEntries := by decide
  have hempty : (d.table .queries).rows = [] := rfl
  have hchosen : limits.chosen (xs.map (·.2)) = ["a", "b", "a"] := by decide
  have hfree : (limits.chosen (xs.map (·.2))).length ≤
      Table.numbersAfter (d.table .queries).lastId := by
    rw [hchosen]
    decide
  have hcontents := (contents_insertEach limits hL .queries d hempty xs).1 hfree
  rw [hchosen] at hcontents
  exact ⟨hL, hempty, hcontents⟩

end Database

end QueryPlayground.History
