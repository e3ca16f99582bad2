import QueryPlayground.Proofs.History.Mirror
import QueryPlayground.Proofs.History.Retention

/-!
# What texts add to a history

A recorder that takes texts one after the other puts new entries at the end of the histories, one for
each event. Where the texts are those of turns that follow each other, and a turn may come several
times in a row, no turn adds more than one entry: the entries are texts of ascending turns.

Main statements: `Recorder.recordEach_chooses`, and `Recorder.newest_recordEach` about the last text.
-/

namespace QueryPlayground.History

variable {limits : Limits}

/-! ## §1 One text -/

/-- The new entries of a history that events tell of. -/
def Event.entries (kind : HistoryKind) (events : List Event) : List Entry :=
  (events.filter (·.kind = kind)).map (·.insertion.inserted)

theorem Event.entries_append (kind : HistoryKind) (es fs : List Event) :
    entries kind (es ++ fs) = entries kind es ++ entries kind fs := by
  simp [entries]

/-- The text of a new entry. -/
def Event.text (e : Event) : Record :=
  ⟨e.kind, e.insertion.inserted.content⟩

namespace Table

variable {t t' t'' : Table}

/-- A table gets entries at its end, and may lose some at its front. -/
def Grows (new : List Entry) (t t' : Table) : Prop :=
  ∃ n, t'.listing = (t.listing ++ new).drop n

theorem grows_refl (t : Table) : t.Grows [] t :=
  ⟨0, by simp⟩

private theorem drop_append_right {α : Type} (l m : List α) (n : Nat) :
    l.drop n ++ m = (l ++ m).drop (min n l.length) := by
  rcases Nat.le_total n l.length with hle | hle
  · rw [Nat.min_eq_left hle, List.drop_append_of_le_length hle]
  · rw [Nat.min_eq_right hle, List.drop_of_length_le hle, List.drop_left, List.nil_append]

theorem Grows.trans {new more : List Entry} (h : t.Grows new t') (h' : t'.Grows more t'') :
    t.Grows (new ++ more) t'' := by
  obtain ⟨m, hm⟩ := h
  obtain ⟨n, hn⟩ := h'
  refine ⟨min m (t.listing ++ new).length + n, ?_⟩
  rw [hn, hm, drop_append_right, List.drop_drop, List.append_assoc]

/-- Taking in a text makes a table grow by its entry. -/
theorem grows_of_records {now : Int} {content : String} {i : Insertion}
    (h : Queue.Records limits now content i t.queue t'.queue) : t.Grows [i.inserted] t' :=
  ⟨_, h.entries_eq.trans (drop_append_right _ _ _)⟩

/-- A text that can be recorded is the newest one once it was put in, unless no number is left. -/
theorem newest_enter (hd : DistinctIds t.rows) {now : Int} {content : String}
    (ha : limits.Admits content) (hfree : ¬ (t.enter limits now content).queue.Exhausted limits) :
    (t.enter limits now content).contents.getLast? = some content := by
  rcases enter_cases hd limits now content with ⟨-, -, i, hrecords⟩ | ⟨hrefused, hsame⟩
  · have hlisting : (t.enter limits now content).listing = t.queue.kept limits ++ [i.inserted] :=
      hrecords.entries_eq
    rw [contents, hlisting, List.map_append, List.map_singleton, List.getLast?_concat,
      hrecords.content_eq]
  · -- What is refused although there are numbers is there already.
    rw [hsame] at hfree ⊢
    by_contra hne
    exact hrefused ⟨takes_iff_admits.mpr ⟨ha, hne⟩, hfree⟩

end Table

namespace Recorder

variable {r r' : Recorder}

/-- A text adds an entry, which the newest one of its history was not before. -/
structure Adds (limits : Limits) (x : Record) (i : Insertion) (r r' : Recorder) : Prop where
  events_eq : r'.events = r.events ++ [⟨x.kind, i⟩]
  content_eq : i.inserted.content = x.content
  admits : limits.Admits x.content
  newest_before : (r.disk.content.table x.kind).contents.getLast? ≠ some x.content
  newest_after : (r'.disk.content.table x.kind).contents.getLast? = some x.content
  grows : ∀ kind, (r.disk.content.table kind).Grows (Event.entries kind [⟨x.kind, i⟩])
    (r'.disk.content.table kind)

/-- A text adds an entry or changes nothing. -/
theorem record_cases (hr : r.Serves limits) (hd : r.disk.content.Distinct) (now : Int)
    (x : Record) :
    (∃ i, Adds limits x i r (r.record now x)) ∨
      (r.record now x).events = r.events ∧
        ∀ kind, (r.record now x).disk.content.table kind = r.disk.content.table kind := by
  have htable := (record_of_serves hr now x).2
  have hevents := events_record_of_serves hr now x
  have hstep := Table.insert_step (hd x.kind) limits now x.content
  -- A text that is not put in changes neither table.
  have hrefused (henter : (r.disk.content.table x.kind).enter limits now x.content =
      r.disk.content.table x.kind) (kind : HistoryKind) :
      (r.record now x).disk.content.table kind = r.disk.content.table kind := by
    rw [htable]
    split
    next hk => rw [← hk, henter]
    next => rfl
  -- The table of the text skips it, has no number for it, or takes it.
  cases hinsert : (r.disk.content.table x.kind).insert limits now x.content with
  | skipped =>
    rw [hinsert, List.append_nil] at hevents
    exact .inr ⟨hevents, hrefused (by rw [Table.enter, hinsert])⟩
  | exhausted =>
    rw [hinsert, List.append_nil] at hevents
    exact .inr ⟨hevents, hrefused (by rw [Table.enter, hinsert])⟩
  | recorded i t' =>
    rw [hinsert] at hevents hstep
    obtain ⟨htakes, -, -, hrecords⟩ := hstep
    obtain ⟨hadmits, hbefore⟩ := Table.takes_iff_admits.mp htakes
    -- What was kept of the queue stands in front of the new entry, which is the newest one.
    have hlisting : t'.listing = (r.disk.content.table x.kind).queue.kept limits ++ [i.inserted] :=
      hrecords.entries_eq
    have hafter : (r.record now x).disk.content.table x.kind = t' := by
      rw [htable, if_pos rfl, Table.enter, hinsert]
    refine .inl ⟨i, hevents, hrecords.content_eq, hadmits, hbefore, ?_, fun kind => ?_⟩
    · rw [hafter, Table.contents, hlisting, List.map_append, List.map_singleton,
        List.getLast?_concat, hrecords.content_eq]
    · by_cases hk : x.kind = kind
      · subst hk
        rw [hafter]
        simpa [Event.entries] using Table.grows_of_records hrecords
      · rw [htable, if_neg hk]
        simpa [Event.entries, hk] using Table.grows_refl _

theorem distinct_recordEach (hr : r.Serves limits) (hd : r.disk.content.Distinct)
    (xs : List (Int × Record)) : (r.recordEach xs).disk.content.Distinct := fun kind => by
  rw [(recordEach_table hr xs).2]
  exact Table.distinctIds_enterEach (hd kind) limits _

/-- The text that was taken last adds nothing if it is taken again. -/
theorem record_again (hr : r.Serves limits) (hd : r.disk.content.Distinct)
    {xs : List (Int × Record)} {y : Int × Record} (hlast : xs.getLast? = some y) (now : Int) :
    let r' := r.recordEach xs
    (r'.record now y.2).events = r'.events ∧
      ∀ kind, (r'.record now y.2).disk.content.table kind = r'.disk.content.table kind := by
  intro r'
  obtain ⟨hserves, htables⟩ := recordEach_table hr xs
  refine (record_cases hserves (distinct_recordEach hr hd xs) now y.2).resolve_left ?_
  rintro ⟨i, hadds⟩
  -- The table takes the text no second time, so it would be the newest one before.
  have hsame : (r'.record now y.2).disk.content.table y.2.kind =
      r'.disk.content.table y.2.kind := by
    obtain ⟨ys, rfl⟩ := List.getLast?_eq_some_iff.mp hlast
    rw [(record_of_serves hserves now y.2).2, if_pos rfl, htables]
    exact Table.enter_enterEach (hd y.2.kind) limits (x := (y.1, y.2.content))
      (by simp [Record.forKind]) now
  exact hadds.newest_before (hsame ▸ hadds.newest_after)

/-! ## §2 Texts of ascending turns -/

/-- What texts have added to the histories: the texts of turns, each of which has added one entry. -/
structure Chooses (limits : Limits) (text : Nat → Record) (turns : List Nat) (r r' : Recorder)
    (chosen : List Nat) (new : List Event) : Prop where
  ascending : chosen.Pairwise (· < ·)
  sublist : chosen.Sublist turns
  events_eq : r'.events = r.events ++ new
  texts_eq : new.map Event.text = chosen.map text
  admits : ∀ k ∈ chosen, limits.Admits (text k).content
  grows : ∀ kind, (r.disk.content.table kind).Grows (Event.entries kind new)
    (r'.disk.content.table kind)

variable {text : Nat → Record} {turns : List Nat} {r'' : Recorder} {chosen : List Nat}
  {new : List Event}

theorem Chooses.skip (h : Chooses limits text turns r r' chosen new)
    (hsame : r''.events = r'.events ∧
      ∀ kind, r''.disk.content.table kind = r'.disk.content.table kind) (k : Nat) :
    Chooses limits text (turns ++ [k]) r r'' chosen new where
  ascending := h.ascending
  sublist := h.sublist.trans (List.sublist_append_left _ _)
  events_eq := hsame.1.trans h.events_eq
  texts_eq := h.texts_eq
  admits := h.admits
  grows kind := hsame.2 kind ▸ h.grows kind

theorem Chooses.add (h : Chooses limits text turns r r' chosen new) {k : Nat}
    (hk : ∀ j ∈ turns, j < k) {i : Insertion} (hadds : Adds limits (text k) i r' r'') :
    Chooses limits text (turns ++ [k]) r r'' (chosen ++ [k]) (new ++ [⟨(text k).kind, i⟩]) where
  ascending := List.pairwise_append.mpr ⟨h.ascending, List.pairwise_singleton _ _,
    fun j hj k' hk' => List.mem_singleton.mp hk' ▸ hk j (h.sublist.subset hj)⟩
  sublist := h.sublist.append (List.Sublist.refl _)
  events_eq := by rw [hadds.events_eq, h.events_eq, List.append_assoc]
  texts_eq := by
    rw [List.map_append, List.map_append, h.texts_eq, List.map_singleton, List.map_singleton,
      Event.text, hadds.content_eq]
  admits j hj := by
    rcases List.mem_append.mp hj with hj | hj
    · exact h.admits j hj
    · exact List.mem_singleton.mp hj ▸ hadds.admits
  grows kind := by
    rw [Event.entries_append]
    exact (h.grows kind).trans (hadds.grows kind)

/-- Of turns that ascend, where a turn may come several times in a row, each adds one entry or none.
The entries are in the order of the turns. -/
theorem recordEach_chooses (hr : r.Serves limits) (hd : r.disk.content.Distinct)
    (hturns : turns.Pairwise (· ≤ ·))
    {xs : List (Int × Record)} (hxs : xs.map Prod.snd = turns.map text) :
    ∃ chosen new, Chooses limits text turns r (r.recordEach xs) chosen new := by
  -- From the back, as what a turn adds depends on the one before it.
  induction xs using List.reverseRecOn generalizing turns with
  | nil =>
    exact ⟨[], [], .nil, List.nil_sublist _, (List.append_nil _).symm, rfl, nofun, fun kind =>
      Table.grows_refl _⟩
  | append_singleton xs x ih =>
    obtain ⟨turns, k, rfl⟩ : ∃ ts k, turns = ts ++ [k] := by
      rcases List.eq_nil_or_concat turns with rfl | ⟨ts, k, rfl⟩
      · simp at hxs
      · exact ⟨ts, k, List.concat_eq_append⟩
    rw [List.map_append, List.map_append] at hxs
    obtain ⟨hxs, hx⟩ := List.append_inj' hxs rfl
    have hx : x.2 = text k := List.singleton_inj.mp hx
    obtain ⟨hbefore, -, hle⟩ := List.pairwise_append.mp hturns
    obtain ⟨chosen, new, h⟩ := ih hbefore hxs
    rw [recordEach_concat, hx]
    by_cases hlast : turns.getLast? = some k
    · -- The turn has come before, with the same text.
      obtain ⟨y, hy, htext⟩ : ∃ y, xs.getLast? = some y ∧ y.2 = text k := by
        rw [← Option.map_eq_some_iff, ← List.getLast?_map, hxs, List.getLast?_map, hlast]
        rfl
      exact ⟨chosen, new, h.skip (htext ▸ record_again hr hd hy x.1) k⟩
    · rcases record_cases (recordEach_table hr xs).1 (distinct_recordEach hr hd xs) x.1 (text k)
        with ⟨i, hadds⟩ | hsame
      · refine ⟨_, _, h.add (fun j hj => ?_) hadds⟩
        -- The last turn is less than this one, and no other one is greater than the last.
        obtain ⟨ts, l, rfl⟩ : ∃ ts l, turns = ts ++ [l] := by
          rcases List.eq_nil_or_concat turns with rfl | ⟨ts, l, rfl⟩
          · cases hj
          · exact ⟨ts, l, List.concat_eq_append⟩
        have hl : l ≤ k := hle l (by simp) k (by simp)
        have hne : l ≠ k := fun heq => hlast (by rw [heq, List.getLast?_concat])
        rcases List.mem_append.mp hj with hj | hj
        · have := (List.pairwise_append.mp hbefore).2.2 j hj l (by simp)
          omega
        · obtain rfl := List.mem_singleton.mp hj
          omega
      · exact ⟨chosen, new, h.skip hsame k⟩

/-- After texts that end with one that can be recorded, this is the newest entry of its history,
unless no number is left for it. -/
theorem newest_recordEach (hr : r.Serves limits) (hd : r.disk.content.Distinct)
    {xs : List (Int × Record)} {x : Record} (hlast : (xs.map Prod.snd).getLast? = some x)
    (hadmits : limits.Admits x.content)
    (hfree : ¬ ((r.recordEach xs).disk.content.table x.kind).queue.Exhausted limits) :
    ((r.recordEach xs).disk.content.table x.kind).contents.getLast? = some x.content := by
  obtain ⟨y, hy, rfl⟩ : ∃ y, xs.getLast? = some y ∧ y.2 = x := by
    rwa [← Option.map_eq_some_iff, ← List.getLast?_map]
  obtain ⟨ys, rfl⟩ := List.getLast?_eq_some_iff.mp hy
  have htable := (record_of_serves (recordEach_table hr ys).1 y.1 y.2).2 y.2.kind
  rw [if_pos rfl] at htable
  rw [recordEach_concat, htable] at hfree ⊢
  exact Table.newest_enter (distinct_recordEach hr hd ys y.2.kind) hadmits hfree

end Recorder

end QueryPlayground.History
