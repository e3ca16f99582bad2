import Mathlib
import QueryPlayground.Proofs.History.Recording

/-!
# Mirroring a history from its events

A subscriber that starts from the entries of a history and follows the events takes out the entry that
an event says has made room, and puts in the new one. An event names at most one entry that has gone,
while recording a text removes as many as are beyond the limit. So the mirror shows what the table
holds unless the table begins with more entries than the limit allows. Then the first event leaves out
the surplus, the entries that went together with the oldest one, and they stay in the mirror for good;
nothing else is ever missed.

Main statement: `Recorder.mirrors_recordEach`.
-/

namespace QueryPlayground.History

/-! ## §1 Mirrors -/

/-- What a subscriber shows of a history after a notice. -/
def Notice.mirror (kind : HistoryKind) (shown : List Entry) : Notice → List Entry
  | .lagged _ => shown
  | .recorded e =>
    if e.kind = kind then e.insertion.evicted.elim shown shown.erase ++ [e.insertion.inserted]
    else shown

/-- What a subscriber shows of a history after some notices. -/
def Notice.mirrorAll (kind : HistoryKind) (shown : List Entry) (ns : List Notice) : List Entry :=
  ns.foldl (Notice.mirror kind) shown

/-- The entries that have to go for another one, apart from the oldest. -/
def Table.surplus (limits : Limits) (t : Table) : List Entry :=
  (t.listing.take (t.rows.length + 1 - limits.maxEntries)).tail

namespace Table

variable {t : Table} {limits : Limits}

theorem surplus_eq_nil_iff (hL : 1 ≤ limits.maxEntries) :
    t.surplus limits = [] ↔ t.rows.length ≤ limits.maxEntries := by
  rw [surplus, ← List.length_eq_zero_iff, List.length_tail, List.length_take, length_listing]
  omega

/-- A mirror that follows one recorded text misses the surplus and nothing else. -/
theorem mirror_of_records (hL : 1 ≤ limits.maxEntries) {t' : Table} {now : Int} {content : String}
    {i : Insertion} (h : Queue.Records limits now content i t.queue t'.queue)
    {shown missed : List Entry} (hshown : shown.Perm (missed ++ t.listing)) (kind : HistoryKind) :
    (Notice.mirror kind shown (.recorded ⟨kind, i⟩)).Perm
      (missed ++ t.surplus limits ++ t'.listing) := by
  have hevicted : i.evicted = if limits.maxEntries ≤ t.rows.length then t.listing.head? else none := by
    simpa [queue] using h.evicted_eq
  have hlisting : t'.listing =
      t.listing.drop (t.rows.length + 1 - limits.maxEntries) ++ [i.inserted] := by
    simpa [queue, Queue.kept] using h.entries_eq
  -- What is left once the entry of the event is taken out are the surplus and the entries that stay.
  have hrest : (i.evicted.elim shown shown.erase).Perm
      (missed ++ (t.surplus limits ++ t.listing.drop (t.rows.length + 1 - limits.maxEntries))) := by
    rw [hevicted, surplus]
    split
    next hfull =>
      obtain ⟨k, hk⟩ : ∃ k, t.rows.length + 1 - limits.maxEntries = k + 1 :=
        ⟨t.rows.length - limits.maxEntries, by omega⟩
      obtain ⟨x, rest, hrows⟩ : ∃ x rest, t.listing = x :: rest := by
        apply List.exists_cons_of_length_pos
        rw [length_listing]
        omega
      have hx : (shown.erase x).Perm (missed ++ rest) := by
        have hfront : shown.Perm (x :: (missed ++ rest)) := by
          rw [hrows] at hshown
          exact hshown.trans List.perm_middle
        simpa using hfront.erase x
      simpa [hrows, hk] using hx
    next hfree =>
      have hzero : t.rows.length + 1 - limits.maxEntries = 0 := by omega
      simpa [hzero] using hshown
  simp only [Notice.mirror, if_true]
  rw [hlisting]
  simpa [List.append_assoc] using hrest.append_right [i.inserted]

/-- What a mirror shows of a history that began as one table and is now another one, where it is
known whether any text has been recorded since. -/
inductive Mirrors (limits : Limits) (t₀ : Table) : Bool → Table → List Entry → Prop where
  | untouched : Mirrors limits t₀ false t₀ t₀.listing
  /-- The table is within its limit by now, so that no more than the surplus is ever missed. -/
  | recorded {t : Table} {shown : List Entry} :
      t.rows.length ≤ limits.maxEntries → shown.Perm (t₀.surplus limits ++ t.listing) →
      Mirrors limits t₀ true t shown

theorem Mirrors.of_insert (hL : 1 ≤ limits.maxEntries) {t₀ : Table} {since : Bool}
    {shown : List Entry} (h : Mirrors limits t₀ since t shown) (hd : DistinctIds t.rows) {now : Int}
    {content : String} {i : Insertion} {t' : Table}
    (hinsert : t.insert limits now content = .recorded i t') (kind : HistoryKind) :
    Mirrors limits t₀ true t' (Notice.mirror kind shown (.recorded ⟨kind, i⟩)) := by
  have hstep := insert_step hd limits now content
  rw [hinsert] at hstep
  obtain ⟨-, -, -, hrecords⟩ := hstep
  have hlength : t'.rows.length ≤ limits.maxEntries := by
    have hqueue := hrecords.length_eq
    simp only [queue, length_listing] at hqueue
    omega
  -- Until something was recorded the rows are shown as they were, and afterwards no surplus is
  -- left.
  cases h with
  | untouched =>
    have hstart : t.listing.Perm ([] ++ t.listing) := .refl _
    exact .recorded hlength (mirror_of_records hL hrecords hstart kind)
  | recorded hle hshown =>
    have hmirror := mirror_of_records hL hrecords hshown kind
    rw [(surplus_eq_nil_iff hL).mpr hle, List.append_nil] at hmirror
    exact .recorded hlength hmirror

end Table

/-! ## §2 Events of a recorder -/

namespace Event

/-- A subscriber that is not behind by more events than can wait has missed none. -/
theorem notices_of_length_le {events : List Event} (h : events.length ≤ capacity) :
    notices events = events.map .recorded := by
  have hzero : events.length - capacity = 0 := by omega
  simp [notices, hzero]

end Event

namespace Recorder

variable {r : Recorder} {limits : Limits}

/-- An event is published where a text is recorded, with what the table says about it. -/
theorem events_record_of_serves (hr : r.Serves limits) (now : Int) (x : Record) :
    (r.record now x).events = r.events ++
      match (r.disk.content.table x.kind).insert limits now x.content with
      | .recorded i _ => [⟨x.kind, i⟩]
      | .skipped | .exhausted => [] := by
  obtain ⟨hopenable, hready, rfl⟩ := hr
  obtain ⟨h', d', hrun, -⟩ :=
    Handle.run_of_ready hready hopenable (.insert x.kind x.content now)
  simp only [events, record, hrun, Database.run]
  cases (r.disk.content.table x.kind).insert r.handle.limits now x.content <;> simp

theorem length_events_recordEach_le (hr : r.Serves limits) (xs : List (Int × Record)) :
    (r.recordEach xs).events.length ≤ r.events.length + xs.length := by
  induction xs using List.reverseRecOn with
  | nil => simp [recordEach]
  | append_singleton ys x ih =>
    rw [recordEach_concat, events_record_of_serves (recordEach_table hr ys).1, List.length_append,
      List.length_append]
    split <;> simp only [List.length_cons, List.length_nil] <;> omega

/-! ## §3 Mirrors of a recorder's history -/

/-- Whether any of the events belongs to a history. -/
def touches (kind : HistoryKind) (events : List Event) : Bool :=
  events.any (·.kind = kind)

/-- The mirror follows the table through every text that is recorded. -/
theorem mirrors_of_serves (hr : r.Serves limits) (hfresh : r.events = [])
    (hd : r.disk.content.Distinct) (hL : 1 ≤ limits.maxEntries) (xs : List (Int × Record))
    (kind : HistoryKind) :
    let t₀ := r.disk.content.table kind
    let r' := r.recordEach xs
    Table.Mirrors limits t₀ (touches kind r'.events) (r'.disk.content.table kind)
      (Notice.mirrorAll kind t₀.listing (r'.events.map .recorded)) := by
  intro t₀ r'
  induction xs using List.reverseRecOn with
  | nil =>
    simp only [r', recordEach, List.foldl_nil, hfresh]
    exact .untouched
  | append_singleton ys x ih =>
    obtain ⟨hserves, htables⟩ := recordEach_table hr ys
    have htable := (record_of_serves hserves x.1 x.2).2 kind
    have hevents := events_record_of_serves hserves x.1 x.2
    have hdistinct : DistinctIds ((r.recordEach ys).disk.content.table kind).rows := by
      rw [htables]
      exact Table.distinctIds_enterEach (hd kind) limits _
    simp only [r', recordEach_concat, htable, hevents]
    by_cases hk : x.2.kind = kind
    · -- The table of the history takes the text, or nothing has changed.
      rw [if_pos hk, Table.enter, hk]
      cases hinsert : ((r.recordEach ys).disk.content.table kind).insert limits x.1 x.2.content with
      | skipped => simpa using ih
      | exhausted => simpa using ih
      | recorded i t' =>
        have hmore := ih.of_insert hL hdistinct hinsert kind
        simpa [touches, Notice.mirrorAll] using hmore
    · -- An event of the other history changes neither the table nor what is shown.
      rw [if_neg hk]
      cases ((r.recordEach ys).disk.content.table x.2.kind).insert limits x.1 x.2.content with
      | skipped => simpa using ih
      | exhausted => simpa using ih
      | recorded i t' => simpa [touches, Notice.mirrorAll, Notice.mirror, hk] using ih

/-- A subscriber that starts from the entries of a history and follows the events of a recorder, of
which it can miss none as long as no more texts come than it can be behind, ends with the entries of
the history and with the surplus of the beginning, if any text was recorded. So it shows the history
exactly where the history began within its limit, or has not changed. -/
theorem mirrors_recordEach (handle : Handle) (disk : Disk) (hready : handle.Ready disk)
    (hopen : disk.Openable) (hd : disk.content.Distinct) (hL : 1 ≤ handle.limits.maxEntries)
    (xs : List (Int × Record)) (hcount : xs.length ≤ Event.capacity) (kind : HistoryKind) :
    let before := disk.content.table kind
    let r := (Recorder.new handle disk).recordEach xs
    let after := r.disk.content.table kind
    let shown := Notice.mirrorAll kind before.listing (Event.notices r.events)
    shown.Perm ((if touches kind r.events then before.surplus handle.limits else []) ++ after.rows) ∧
      (shown.Perm after.rows ↔
        before.rows.length ≤ handle.limits.maxEntries ∨ touches kind r.events = false) := by
  intro before r after shown
  have hserves : (Recorder.new handle disk).Serves handle.limits := ⟨hopen, hready, rfl⟩
  have hnotices : Event.notices r.events = r.events.map .recorded := by
    refine Event.notices_of_length_le (Nat.le_trans (length_events_recordEach_le hserves xs) ?_)
    simpa [Recorder.new, events] using hcount
  have hmirrors : Table.Mirrors handle.limits before (touches kind r.events) after shown := by
    have hfollows : Table.Mirrors handle.limits before (touches kind r.events) after
        (Notice.mirrorAll kind before.listing (r.events.map .recorded)) :=
      mirrors_of_serves hserves rfl hd hL xs kind
    rwa [← hnotices] at hfollows
  have hperm : shown.Perm
      ((if touches kind r.events then before.surplus handle.limits else []) ++ after.rows) := by
    generalize touches kind r.events = since, shown = found, after = t at hmirrors ⊢
    cases hmirrors with
    | untouched => exact before.listing_perm
    | @recorded t found _ hfound => exact hfound.trans (t.listing_perm.append_left _)
  refine ⟨hperm, ?_⟩
  -- The mirror is longer than the table by the surplus, so it is the same only if there is none.
  have hlength := hperm.length_eq
  cases htouches : touches kind r.events with
  | false => simpa [htouches] using hperm
  | true =>
    rw [← Table.surplus_eq_nil_iff hL]
    simp only [htouches, if_true, List.length_append] at hperm hlength
    constructor
    · intro hsame
      have hzero : (before.surplus handle.limits).length = 0 := by
        have hlength' := hsame.length_eq
        omega
      exact .inl (List.length_eq_zero_iff.mp hzero)
    · rintro (hnil | hfalse)
      · simpa [hnil] using hperm
      · cases hfalse

/-- Four entries where two are allowed, texts for both histories and a repeated one. The entries of
the numbers 2 and 3 went together with the oldest one, and no event has said so. -/
theorem mirrors_recordEach_lowered_limit :
    let handle : Handle := .new ⟨2, 9⟩
    let disk := Disk.holding
      ⟨⟨[⟨1, 10, "a"⟩, ⟨2, 20, "b"⟩, ⟨3, 30, "c"⟩, ⟨4, 90, "d"⟩], 4⟩, .empty⟩
    let xs : List (Int × Record) :=
      [(40, ⟨.queries, "e"⟩), (41, ⟨.templates, "t"⟩), (42, ⟨.queries, "e"⟩), (43, ⟨.queries, "f"⟩)]
    let before := disk.content.table .queries
    let r := (Recorder.new handle disk).recordEach xs
    let after := r.disk.content.table .queries
    let shown := Notice.mirrorAll .queries before.listing (Event.notices r.events)
    handle.Ready disk ∧ disk.Openable ∧ disk.content.Distinct ∧ 1 ≤ handle.limits.maxEntries ∧
      xs.length ≤ Event.capacity ∧
      shown.Perm ([⟨2, 20, "b"⟩, ⟨3, 30, "c"⟩] ++ after.rows) ∧ ¬ shown.Perm after.rows := by
  intro handle disk xs before r after shown
  have hready : handle.Ready disk := ⟨rfl, .inl rfl⟩
  have hopen : disk.Openable := Nat.zero_lt_one
  have hd : disk.content.Distinct := by
    intro kind
    cases kind <;> decide
  have hL : 1 ≤ handle.limits.maxEntries := by decide
  have hcount : xs.length ≤ Event.capacity := by decide
  -- An event of the history was published, and the rows of before are more than the limit allows.
  have htouches : touches .queries r.events = true := by
    simp only [r, handle, disk, xs]
    cbv
  have hsurplus : before.surplus handle.limits = [⟨2, 20, "b"⟩, ⟨3, 30, "c"⟩] := by
    simp only [before, handle, disk]
    cbv
  have hbefore : ¬ before.rows.length ≤ handle.limits.maxEntries := by decide
  obtain ⟨hperm, hiff⟩ := mirrors_recordEach handle disk hready hopen hd hL xs hcount .queries
  refine ⟨hready, hopen, hd, hL, hcount, ?_, ?_⟩
  · rw [if_pos htouches, hsurplus] at hperm
    exact hperm
  · intro hsame
    rcases hiff.mp hsame with hle | hfalse
    · exact hbefore hle
    · rw [htouches] at hfalse
      cases hfalse

/-- A history with more entries than the limit allows is not mirrored by its events. -/
theorem not_mirrors_of_lowered_limit :
    ¬ ∀ (handle : Handle) (disk : Disk) (xs : List (Int × Record)) (kind : HistoryKind),
      handle.Ready disk → disk.Openable → disk.content.Distinct → 1 ≤ handle.limits.maxEntries →
      xs.length ≤ Event.capacity →
      let r := (Recorder.new handle disk).recordEach xs
      (Notice.mirrorAll kind (disk.content.table kind).listing (Event.notices r.events)).Perm
        (r.disk.content.table kind).rows := by
  intro h
  let disk := Disk.holding ⟨⟨[⟨1, 10, "a"⟩, ⟨2, 20, "b"⟩, ⟨3, 30, "c"⟩], 3⟩, .empty⟩
  have hd : disk.content.Distinct := by
    intro kind
    cases kind <;> decide
  have hperm := h (.new ⟨1, 9⟩) disk [(40, ⟨.queries, "d"⟩)] .queries ⟨rfl, .inl rfl⟩
    Nat.zero_lt_one hd (by decide) (by decide)
  -- One entry is left, but the event takes only one of the three out of the mirror.
  have hlength := hperm.length_eq
  simp only [disk] at hlength
  exact absurd hlength (by cbv)

end Recorder

end QueryPlayground.History
