import Mathlib.Data.List.Nodup
import Mathlib.Data.List.Perm.Subperm
import QueryPlayground.History.Database
import QueryPlayground.Proofs.History.Listing

/-!
# Pages are windows

The entries of a table that match a search have one list in each order, and a page is the window of
that list that its number and its limit name. The walk over the entries counts what it passes over
in machine words, but a table has no more rows than a word can count, so a window that lies beyond
all words lies beyond all entries too.

Main statement: `Database.exists_pagesShow`. Pages of one limit follow each other without a gap and
without an overlap, so that together they are the whole list.
-/

namespace QueryPlayground.History

/-! ## §1 What matches -/

/-- A text contains another one if that stands in it as a whole. -/
theorem containsChars_iff {needle cs : List Char} :
    containsChars needle cs = true ↔ needle <:+: cs := by
  induction cs with
  | nil => simp [containsChars]
  | cons c cs ih =>
    rw [containsChars, Bool.or_eq_true, ih, List.isPrefixOf_iff_prefix, List.infix_cons_iff]

namespace Entry

/-- An entry matches if its lowercase has the lowercase of the text looked for in it. -/
def Matches (search : Option String) (e : Entry) : Prop :=
  ∀ needle ∈ search, Text.lowerChars needle.toList <:+: Text.lowerChars e.content.toList

theorem matchesSearch_iff {search : Option String} {e : Entry} :
    e.matchesSearch search = true ↔ e.Matches search := by
  cases search with
  | none => simp [matchesSearch, Matches]
  | some needle => simp [matchesSearch, Matches, containsChars_iff]

/-- Where nothing is looked for, everything matches. -/
theorem matches_of_empty {search : Option String} (h : search = none ∨ search = some "")
    (e : Entry) : e.Matches search := by
  intro needle hneedle
  rcases h with rfl | rfl
  · cases hneedle
  · obtain rfl := Option.mem_some.mp hneedle
    exact List.nil_infix

end Entry

/-! ## §2 The list of all that matches -/

/-- Which of two entries comes first: the older one or the newer one, and at one time the one of
the smaller or of the greater number. -/
def Order.Before : Order → Entry → Entry → Prop
  | .ascending, a, b => a.timestamp < b.timestamp ∨ a.timestamp = b.timestamp ∧ a.id < b.id
  | .descending, a, b => b.timestamp < a.timestamp ∨ b.timestamp = a.timestamp ∧ b.id < a.id

theorem Order.Before.asymm {order : Order} {a b : Entry} (h : order.Before a b) :
    ¬ order.Before b a := by
  cases order <;> simp only [Before] at h ⊢ <;> omega

namespace Table

/-- A list of the entries that match a search, in an order. -/
structure Lists (t : Table) (search : Option String) (order : Order) (l : List Entry) : Prop where
  /-- It is in order. -/
  sorted : l.Pairwise order.Before
  /-- It has the entries that match and no others. -/
  mem_iff : ∀ e, e ∈ l ↔ e ∈ t.rows ∧ e.Matches search

variable {t : Table} {search : Option String} {order : Order} {l : List Entry}

theorem Lists.nodup (h : t.Lists search order l) : l.Nodup := by
  refine h.sorted.imp ?_
  rintro a b hab rfl
  exact hab.asymm hab

/-- There is only one such list. -/
theorem Lists.unique {l' : List Entry} (h' : t.Lists search order l') (h : t.Lists search order l) :
    l' = l := by
  have hperm : l'.Perm l := by
    refine (List.perm_ext_iff_of_nodup h'.nodup h.nodup).mpr fun e => ?_
    rw [h'.mem_iff, h.mem_iff]
  refine hperm.eq_of_pairwise ?_ h'.sorted h.sorted
  intro a b _ _ hab hba
  exact (hab.asymm hba).elim

/-- It has at most the rows of the table. -/
theorem Lists.length_le (h : t.Lists search order l) : l.length ≤ t.rows.length :=
  (h.nodup.subperm fun e he => ((h.mem_iff e).mp he).1).length_le

/-- Of entries with distinct numbers, one that is not newer comes first. -/
private theorem pairwise_before_listing (hd : DistinctIds t.rows) :
    t.listing.Pairwise Order.ascending.Before := by
  have hids : t.listing.Pairwise fun a b => a.id ≠ b.id :=
    List.pairwise_map.mp (distinctIds_listing hd)
  refine (t.sorted_listing.and hids).imp ?_
  rintro a b ⟨hle, hne⟩
  rw [Entry.le_iff] at hle
  simp only [Order.Before]
  omega

theorem pairwise_before_ordered (hd : DistinctIds t.rows) (order : Order) :
    (t.ordered order).Pairwise order.Before := by
  cases order with
  | ascending => exact pairwise_before_listing hd
  | descending => exact List.pairwise_reverse.mpr (pairwise_before_listing hd)

theorem mem_ordered {e : Entry} : e ∈ t.ordered order ↔ e ∈ t.rows := by
  cases order <;> simp [ordered]

/-- The entries that a walk over a table in an order keeps are such a list. -/
theorem lists_filter_ordered (hd : DistinctIds t.rows) (search : Option String) (order : Order) :
    t.Lists search order ((t.ordered order).filter (·.matchesSearch search)) := by
  refine ⟨(pairwise_before_ordered hd order).filter _, fun e => ?_⟩
  rw [List.mem_filter, mem_ordered, Entry.matchesSearch_iff]

end Table

/-! ## §3 Windows -/

namespace Page

/-- The entries of a list from number `page * limit` up to number `(page + 1) * limit - 1`, and
whether the list goes on behind them. -/
def window (l : List Entry) (page limit : Nat) : Page :=
  ⟨(l.drop (page * limit)).take limit, decide ((page + 1) * limit < l.length)⟩

/-- The walk keeps what matches, without what it has to pass over and up to the room there is. -/
theorem collect_eq (isMatch : Entry → Bool) (skip room : Nat) (done l : List Entry) :
    collect isMatch skip room done l =
      ⟨done.reverse ++ ((l.filter isMatch).drop skip).take room,
        decide (skip + room < (l.filter isMatch).length)⟩ := by
  induction l generalizing skip room done with
  | nil => simp [collect]
  | cons e rest ih =>
    cases he : isMatch e with
    | false => simp [collect, he, ih]
    | true =>
      -- An entry that matches is passed over, or ends the page, or goes on it.
      cases skip with
      | succ skip => simp [collect, he, ih, Nat.succ_add]
      | zero =>
        cases room with
        | zero => simp [collect, he]
        | succ room => simp [collect, he, ih]

/-- The entry behind which a cut-off offset stops lies behind a list that a word can count. -/
theorem drop_offset {l : List Entry} (hl : l.length ≤ PageRequest.maxOffset) (r : PageRequest) :
    l.drop r.offset = l.drop (r.page * r.limit) ∧
      (r.offset + r.limit < l.length ↔ (r.page + 1) * r.limit < l.length) := by
  rw [PageRequest.offset, Nat.succ_mul]
  rcases Nat.le_total (r.page * r.limit) PageRequest.maxOffset with h | h
  · rw [Nat.min_eq_left h]
    exact ⟨rfl, Iff.rfl⟩
  · rw [Nat.min_eq_right h, List.drop_of_length_le hl, List.drop_of_length_le (by omega)]
    exact ⟨rfl, by omega⟩

/-- The first windows of one limit together are the beginning of the list. -/
theorem flatMap_window (l : List Entry) (limit count : Nat) :
    (List.range count).flatMap (fun page => (window l page limit).items) =
      l.take (count * limit) := by
  induction count with
  | zero => simp
  | succ count ih =>
    rw [List.range_succ, List.flatMap_append, ih, Nat.succ_mul, List.take_add]
    simp [window]

/-- Two windows of one limit have no entry in common. -/
theorem disjoint_window {l : List Entry} (hl : l.Nodup) (limit : Nat) {p q : Nat} (hpq : p ≠ q) :
    (window l p limit).items.Disjoint (window l q limit).items := by
  -- The earlier one ends where the later one begins, or before.
  have hlt : ∀ {p q : Nat}, p < q →
      (window l p limit).items.Disjoint (window l q limit).items := by
    intro p q h
    have hends : p * limit + limit ≤ q * limit := by
      rw [← Nat.succ_mul]
      exact Nat.mul_le_mul_right limit h
    refine List.disjoint_of_subset_left ?_ (List.disjoint_of_subset_right (List.take_subset _ _)
      (List.disjoint_take_drop hl hends))
    rw [List.take_add]
    exact List.subset_append_right _ _
  rcases Nat.lt_or_gt_of_ne hpq with h | h
  · exact hlt h
  · exact List.disjoint_symm (hlt h)

end Page

/-- A page is a window of the list of all that matches. -/
theorem Table.query_eq_window {t : Table} {l : List Entry} {r : PageRequest}
    (hd : DistinctIds t.rows) (hrows : t.rows.length ≤ MachineWord.maxUnsigned)
    (hl : t.Lists r.search r.order l) : t.query r = Page.window l r.page r.limit := by
  have hlength := hl.length_le
  obtain rfl := hl.unique (lists_filter_ordered hd r.search r.order)
  obtain ⟨hdrop, hmore⟩ := Page.drop_offset (Nat.le_trans hlength hrows) r
  rw [query, Page.collect_eq, Page.window, hdrop]
  simp [hmore]

/-! ## §4 Pages of a database -/

/-- What it means that a list is all that matches a search in a history, and that pages show it. -/
structure Database.PagesShow (d : Database) (kind : HistoryKind) (search : Option String)
    (order : Order) (l : List Entry) : Prop where
  /-- The list has what matches, in order. -/
  lists : (d.table kind).Lists search order l
  /-- No other list does. -/
  unique : ∀ l', (d.table kind).Lists search order l' → l' = l
  /-- It has every entry where nothing is looked for. -/
  all_of_empty : search = none ∨ search = some "" → ∀ e ∈ (d.table kind).rows, e ∈ l
  /-- A page has its window of the list, and more follow if the list goes on behind it. -/
  page_eq : ∀ (limits : Limits) (writable : Bool) (page limit : Nat),
    d.run limits writable (.page kind ⟨page, limit, search, order⟩) =
      (.ok (.page ⟨(l.drop (page * limit)).take limit,
        decide ((page + 1) * limit < l.length)⟩), d)
  /-- Pages of one limit have no entry in common. -/
  disjoint : ∀ limit p q : Nat, p ≠ q →
    ((d.table kind).query ⟨p, limit, search, order⟩).items.Disjoint
      ((d.table kind).query ⟨q, limit, search, order⟩).items
  /-- As many pages as it takes are the whole list. -/
  flatMap_eq : ∀ limit count : Nat, l.length ≤ count * limit →
    (List.range count).flatMap
      (fun page => ((d.table kind).query ⟨page, limit, search, order⟩).items) = l

/-- All that matches a search in a history has one list in each order, and pages of all numbers and
limits show their windows of it. No file holds more rows than there are words. -/
theorem Database.exists_pagesShow (d : Database) (kind : HistoryKind) (search : Option String)
    (order : Order) (hd : DistinctIds (d.table kind).rows)
    (hrows : (d.table kind).rows.length ≤ MachineWord.maxUnsigned) :
    ∃ l, d.PagesShow kind search order l := by
  have hl := Table.lists_filter_ordered hd search order
  -- Every page is a window of the sorted list of matches, so the rest is said about windows.
  have hwindow := fun page limit =>
    Table.query_eq_window (r := ⟨page, limit, search, order⟩) hd hrows hl
  refine ⟨_, hl, fun l' hl' => hl'.unique hl, ?_, ?_, ?_, ?_⟩
  · intro hempty e he
    exact (hl.mem_iff e).mpr ⟨he, Entry.matches_of_empty hempty e⟩
  · intro limits writable page limit
    rw [run, hwindow]
    rfl
  · intro limit p q hpq
    rw [hwindow, hwindow]
    exact Page.disjoint_window hl.nodup limit hpq
  · intro limit count hcount
    simp only [hwindow]
    rw [Page.flatMap_window, List.take_of_length_le hcount]

/-- Entries of one time, and a search for which their letters have to change. -/
theorem Database.exists_pagesShow_equal_times :
    let d : Database :=
      ⟨⟨[⟨3, 900, "SÉLECT"⟩, ⟨2, 700, "."⟩, ⟨-1, 900, "sélect .a"⟩], 3⟩, .empty⟩
    DistinctIds (d.table .queries).rows ∧
      (d.table .queries).rows.length ≤ MachineWord.maxUnsigned ∧
      ∃ l, d.PagesShow .queries (some "Séle") .descending l := by
  intro d
  have hd : DistinctIds (d.table .queries).rows := by decide
  have hrows : (d.table .queries).rows.length ≤ MachineWord.maxUnsigned := by decide
  exact ⟨hd, hrows, exists_pagesShow d .queries (some "Séle") .descending hd hrows⟩

end QueryPlayground.History
