import Mathlib.Data.List.Nodup
import QueryPlayground.History.Table

/-!
# The listing of a table

The rows of a table lie in no order, and `Table.listing` sorts them by time and number. Where no two
rows share a number, a table has only one sorted order, so every operation on rows is an operation on
the listing: the newest and the oldest entry are its two ends, removing an entry filters it, and an
entry that is not older than any other one goes to its end.

Main statements: `Table.newest?_eq_getLast?`, `Table.oldest?_eq_head?`, `Table.listing_delete`,
`Table.listing_dropOldest`, `Table.listing_append`.
-/

namespace QueryPlayground.History

/-! ## §1 The order of entries -/

namespace Entry

theorem le_iff {a b : Entry} :
    a.le b = true ↔ a.timestamp < b.timestamp ∨ a.timestamp = b.timestamp ∧ a.id ≤ b.id := by
  simp [le]

theorem le_trans (a b c : Entry) (hab : a.le b = true) (hbc : b.le c = true) : a.le c = true := by
  rw [le_iff] at *
  omega

theorem le_total (a b : Entry) : (a.le b || b.le a) = true := by
  rw [Bool.or_eq_true, le_iff, le_iff]
  omega

theorem le_refl (a : Entry) : a.le a = true := by
  rw [le_iff]
  omega

/-- Entries that are not newer than each other have the same number. -/
theorem id_eq_of_le_of_le {a b : Entry} (hab : a.le b = true) (hba : b.le a = true) :
    a.id = b.id := by
  rw [le_iff] at *
  omega

/-- An entry that is not newer has no later time. -/
theorem timestamp_le_of_le {a b : Entry} (hab : a.le b = true) : a.timestamp ≤ b.timestamp := by
  rw [le_iff] at hab
  omega

end Entry

/-! ## §2 Sorted rows -/

/-- Rows that are sorted by time and number. -/
abbrev Sorted (l : List Entry) : Prop :=
  l.Pairwise fun a b => a.le b = true

/-- Rows of which no two share a number. -/
abbrev DistinctIds (l : List Entry) : Prop :=
  (l.map Entry.id).Nodup

/-- Among rows with distinct numbers, those that are not newer than each other are the same. -/
theorem eq_of_le_of_le {l : List Entry} (hd : DistinctIds l) {a b : Entry} (ha : a ∈ l) (hb : b ∈ l)
    (hab : a.le b = true) (hba : b.le a = true) : a = b :=
  List.inj_on_of_nodup_map hd ha hb (Entry.id_eq_of_le_of_le hab hba)

/-- Rows with distinct numbers have one sorted order only. -/
theorem eq_of_sorted_of_perm {l₁ l₂ : List Entry} (hd : DistinctIds l₁) (h₁ : Sorted l₁)
    (h₂ : Sorted l₂) (hp : l₁.Perm l₂) : l₁ = l₂ := by
  refine List.Perm.eq_of_pairwise ?_ h₁ h₂ hp
  intro a b ha hb hab hba
  exact eq_of_le_of_le hd ha (hp.mem_iff.mpr hb) hab hba

/-- The last one of sorted rows is not older than any of them. -/
theorem Sorted.le_getLast {l : List Entry} (hs : Sorted l) (hne : l ≠ []) {e : Entry} (he : e ∈ l) :
    e.le (l.getLast hne) = true := by
  rw [← List.dropLast_append_getLast hne, Sorted, List.pairwise_append] at hs
  rw [← List.dropLast_append_getLast hne, List.mem_append, List.mem_singleton] at he
  rcases he with h | h
  · exact hs.2.2 _ h _ (by simp)
  · rw [← h]
    exact Entry.le_refl _

/-- The first one of sorted rows is not newer than any of them. -/
theorem Sorted.head_le {l : List Entry} (hs : Sorted l) (hne : l ≠ []) {e : Entry} (he : e ∈ l) :
    (l.head hne).le e = true := by
  cases l with
  | nil => exact absurd rfl hne
  | cons first others =>
    rcases List.mem_cons.mp he with rfl | h
    · exact Entry.le_refl _
    · exact (List.pairwise_cons.mp hs).1 e h

/-- Choosing again and again ends with one of the rows, and no row is above it, where a choice is one
of the two rows and neither is above it. -/
private theorem foldl_pick_spec (pick : Entry → Entry → Entry) (below : Entry → Entry → Prop)
    (hrefl : ∀ a, below a a) (htrans : ∀ a b c, below a b → below b c → below a c)
    (hpick : ∀ a b, (pick a b = a ∨ pick a b = b) ∧ below a (pick a b) ∧ below b (pick a b))
    (l : List Entry) (e : Entry) :
    l.foldl pick e ∈ e :: l ∧ ∀ x ∈ e :: l, below x (l.foldl pick e) := by
  induction l generalizing e with
  | nil => simp [hrefl]
  | cons y l ih =>
    -- The fold goes on from the first choice, which both `e` and `y` are below.
    obtain ⟨hmem, htop⟩ := ih (pick e y)
    obtain ⟨hone, he, hy⟩ := hpick e y
    have hlast := htop (pick e y) List.mem_cons_self
    constructor
    · rw [List.foldl_cons]
      rcases List.mem_cons.mp hmem with h | h
      · rw [h]
        rcases hone with h' | h' <;> simp [h']
      · simp [h]
    · intro x hx
      rcases List.mem_cons.mp hx with rfl | hx
      · exact htrans _ _ _ he hlast
      rcases List.mem_cons.mp hx with rfl | hx
      · exact htrans _ _ _ hy hlast
      · exact htop x (List.mem_cons_of_mem _ hx)

private theorem newer_spec (a b : Entry) :
    (a.newer b = a ∨ a.newer b = b) ∧ a.le (a.newer b) = true ∧ b.le (a.newer b) = true := by
  have htotal := Entry.le_total a b
  unfold Entry.newer
  split <;> simp_all [Entry.le_refl]

private theorem older_spec (a b : Entry) :
    (a.older b = a ∨ a.older b = b) ∧ (a.older b).le a = true ∧ (a.older b).le b = true := by
  have htotal := Entry.le_total a b
  unfold Entry.older
  split <;> simp_all [Entry.le_refl]

/-! ## §3 The listing -/

namespace Table

theorem listing_perm (t : Table) : t.listing.Perm t.rows :=
  List.mergeSort_perm _ _

theorem sorted_listing (t : Table) : Sorted t.listing :=
  List.pairwise_mergeSort Entry.le_trans Entry.le_total _

@[simp]
theorem length_listing (t : Table) : t.listing.length = t.rows.length :=
  t.listing_perm.length_eq

@[simp]
theorem mem_listing {t : Table} {e : Entry} : e ∈ t.listing ↔ e ∈ t.rows :=
  t.listing_perm.mem_iff

theorem distinctIds_listing {t : Table} (h : DistinctIds t.rows) : DistinctIds t.listing :=
  (t.listing_perm.map Entry.id).nodup_iff.mpr h

/-- A sorted order of the rows is the listing. -/
theorem listing_eq_of_sorted {t : Table} {l : List Entry} (hd : DistinctIds t.rows)
    (hs : Sorted l) (hp : l.Perm t.rows) : t.listing = l :=
  eq_of_sorted_of_perm (distinctIds_listing hd) t.sorted_listing hs (t.listing_perm.trans hp.symm)

theorem listing_ne_nil {t : Table} {e : Entry} (he : e ∈ t.rows) : t.listing ≠ [] :=
  List.ne_nil_of_mem (mem_listing.mpr he)

/-- The newest entry is the last one of the listing. -/
theorem newest?_eq_getLast? {t : Table} (hd : DistinctIds t.rows) :
    t.newest? = t.listing.getLast? := by
  cases hrows : t.rows with
  | nil => simp [newest?, listing, hrows]
  | cons e rest =>
    obtain ⟨hmem, htop⟩ := foldl_pick_spec Entry.newer (fun a b => a.le b = true) Entry.le_refl
      Entry.le_trans newer_spec rest e
    rw [← hrows] at hmem htop
    -- The last one of the listing is a row that no row is above, and so is the newest entry.
    have hne := listing_ne_nil hmem
    have hrow : t.listing.getLast hne ∈ t.rows := mem_listing.mp (List.getLast_mem hne)
    have hlast := t.sorted_listing.le_getLast hne (mem_listing.mpr hmem)
    have heq := eq_of_le_of_le hd hmem hrow hlast (htop _ hrow)
    rw [newest?, hrows, List.getLast?_eq_some_getLast hne, ← heq]

/-- The oldest entry is the first one of the listing. -/
theorem oldest?_eq_head? {t : Table} (hd : DistinctIds t.rows) :
    t.oldest? = t.listing.head? := by
  cases hrows : t.rows with
  | nil => simp [oldest?, listing, hrows]
  | cons e rest =>
    obtain ⟨hmem, hbottom⟩ := foldl_pick_spec Entry.older (fun a b => b.le a = true) Entry.le_refl
      (fun a b c hba hcb => Entry.le_trans c b a hcb hba) older_spec rest e
    rw [← hrows] at hmem hbottom
    -- The same from the other end, with the order turned around.
    have hne := listing_ne_nil hmem
    have hrow : t.listing.head hne ∈ t.rows := mem_listing.mp (List.head_mem hne)
    have hfirst := t.sorted_listing.head_le hne (mem_listing.mpr hmem)
    have heq := eq_of_le_of_le hd hmem hrow (hbottom _ hrow) hfirst
    rw [oldest?, hrows, List.head?_eq_some_head hne, ← heq]

/-- Removing an entry filters the listing. -/
theorem listing_delete {t : Table} (hd : DistinctIds t.rows) (id : Int) :
    (t.delete id).listing = t.listing.filter (·.id ≠ id) := by
  apply listing_eq_of_sorted
  · exact List.Nodup.sublist (List.filter_sublist.map Entry.id) hd
  · exact t.sorted_listing.filter _
  · exact t.listing_perm.filter _

/-- Removing the oldest entries takes them off the front of the listing. -/
theorem listing_dropOldest (t : Table) (count : Nat) :
    (t.dropOldest count).listing = t.listing.drop count := by
  unfold dropOldest
  split
  next h => simp [h]
  next => exact List.mergeSort_of_pairwise (t.sorted_listing.sublist (List.drop_sublist _ _))

/-- The rows that are left when the oldest entries are removed are rows of the table. -/
theorem subset_rows_dropOldest (t : Table) (count : Nat) : (t.dropOldest count).rows ⊆ t.rows := by
  unfold dropOldest
  split
  next => exact List.Subset.refl _
  next => exact fun e h => mem_listing.mp (List.mem_of_mem_drop h)

theorem distinctIds_dropOldest {t : Table} (hd : DistinctIds t.rows) (count : Nat) :
    DistinctIds (t.dropOldest count).rows := by
  unfold dropOldest
  split
  next => exact hd
  next => exact (distinctIds_listing hd).sublist ((List.drop_sublist _ _).map Entry.id)

/-- A new entry with a number of its own that is not older than any other one is listed last. -/
theorem listing_append {t : Table} (hd : DistinctIds t.rows) {e : Entry} (lastId : Int)
    (hnew : ∀ x ∈ t.rows, x.timestamp ≤ e.timestamp ∧ x.id < e.id) :
    DistinctIds (t.rows ++ [e]) ∧ (Table.mk (t.rows ++ [e]) lastId).listing = t.listing ++ [e] := by
  -- The number of the new entry is beyond all others, so it is none of them.
  have hdistinct : DistinctIds (t.rows ++ [e]) := by
    rw [DistinctIds, List.map_append, List.nodup_append']
    refine ⟨hd, by simp, ?_⟩
    intro id hid hid'
    obtain ⟨x, hx, rfl⟩ := List.mem_map.mp hid
    have hlt := (hnew x hx).2
    simp only [List.map_cons, List.map_nil, List.mem_singleton] at hid'
    omega
  refine ⟨hdistinct, listing_eq_of_sorted hdistinct ?_ (t.listing_perm.append_right _)⟩
  -- Behind the sorted listing the new entry is in its place.
  rw [Sorted, List.pairwise_append]
  refine ⟨t.sorted_listing, by simp, ?_⟩
  intro x hx y hy
  obtain rfl := List.mem_singleton.mp hy
  have h := hnew x (mem_listing.mp hx)
  rw [Entry.le_iff]
  omega

end Table

end QueryPlayground.History
