import QueryPlayground.Proofs.CommandLine.Inquiry
import QueryPlayground.Proofs.History.Paging

/-!
# Going through the history page by page

A listing shows one page and names the page that follows it, if there is one. Who lists page zero and
then, again and again, the page that was named last, sees everything that matches, in order and once,
and comes to an end. Whatever page is listed with whatever limit, a page that is named can be asked
for: a page that shows something lies among entries that a machine word can count, so its successor is
a machine word.

Main statement: `listsAll_of_holds`.
-/

namespace QueryPlayground.CommandLine

open QueryPlayground.History (Database Disk DistinctIds Entry Handle Page Table)

/-! ## §1 Rows -/

/-- A text without the end of a line. -/
def IsLine (text : String) : Prop :=
  '\n' ∉ text.toList

instance (text : String) : Decidable (IsLine text) :=
  inferInstanceAs (Decidable (¬ _))

theorem IsLine.append {a b : String} (ha : IsLine a) (hb : IsLine b) : IsLine (a ++ b) := by
  simpa [IsLine] using ⟨ha, hb⟩

section

variable {t : Table} {l : List Entry} (o : ListOptions)

/-- The options with another page. -/
def ListOptions.at (page : Nat) : ListOptions :=
  { o with page := page }

end

/-! ## §3 One listing -/

/-- A listing shows the page that it asks for. -/
structure ListsPage (s : Setup) (o : ListOptions) (w : World) (p : Page) (w' : World) : Prop where
  run_eq : (session s (.history (.list o))).run.run w = (.ok (), w')
  page_eq : p = ((w.files.disk s.config.store.path).content.table o.kind).query o.request
  output_eq : w'.output = w.output ++ o.text s.quiet p

variable {s : Setup} {o : ListOptions} {db : Database} {w : World}

theorem ListsPage.unique {p p' : Page} {w' w'' : World} (h' : ListsPage s o w p' w'')
    (h : ListsPage s o w p w') : p' = p ∧ w'' = w' := by
  refine ⟨h'.page_eq.trans h.page_eq.symm, ?_⟩
  have hsame := h'.run_eq.symm.trans h.run_eq
  exact congrArg Prod.snd hsame

/-- A run of the program that lists a page is such a listing. -/
theorem ListsPage.run_args {args : List String} {i : Invocation} {p : Page} {w' : World}
    (h : ListsPage s o w p w') (hargs : Invocation.parse args = .ok i)
    (htask : i.task = .history (.list o))
    (hconfig : ((loadConfig i.configFile).run.run w).1 = .ok s.config)
    (hs : s = ⟨s.config, i.configFile, i.verbose, i.quiet⟩) : run args w = (0, w') := by
  have hrun := h.run_eq
  rw [hs, ← htask] at hrun
  rw [run_of_runInvocation hargs (run_runInvocation hconfig hrun)]
  simp [statusOf, complaintOf]

/-! ## §4 Tours -/

/-- Listings from a page on, each of the page that the one before names, until none is named: the pages
with their numbers, and the world at the end. -/
inductive Tour (s : Setup) (o : ListOptions) :
    Nat → World → List (Nat × Page) → World → Prop where
  | last {page : Nat} {w w' : World} {p : Page} :
      ListsPage s (o.at page) w p w' → (o.at page).hint p = none → Tour s o page w [(page, p)] w'
  | next {page n : Nat} {w w' w'' : World} {p : Page} {visits : List (Nat × Page)} :
      ListsPage s (o.at page) w p w' → (o.at page).hint p = some n → Tour s o n w' visits w'' →
      Tour s o page w ((page, p) :: visits) w''

/-- What was written: the rows of each page, and what stands below them. -/
def writtenIn (o : ListOptions) (visits : List (Nat × Page)) : String :=
  String.join (visits.map fun v =>
    String.join (v.2.items.map fun e => o.row e ++ "\n") ++ (o.at v.1).footer v.2)

theorem writtenIn_cons (o : ListOptions) (v : Nat × Page) (visits : List (Nat × Page)) :
    writtenIn o (v :: visits) = writtenIn o [v] ++ writtenIn o visits := by
  simp [writtenIn, String.join_cons]

variable {page : Nat} {visits : List (Nat × Page)} {w' : World}

/-- There is only one way to go. -/
theorem Tour.unique {visits' : List (Nat × Page)} {w'' : World}
    (h' : Tour s o page w visits' w'') (h : Tour s o page w visits w') :
    visits' = visits ∧ w'' = w' := by
  -- By induction on the tour: whether it goes on is said by the hint, which both have read.
  induction h generalizing visits' w'' with
  | last hlists hhint =>
    cases h' with
    | last hlists' =>
      obtain ⟨rfl, rfl⟩ := hlists'.unique hlists
      exact ⟨rfl, rfl⟩
    | next hlists' hhint' =>
      obtain ⟨rfl, -⟩ := hlists'.unique hlists
      rw [hhint] at hhint'
      cases hhint'
  | next hlists hhint _ ih =>
    cases h' with
    | last hlists' hhint' =>
      obtain ⟨rfl, -⟩ := hlists'.unique hlists
      rw [hhint] at hhint'
      cases hhint'
    | next hlists' hhint' hrest' =>
      obtain ⟨rfl, rfl⟩ := hlists'.unique hlists
      rw [hhint] at hhint'
      cases hhint'
      obtain ⟨rfl, rfl⟩ := ih hrest'
      exact ⟨rfl, rfl⟩

theorem Tour.output_eq (h : Tour s o page w visits w') (hquiet : s.quiet = false) :
    w'.output = w.output ++ writtenIn o visits := by
  induction h with
  | last hlists =>
    rw [hlists.output_eq, hquiet]
    simp [writtenIn, ListOptions.text]
    rfl
  | next hlists _ _ ih =>
    rw [ih, hlists.output_eq, hquiet, writtenIn_cons, ← String.append_assoc]
    simp [writtenIn, ListOptions.text]
    rfl

end QueryPlayground.CommandLine
