import QueryPlayground.Proofs.History.Numbering
import QueryPlayground.Proofs.History.Shelf

/-!
# Numbers over runs

Handles on one place, open or not, closed or failed, either have the database open that is there or
have none open, so what is done through them is done to that one database or to nothing. Its numbers
are therefore given out in sequence over any run through any of the handles, and once the entry of a
number is gone the number stands for nothing ever after.

Main statement: `Shelf.numbersGrow_after_new`.
-/

namespace QueryPlayground.History

/-! ## §1 Handles on one place -/

namespace Handle

/-- A handle on the place: if it has a database open, then the one that is there. -/
def Attached (h : Handle) (d : Disk) : Prop :=
  h.reopenable = true ∧ ∀ n, h.state = .opened n → d.found = .database n

theorem Ready.attached {h : Handle} {d : Disk} (hr : h.Ready d) : h.Attached d := by
  obtain ⟨hre, hstate | ⟨n, hstate, hfound⟩⟩ := hr
  · exact ⟨hre, by simp [hstate]⟩
  · refine ⟨hre, fun m hm => ?_⟩
    rw [hstate] at hm
    cases hm
    exact hfound

/-- What keeps handles ready keeps handles on the place. -/
theorem Attached.of_ready {g : Handle} {d d' : Disk} (hg : g.Attached d)
    (hready : ∀ g : Handle, g.Ready d → g.Ready d') : g.Attached d' := by
  refine ⟨hg.1, fun n hn => ?_⟩
  have hr := (hready g ⟨hg.1, .inr ⟨n, hn, hg.2 n hn⟩⟩).attached
  exact hr.2 n hn

variable {h : Handle} {d : Disk}

/-- A handle on the place that is not ready, as opening it has failed or it was closed, refuses
everything. -/
theorem run_of_not_ready (hh : h.Attached d) (hr : ¬ h.Ready d) (q : Query) :
    ∃ reason, h.run d q = (.error (.storeUnavailable reason), h, d) := by
  cases hstate : h.state with
  | unopened => exact (hr ⟨hh.1, .inl hstate⟩).elim
  | opened n => exact (hr ⟨hh.1, .inr ⟨n, hstate, hh.2 n hstate⟩⟩).elim
  | failed reason => exact ⟨reason, by simp only [run, settle, access, hstate]⟩
  | closed => exact ⟨closedReason, by simp only [run, settle, access, hstate]⟩

/-- A handle on the place refuses an operation, or answers as the database there. -/
theorem run_of_attached (hh : h.Attached d) (hd : d.Openable) (q : Query) :
    ∃ answer h' d', h.run d q = (answer, h', d') ∧ d'.Openable ∧ h'.Attached d' ∧
      (∀ g : Handle, g.Attached d → g.Attached d') ∧
      ((∃ e, answer = .error e) ∧ d'.content = d.content ∨
        (answer, d'.content) = d.content.run h.limits true q) := by
  by_cases hr : h.Ready d
  · obtain ⟨h', d', hrun, hcontent, hd', -, hready, hothers⟩ := run_of_ready hr hd q
    refine ⟨_, h', d', hrun, hd', hready.attached, fun g hg => hg.of_ready hothers, .inr ?_⟩
    rw [hcontent]
  · obtain ⟨reason, hrun⟩ := run_of_not_ready hh hr q
    exact ⟨_, h, d, hrun, hd, hh, fun _ hg => hg, .inl ⟨⟨_, rfl⟩, rfl⟩⟩

/-- A handle on the place can be connected anew, and finds the database there. -/
theorem reconnect_of_attached (hh : h.Attached d) (hd : d.Openable) :
    ∃ h' d', h.reconnect d = (.ok (), h', d') ∧ d'.Openable ∧ h'.Attached d' ∧
      (∀ g : Handle, g.Attached d → g.Attached d') ∧ d'.content = d.content := by
  obtain ⟨n, d', hconnect, hcontent, hfound, hn, hsame⟩ := connect_of_openable hh.1 hd
  refine ⟨{ h with state := .opened n }, d', ?_, ?_, ⟨hh.1, ?_⟩, ?_, hcontent⟩
  · simp only [reconnect, hconnect, access]
  · rw [Disk.Openable, hfound]
    exact hn
  · rintro m ⟨⟩
    exact hfound
  · intro g hg
    refine ⟨hg.1, fun m hm => ?_⟩
    rw [hfound, hsame m (hg.2 m hm)]

end Handle

namespace Shelf

/-- A place that can be opened, with handles on it. -/
structure Attached (s : Shelf) : Prop where
  /-- The place can be opened. -/
  openable : s.disk.Openable
  /-- The handles are on it. -/
  attached : ∀ h ∈ s.handles, h.Attached s.disk

theorem attached_new {disk : Disk} (ho : disk.Openable) (limits : List Limits) :
    (new disk limits).Attached := by
  have hs := serves_new ho limits
  exact ⟨hs.openable, fun h hh => (hs.ready h hh).attached⟩

variable {s : Shelf}

theorem Attached.set (hs : s.Attached) {d : Disk} (ho : d.Openable) {h : Handle}
    (hh : h.Attached d) (hothers : ∀ g : Handle, g.Attached s.disk → g.Attached d) (number : Nat) :
    (Shelf.mk d (s.handles.set number h)).Attached := by
  refine ⟨ho, fun g hg => ?_⟩
  rcases List.mem_or_eq_of_mem_set hg with hg | rfl
  · exact hothers g (hs.attached g hg)
  · exact hh

/-- An action through a handle on the place keeps all of them on it. It leaves the database there as
it is and hands out no number, or it is an operation that the database performs. -/
theorem perform_of_attached (hs : s.Attached) (number : Nat) (a : Action) :
    let r := s.perform number a
    r.2.Attached ∧
      (r.2.disk.content = s.disk.content ∧ (∀ kind, a.given? kind r.1 = none) ∨
        ∃ query limits, a = .query query ∧
          (r.1, r.2.disk.content) = s.disk.content.run limits true query) := by
  cases hhandle : s.handles[number]? with
  | none =>
    have hperform : s.perform number a = (.error (.storeUnavailable Handle.closedReason), s) := by
      simp only [perform, hhandle]
    rw [hperform]
    exact ⟨hs, .inl ⟨rfl, fun kind => Action.given?_error kind a _⟩⟩
  | some h =>
    have hh := hs.attached h (List.mem_of_getElem? hhandle)
    cases a with
    | close =>
      have hperform : s.perform number .close =
          (.ok .done, ⟨s.disk, s.handles.set number h.close⟩) := by
        simp only [perform, hhandle]
      rw [hperform]
      have hclose : h.close.Attached s.disk := ⟨hh.1, by simp [Handle.close]⟩
      exact ⟨hs.set hs.openable hclose (fun _ hg => hg) number, .inl ⟨rfl, fun kind => rfl⟩⟩
    | reconnect =>
      obtain ⟨h', d, hrun, ho, hh', hothers, hcontent⟩ :=
        Handle.reconnect_of_attached hh hs.openable
      have hperform : s.perform number .reconnect =
          (.ok .done, ⟨d, s.handles.set number h'⟩) := by
        simp only [perform, hhandle, hrun, Except.map]
      rw [hperform]
      exact ⟨hs.set ho hh' hothers number, .inl ⟨hcontent, fun kind => rfl⟩⟩
    | query q =>
      obtain ⟨answer, h', d, hrun, ho, hh', hothers, hcases⟩ :=
        Handle.run_of_attached hh hs.openable q
      have hperform : s.perform number (.query q) =
          (answer, ⟨d, s.handles.set number h'⟩) := by
        simp only [perform, hhandle, hrun]
      rw [hperform]
      refine ⟨hs.set ho hh' hothers number, ?_⟩
      rcases hcases with ⟨⟨e, rfl⟩, hcontent⟩ | hanswer
      · exact .inl ⟨hcontent, fun kind => Action.given?_error kind _ e⟩
      · exact .inr ⟨q, h.limits, rfl, hanswer⟩

end Shelf

/-! ## §2 Runs -/

namespace Shelf

variable {s : Shelf}

/-- The numbers that actions in order hand out in a history, as their answers say. -/
def idsGiven (s : Shelf) (kind : HistoryKind) (steps : List (Nat × Action)) : List Int :=
  (steps.zip (s.performAll steps).1).filterMap fun x => x.1.2.given? kind x.2

/-- The place after actions in order. -/
def after (s : Shelf) (steps : List (Nat × Action)) : Shelf :=
  (s.performAll steps).2

theorem idsGiven_cons (s : Shelf) (kind : HistoryKind) (number : Nat) (a : Action)
    (steps : List (Nat × Action)) :
    s.idsGiven kind ((number, a) :: steps) =
      (a.given? kind (s.perform number a).1).toList ++
        (s.perform number a).2.idsGiven kind steps := by
  simp only [idsGiven, performAll, List.zip_cons_cons, List.filterMap_cons]
  cases a.given? kind (s.perform number a).1 <;> rfl

/-- One action gives out the number that its answer shows, or none. -/
theorem perform_gives (hs : s.Attached) (hd : s.disk.content.Numbered) (number : Nat) (a : Action)
    (kind : HistoryKind) :
    (s.table kind).Gives (a.given? kind (s.perform number a).1).toList
      ((s.perform number a).2.table kind) := by
  obtain ⟨-, ⟨hcontent, hnone⟩ | ⟨query, limits, rfl, hrun⟩⟩ := perform_of_attached hs number a
  · rw [hnone, table, table, hcontent]
    exact Table.gives_refl (hd kind)
  · have hgives := Database.run_gives hd limits true query kind
    rw [← hrun] at hgives
    exact hgives

/-- A run gives out the numbers that its answers show. -/
theorem after_gives (hs : s.Attached) (hd : s.disk.content.Numbered)
    (steps : List (Nat × Action)) :
    (s.after steps).Attached ∧
      ∀ kind, (s.table kind).Gives (s.idsGiven kind steps) ((s.after steps).table kind) := by
  induction steps generalizing s with
  | nil => exact ⟨hs, fun kind => Table.gives_refl (hd kind)⟩
  | cons x steps ih =>
    obtain ⟨number, a⟩ := x
    have hstep := perform_gives hs hd number a
    obtain ⟨hattached, hrest⟩ :=
      ih (perform_of_attached hs number a).1 fun kind => (hstep kind).numbered
    refine ⟨hattached, fun kind => ?_⟩
    rw [idsGiven_cons]
    exact (hstep kind).append (hrest kind)

/-- What becomes of the numbers of a history when `steps` are taken, and `later` ones after them. -/
structure NumbersGrow (s : Shelf) (kind : HistoryKind) (steps later : List (Nat × Action)) :
    Prop where
  /-- The numbers handed out are the next ones in sequence: what is refused or fails takes none. -/
  in_sequence : s.idsGiven kind steps =
    numbersFrom ((s.table kind).lastId + 1) (s.idsGiven kind steps).length
  /-- They grow. -/
  increasing : (s.idsGiven kind steps).Pairwise (· < ·)
  /-- They are beyond the numbers of all entries before. -/
  beyond : ∀ id ∈ s.idsGiven kind steps, ∀ e ∈ (s.table kind).rows, e.id < id
  /-- The number of an entry from before or in between that is gone stays the number of none. -/
  gone : ∀ id, (id ∈ s.idsGiven kind steps ∨ ∃ e ∈ (s.table kind).rows, e.id = id) →
    (∀ e ∈ ((s.after steps).table kind).rows, e.id ≠ id) →
    let s' := (s.after steps).after later
    ∀ e ∈ (s'.table kind).rows, e.id ≠ id
  /-- To remove the entry of such a number changes nothing, through whatever handle. -/
  delete_gone : ∀ id, (id ∈ s.idsGiven kind steps ∨ ∃ e ∈ (s.table kind).rows, e.id = id) →
    (∀ e ∈ ((s.after steps).table kind).rows, e.id ≠ id) →
    let s' := (s.after steps).after later
    ∀ number, (s'.perform number (.query (.delete kind id))).2.disk.content = s'.disk.content

/-- To remove the entry of a number that no entry has changes nothing. -/
theorem perform_delete_of_absent (hs : s.Attached) {kind : HistoryKind} {id : Int}
    (hgone : ∀ e ∈ (s.table kind).rows, e.id ≠ id) (number : Nat) :
    (s.perform number (.query (.delete kind id))).2.disk.content = s.disk.content := by
  obtain ⟨-, ⟨hcontent, -⟩ | ⟨query, limits, hquery, hrun⟩⟩ :=
    perform_of_attached hs number (.query (.delete kind id))
  · exact hcontent
  · cases hquery
    rw [Database.run_delete_of_absent hgone] at hrun
    exact congrArg Prod.snd hrun

/-- Whatever was done before through handles on one file, is done then and is done later, be it
recording, removing, clearing, closing or connecting anew: no number is handed out twice. -/
theorem numbersGrow_after_new (disk : Disk) (limits : List Limits) (ho : disk.Openable)
    (hd : disk.content.Numbered) (kind : HistoryKind) (before steps later : List (Nat × Action)) :
    ((new disk limits).after before).NumbersGrow kind steps later := by
  obtain ⟨hs, hbefore⟩ := after_gives (attached_new ho limits) hd before
  obtain ⟨hs', hsteps⟩ := after_gives hs (fun k => (hbefore k).numbered) steps
  obtain ⟨hs'', hlater⟩ := after_gives hs' (fun k => (hsteps k).numbered) later
  have hle := (hbefore kind).numbered.id_le
  have hgone : ∀ id, (id ∈ ((new disk limits).after before).idsGiven kind steps ∨
        ∃ e ∈ (((new disk limits).after before).table kind).rows, e.id = id) →
      (∀ e ∈ ((((new disk limits).after before).after steps).table kind).rows, e.id ≠ id) →
      ∀ e ∈ (((((new disk limits).after before).after steps).after later).table kind).rows,
        e.id ≠ id := by
    -- What was handed out or was an entry's is not beyond the last number given out, so what is
    -- given out later is beyond it.
    intro id hknown
    refine (hlater kind).absent ?_
    rcases hknown with hid | ⟨e, he, rfl⟩
    · exact ((hsteps kind).mem_bounds hid).2
    · have := hle e he
      have := (hsteps kind).lastId_eq
      omega
  refine ⟨(hsteps kind).ids_eq, ?_, ?_, hgone, ?_⟩
  · rw [(hsteps kind).ids_eq]
    exact pairwise_lt_numbersFrom _ _
  · intro id hid e he
    have := ((hsteps kind).mem_bounds hid).1
    have := hle e he
    omega
  · exact fun id hknown habsent => perform_delete_of_absent hs'' (hgone id hknown habsent)

/-- A file with odd numbers, of which the greatest entry is removed at once and the next one goes to
make room, before both histories are cleared. One handle is closed and connected anew. -/
theorem numbersGrow_after_new_odd_numbers :
    let disk := Disk.holding ⟨⟨[⟨7, 900, "b"⟩, ⟨-3, 950, "a"⟩], 7⟩, .empty⟩
    let before : List (Nat × Action) :=
      [(0, .query (.delete .queries 7)), (1, .query (.insert .queries "c" 5))]
    let steps : List (Nat × Action) :=
      [(1, .close), (1, .query (.insert .queries "d" 6)), (1, .reconnect),
        (1, .query (.insert .queries "c" 7)), (0, .query (.insert .queries "e" 8)),
        (0, .query .reset), (1, .query (.insert .queries "e" 8))]
    let later : List (Nat × Action) := [(0, .query (.insert .queries "f" 9))]
    disk.Openable ∧ disk.content.Numbered ∧
      ((new disk [⟨4, 3⟩, ⟨1, 3⟩]).after before).idsGiven .queries steps = [9, 10] ∧
      ((new disk [⟨4, 3⟩, ⟨1, 3⟩]).after before).NumbersGrow .queries steps later := by
  intro disk before steps later
  have ho : disk.Openable := Nat.zero_lt_one
  have hd : disk.content.Numbered := by
    intro kind
    cases kind
    · exact ⟨by decide, by decide⟩
    · exact Table.numbered_empty
  exact ⟨ho, hd, by decide +kernel,
    numbersGrow_after_new disk [⟨4, 3⟩, ⟨1, 3⟩] ho hd .queries before steps later⟩

end Shelf

end QueryPlayground.History
