import QueryPlayground.CommandLine.Files
import QueryPlayground.Proofs.History.Shelf

/-!
# The history among the files

What a command keeps of the history goes to the place that its path names, behind directories that
are made where they are missing. There the next command finds it as it was kept, and whatever was
anywhere else is still there.

Main statements: `Files.content_keepDisk` and `Files.find?_keepDisk`.
-/

namespace QueryPlayground.CommandLine

open QueryPlayground.History (Database Disk Found)

namespace Files

variable {f f' f'' : Files} {l m : Location} {n : Node} {path : String}

/-! ## §1 Directories -/

/-- No place is listed twice. -/
def Distinct (f : Files) : Prop :=
  (f.nodes.map Prod.fst).Nodup

/-- A place is a directory if it is the top, if it is listed as one, or if something goes on behind it.
-/
theorem isDirectory_iff :
    f.isDirectory l = true ↔
      l = [] ∨ ∃ x ∈ f.nodes, x.1 = l ∧ x.2 = .directory ∨ x.1 ≠ l ∧ l <+: x.1 := by
  simp only [isDirectory, Bool.or_eq_true, List.isEmpty_iff, List.any_eq_true]
  refine or_congr Iff.rfl (exists_congr fun x => and_congr Iff.rfl ?_)
  by_cases hx : x.1 = l <;> simp [hx]

/-- At a directory there is something. -/
theorem find?_of_isDirectory (h : f.isDirectory l = true) : f.find? l ≠ none := by
  unfold find?
  split
  next => simp
  next => simp [h]

/-- Where something goes on there is a directory above. -/
theorem isDirectory_dropLast (h : f.isDirectory l = true) : f.isDirectory l.dropLast = true := by
  rcases List.eq_nil_or_concat' l with rfl | ⟨m, name, rfl⟩
  · exact h
  rw [List.dropLast_concat]
  rcases isDirectory_iff.mp h with hnil | ⟨x, hx, hcases⟩
  · simp at hnil
  · have hprefix : m ++ [name] <+: x.1 := by
      rcases hcases with ⟨heq, -⟩ | ⟨-, hprefix⟩
      · exact heq ▸ List.prefix_refl _
      · exact hprefix
    refine isDirectory_iff.mpr
      (.inr ⟨x, hx, .inr ⟨?_, (List.prefix_append m [name]).trans hprefix⟩⟩)
    -- What goes on behind the place is longer than the place.
    intro heq
    have hlength := hprefix.length_le
    rw [heq, List.length_append, List.length_singleton] at hlength
    omega

/-! ## §2 Putting -/

/-- What is put at a place is there, and at other places there is what was there. -/
theorem lookup_put (f : Files) (l m : Location) (n : Node) :
    (f.put l n).nodes.lookup m = if m = l then some n else f.nodes.lookup m := by
  rw [put, List.lookup_cons]
  by_cases hm : m = l
  · simp [hm]
  · have hbeq : (m == l) = false := by simpa using hm
    simp only [hbeq, hm, if_false]
    -- The other entries at the place play no part, as another place is looked for.
    induction f.nodes with
    | nil => rfl
    | cons x nodes ih =>
      obtain ⟨k, v⟩ := x
      by_cases hk : k = l
      · subst hk
        simp [List.lookup_cons, hbeq, ih]
      · simp [List.lookup_cons, hk, ih]

/-- A place that is put anew takes the place of what was listed. -/
theorem distinct_put (hf : f.Distinct) (l : Location) (n : Node) : (f.put l n).Distinct := by
  rw [Distinct, put, List.map_cons, List.nodup_cons]
  exact ⟨by simp, hf.sublist (List.filter_sublist.map Prod.fst)⟩

/-- What is listed at a place is found there, as it is listed once. -/
theorem lookup_of_mem (hf : f.Distinct) {x : Location × Node} (hx : x ∈ f.nodes) :
    f.nodes.lookup x.1 = some x.2 := by
  obtain ⟨before, after, hnodes⟩ := List.append_of_mem hx
  refine List.lookup_eq_some_iff.mpr ⟨before, after, hnodes, fun y hy => ?_⟩
  rw [Distinct, hnodes, List.map_append, List.map_cons] at hf
  have hne := (List.nodup_append.mp hf).2.2 y.1 (List.mem_map_of_mem hy) x.1 List.mem_cons_self
  simpa using Ne.symm hne

/-- What is listed at other places stays listed. -/
theorem mem_put {x : Location × Node} (hx : x ∈ f.nodes) (hne : x.1 ≠ l) (n : Node) :
    x ∈ (f.put l n).nodes :=
  List.mem_cons_of_mem _ (List.mem_filter.mpr ⟨hx, by simpa using hne⟩)

/-- What is put somewhere takes no directory away elsewhere. -/
theorem isDirectory_put_of_ne (h : f.isDirectory m = true) (hne : m ≠ l) (n : Node) :
    (f.put l n).isDirectory m = true := by
  rcases isDirectory_iff.mp h with rfl | ⟨x, hx, hcases⟩
  · exact isDirectory_iff.mpr (.inl rfl)
  · by_cases hxl : x.1 = l
    · -- What was there before gives way to something at the same place.
      obtain ⟨heq, -⟩ | ⟨-, hprefix⟩ := hcases
      · exact (hne (heq.symm.trans hxl)).elim
      · exact isDirectory_iff.mpr
          (.inr ⟨(l, n), List.mem_cons_self, .inr ⟨Ne.symm hne, hxl ▸ hprefix⟩⟩)
    · exact isDirectory_iff.mpr (.inr ⟨x, mem_put hx hxl n, hcases⟩)

/-- What is found at other places is found there still. -/
theorem find?_put_of_ne {x : Node} (h : f.find? m = some x) (hne : m ≠ l) (n : Node) :
    (f.put l n).find? m = some x := by
  rw [find?, lookup_put, if_neg hne]
  unfold find? at h
  -- Something is listed there, or the place is a directory because something goes on behind it.
  split at h
  next y hy => simpa [hy] using h
  next hnone =>
    split at h
    next hdirectory => simpa [hnone, isDirectory_put_of_ne hdirectory hne n] using h
    next => cases h

/-- What is put at a place is found there. -/
theorem find?_put_self (f : Files) (l : Location) (n : Node) : (f.put l n).find? l = some n := by
  rw [find?, lookup_put, if_pos rfl]

/-- All that there was is still there. -/
structure Keeps (f f' : Files) : Prop where
  workDir_eq : f'.workDir = f.workDir
  distinct : f.Distinct → f'.Distinct
  find? : ∀ {m n}, f.find? m = some n → f'.find? m = some n
  isDirectory : ∀ {m}, f.isDirectory m = true → f'.isDirectory m = true

/-- Files keep what they have. -/
theorem Keeps.refl (f : Files) : f.Keeps f :=
  ⟨rfl, id, id, id⟩

/-- What is kept twice is kept. -/
theorem Keeps.trans (h : f.Keeps f') (h' : f'.Keeps f'') : f.Keeps f'' :=
  ⟨h'.workDir_eq.trans h.workDir_eq, h'.distinct ∘ h.distinct, fun hm => h'.find? (h.find? hm),
    fun hm => h'.isDirectory (h.isDirectory hm)⟩

/-- Something put where there was nothing takes nothing away. -/
theorem keeps_put (h : f.find? l = none) (n : Node) : f.Keeps (f.put l n) := by
  refine ⟨rfl, fun hf => distinct_put hf l n, fun {m x} hx => ?_, fun {m} hm => ?_⟩
  · exact find?_put_of_ne hx (by rintro rfl; simp [h] at hx) n
  · exact isDirectory_put_of_ne hm (by rintro rfl; exact find?_of_isDirectory hm h) n

/-- A file that takes the place of a file is in nobody's way. -/
theorem isDirectory_put (hf : f.Distinct) (hl : f.find? l ≠ some .directory)
    (h : f.isDirectory m = true) (n : Node) : (f.put l n).isDirectory m = true := by
  by_cases hne : m = l
  · subst hne
    rcases isDirectory_iff.mp h with rfl | ⟨x, hx, ⟨heq, hdirectory⟩ | ⟨hxm, hprefix⟩⟩
    · exact isDirectory_iff.mpr (.inl rfl)
    · -- The place would be listed as a directory, and it is listed only once.
      refine (hl ?_).elim
      rw [find?, ← heq, lookup_of_mem hf hx, hdirectory]
    · exact isDirectory_iff.mpr (.inr ⟨x, mem_put hx hxm n, .inr ⟨hxm, hprefix⟩⟩)
  · exact isDirectory_put_of_ne h hne n

/-! ## §3 Paths -/

/-- Where directories stay directories a path leads where it led before. -/
theorem walk_of_isDirectory (hf : ∀ m, f.isDirectory m = true → f'.isDirectory m = true)
    {names : List String} (h : f.walk l names = .ok m) : f'.walk l names = .ok m := by
  induction names generalizing l with
  | nil => exact h
  -- At each name there is the same to do, if there is a directory on both sides.
  | cons name rest ih =>
    unfold walk at h ⊢
    split at h
    next => simp at h
    next hdirectory =>
      have hdirectory' : f'.isDirectory l = true := hf l (by simpa using hdirectory)
      simp only [hdirectory', Bool.not_true, Bool.false_eq_true, if_false]
      split at h
      next hskip => rw [if_pos hskip]; exact ih h
      next hskip =>
        rw [if_neg hskip]
        split at h
        next hup => rw [if_pos hup]; exact ih h
        next hup =>
          rw [if_neg hup]
          split at h
          next => simp at h
          next hlong => rw [if_neg hlong]; exact ih h

/-- A path leads to the same place from the same directory. -/
theorem locate_of_isDirectory (hworkDir : f'.workDir = f.workDir)
    (hf : ∀ m, f.isDirectory m = true → f'.isDirectory m = true) (h : f.locate path = .ok l) :
    f'.locate path = .ok l := by
  unfold Files.locate at h ⊢
  rw [hworkDir]
  split at h
  next => cases h
  next hne =>
    rw [if_neg hne]
    split at h
    next => cases h
    next hnul =>
      rw [if_neg hnul]
      exact walk_of_isDirectory hf h

/-- Where a path leads to nothing, it leads there from a directory. -/
theorem isDirectory_dropLast_of_walk {names : List String}
    (hl : f.find? l = none → f.isDirectory l.dropLast = true) (h : f.walk l names = .ok m)
    (hm : f.find? m = none) : f.isDirectory m.dropLast = true := by
  -- By induction on the names. Only the last of them may lead to nothing, from the directory
  -- before it.
  induction names generalizing l with
  | nil =>
    cases h
    exact hl hm
  | cons name rest ih =>
    unfold walk at h
    split at h
    next => simp at h
    next hdirectory =>
      have hdirectory : f.isDirectory l = true := by simpa using hdirectory
      split at h
      next => exact ih hl h
      next =>
        split at h
        next =>
          exact ih (fun hnone => (find?_of_isDirectory (isDirectory_dropLast hdirectory) hnone).elim) h
        next =>
          split at h
          next => simp at h
          next => exact ih (fun _ => by rwa [List.dropLast_concat]) h

/-- A path has a name at least, if only an empty one. -/
theorem pieces_ne_nil (path : String) : pieces path ≠ [] := by
  have hgo (done cs : List Char) : pieces.go done cs ≠ [] := by
    induction cs generalizing done with
    | nil => simp [pieces.go]
    | cons c cs ih =>
      unfold pieces.go
      split
      next => simp
      next => exact ih _
  exact hgo [] path.toList

/-- What a path leads to, and is nothing, is in a directory. -/
theorem isDirectory_dropLast_of_locate (h : f.locate path = .ok l) (hl : f.find? l = none) :
    f.isDirectory l.dropLast = true := by
  unfold Files.locate at h
  split at h
  next => cases h
  next =>
    split at h
    next => cases h
    next =>
      obtain ⟨name, rest, hpieces⟩ := List.exists_cons_of_ne_nil (pieces_ne_nil path)
      generalize (if isAbsolute path then [] else f.workDir) = start at h
      refine isDirectory_dropLast_of_walk (fun hnone => ?_) h hl
      -- The first step needs a directory to start from, so there is something at the start.
      rw [hpieces, walk] at h
      split at h
      next => simp at h
      next hdirectory => exact (find?_of_isDirectory (by simpa using hdirectory) hnone).elim

/-- A node goes where a path leads to a file or to nothing. -/
theorem write_of_locate (h : f.locate path = .ok l) (hl : f.find? l ≠ some .directory) (n : Node) :
    f.write path n = .ok (f.put l n) := by
  simp only [write, h, bind, Except.bind, pure, Except.pure]
  split
  next hfound => exact (hl hfound).elim
  next => rfl
  next hfound => rw [if_pos (isDirectory_dropLast_of_locate h hfound)]

/-- And there the path finds it. -/
theorem lookup_put_self (hf : f.Distinct) (h : f.locate path = .ok l)
    (hl : f.find? l ≠ some .directory) (n : Node) : (f.put l n).lookup path = .ok n := by
  -- The path leads to the same place, as the directories have stayed.
  have hlocated : (f.put l n).locate path = .ok l :=
    locate_of_isDirectory (f := f) rfl (fun _ hm => isDirectory_put hf hl hm n) h
  simp only [lookup, hlocated, find?_put_self, bind, Except.bind, pure, Except.pure]

/-! ## §4 Directories that are made -/

/-- The places that names lead through, where two dots go up in the path itself. -/
def stops (l : Location) : List String → List Location
  | [] => []
  | name :: rest =>
    if name.isEmpty || name == "." then stops l rest
    else if name == ".." then stops l.dropLast rest
    else (l ++ [name]) :: stops (l ++ [name]) rest

/-- Once directories were made along names, there are directories at all places on the way, and all
that there was is still there. -/
theorem makeAlong_spec {names : List String} (h : f.makeAlong l names = .ok f') :
    f.Keeps f' ∧ (∀ m ∈ stops l names, f'.find? m = some .directory) ∧
      ∀ f'' : Files, (∀ m ∈ stops l names, f''.find? m = some .directory) →
        f''.makeAlong l names = .ok f'' := by
  -- By induction on the names: a dot changes nothing, two dots go up, any other name is a directory
  -- that is there or is made.
  induction names generalizing f l with
  | nil =>
    obtain rfl := Except.ok.inj h
    exact ⟨.refl _, by simp [stops], fun f'' _ => rfl⟩
  | cons name rest ih =>
    unfold makeAlong at h
    unfold stops
    split at h
    next hskip =>
      obtain ⟨hkeeps, hstops, hagain⟩ := ih h
      simp only [hskip, if_true]
      refine ⟨hkeeps, hstops, fun f'' hf'' => ?_⟩
      rw [makeAlong, if_pos hskip]
      exact hagain f'' hf''
    next hskip =>
      split at h
      next hup =>
        obtain ⟨hkeeps, hstops, hagain⟩ := ih h
        simp only [hskip, hup, Bool.false_eq_true, if_true, if_false]
        refine ⟨hkeeps, hstops, fun f'' hf'' => ?_⟩
        rw [makeAlong, if_neg hskip, if_pos hup]
        exact hagain f'' hf''
      next hup =>
        split at h
        next => cases h
        next hlong =>
          -- Here there is a directory, or there was nothing and one is made.
          have hfirst : ∃ f₁ : Files, f.Keeps f₁ ∧ f₁.find? (l ++ [name]) = some .directory ∧
              f₁.makeAlong (l ++ [name]) rest = .ok f' := by
            dsimp only at h
            split at h
            next hthere => exact ⟨f, .refl f, hthere, h⟩
            next => cases h
            next hnone =>
              exact ⟨_, keeps_put hnone _, find?_put_self f _ _, h⟩
          obtain ⟨f₁, hkeeps₁, hthere, h₁⟩ := hfirst
          obtain ⟨hkeeps, hstops, hagain⟩ := ih h₁
          simp only [hskip, hup, Bool.false_eq_true, if_false, List.forall_mem_cons]
          refine ⟨hkeeps₁.trans hkeeps, ⟨hkeeps.find? hthere, hstops⟩, fun f'' hf'' => ?_⟩
          rw [makeAlong, if_neg hskip, if_neg hup, if_neg hlong]
          simp only [hf''.1]
          exact hagain f'' hf''.2

/-- Making directories takes nothing away. -/
theorem makeDirectories_keeps (h : f.makeDirectories path = .ok f') : f.Keeps f' :=
  (makeAlong_spec h).1

/-- A file that takes the place of a file leaves the directories that were made. -/
theorem makeDirectories_put (h : f.makeDirectories path = .ok f') (hl : f'.find? l ≠ some .directory)
    (n : Node) : (f'.put l n).makeDirectories path = .ok (f'.put l n) := by
  obtain ⟨hkeeps, hstops, hagain⟩ := makeAlong_spec h
  have hstart : (f'.put l n).workDir = f.workDir := hkeeps.workDir_eq
  rw [makeDirectories, hstart]
  refine hagain _ fun m hm => find?_put_of_ne (hstops m hm) ?_ n
  -- The file does not stand at a place where a directory was made.
  rintro rfl
  exact hl (hstops m hm)

/-! ## §5 The place of the history -/

/-- Where the history at a path is kept: where there is a database, an empty file or nothing, and the
path leads there once its directory is made. -/
def historyPlace? (f : Files) (path : String) : Option Location :=
  if isFleeting path then none
  else
    match f.makeDirectories (parentPath path) with
    | .error _ => none
    | .ok f' =>
      match f'.locate path with
      | .error _ => none
      | .ok l =>
        match f'.find? l with
        | none | some (.text "") | some (.database _) => some l
        | some _ => none

/-- The files once the directory of a history is made, whose place can be written to. -/
structure Prepared (f : Files) (path : String) (l : Location) (f' : Files) : Prop where
  lasting : isFleeting path = false
  made : f.makeDirectories (parentPath path) = .ok f'
  located : f'.locate path = .ok l
  fits : f'.find? l = none ∨ f'.find? l = some (.text "") ∨ ∃ d, f'.find? l = some (.database d)

/-- A history that has a place has it behind directories that can be made. -/
theorem prepared_of_historyPlace? (h : f.historyPlace? path = some l) :
    ∃ f', f.Prepared path l f' := by
  unfold historyPlace? at h
  split at h
  next => cases h
  next hlasting =>
    split at h
    next => cases h
    next f' hmade =>
      split at h
      next => cases h
      next m hlocated =>
        have hlasting : isFleeting path = false := by simpa using hlasting
        -- Nothing, an empty file and a database fit; a directory and any other file do not.
        split at h
        next hfound =>
          cases h
          exact ⟨f', hlasting, hmade, hlocated, .inl hfound⟩
        next hfound =>
          cases h
          exact ⟨f', hlasting, hmade, hlocated, .inr (.inl hfound)⟩
        next d hfound =>
          cases h
          exact ⟨f', hlasting, hmade, hlocated, .inr (.inr ⟨d, hfound⟩)⟩
        next => cases h

namespace Prepared

/-- At the place of a history there is no directory. -/
theorem ne_directory (h : f.Prepared path l f') : f'.find? l ≠ some .directory := by
  rcases h.fits with hfound | hfound | ⟨d, hfound⟩ <;> simp [hfound]

/-- A node can be written to the place of a history. -/
theorem write_eq (h : f.Prepared path l f') (n : Node) : f'.write path n = .ok (f'.put l n) :=
  write_of_locate h.located h.ne_directory n

/-- What a command keeps goes to the place of the history. -/
theorem keepDisk_eq (h : f.Prepared path l f') {d : Disk} {n : Nat} (hd : d.found = .database n) :
    f.keepDisk path d = f'.put l (.database (d.database n)) := by
  simp only [keepDisk, hd, h.lasting, Bool.false_eq_true, if_false, h.made, h.write_eq]

/-- What is kept at the place is what is found there. -/
theorem disk_put (h : f.Prepared path l f') (hf : f.Distinct) (d : Database) :
    (f'.put l (.database d)).disk path = .holding d := by
  have hkeeps := makeDirectories_keeps h.made
  have hmade := makeDirectories_put h.made h.ne_directory (.database d)
  have hlookup := lookup_put_self (hkeeps.distinct hf) h.located h.ne_directory (.database d)
  simp only [disk, h.lasting, Bool.false_eq_true, if_false, hmade, hlookup]

/-- A history that has a place can be opened. -/
theorem openable (h : f.Prepared path l f') : (f.disk path).Openable := by
  have hdisk : f.disk path = .vacant ∨ ∃ d, f.disk path = .holding d := by
    simp only [disk, h.lasting, Bool.false_eq_true, if_false, h.made, lookup, h.located, bind,
      Except.bind, pure, Except.pure]
    rcases h.fits with hfound | hfound | ⟨d, hfound⟩ <;> simp [hfound]
  obtain hdisk | ⟨d, hdisk⟩ := hdisk
  · rw [hdisk]
    trivial
  · rw [hdisk]
    exact Nat.zero_lt_one

end Prepared

variable {d : Disk}

theorem openable_disk (h : f.historyPlace? path = some l) : (f.disk path).Openable := by
  obtain ⟨f', hprepared⟩ := prepared_of_historyPlace? h
  exact hprepared.openable

theorem keepDisk_of_ne (h : ∀ n, d.found ≠ .database n) (f : Files) (path : String) :
    f.keepDisk path d = f := by
  unfold keepDisk
  split
  next n hfound => exact (h n hfound).elim
  next => rfl

/-- A history that is kept at its place is found there again. -/
theorem content_keepDisk (h : f.historyPlace? path = some l) (hf : f.Distinct) {n : Nat}
    (hd : d.found = .database n) : ((f.keepDisk path d).disk path).content = d.content := by
  obtain ⟨f', hprepared⟩ := prepared_of_historyPlace? h
  rw [hprepared.keepDisk_eq hd, hprepared.disk_put hf, Disk.content, Disk.content, hd]
  rfl

/-- Keeping a history changes nothing at other places. -/
theorem find?_keepDisk (h : f.historyPlace? path = some l) (hm : f.find? m = some n)
    (hne : m ≠ l) : (f.keepDisk path d).find? m = some n := by
  by_cases hd : ∃ number, d.found = .database number
  · obtain ⟨number, hd⟩ := hd
    obtain ⟨f', hprepared⟩ := prepared_of_historyPlace? h
    rw [hprepared.keepDisk_eq hd]
    exact find?_put_of_ne ((makeDirectories_keeps hprepared.made).find? hm) hne _
  · rw [keepDisk_of_ne (fun number hnumber => hd ⟨number, hnumber⟩)]
    exact hm

theorem write_of_locate_error {fault : FileFault} (h : f.locate path = .error fault) (n : Node) :
    f.write path n = .error fault := by
  simp [write, h, bind, Except.bind]

theorem write_of_directory (h : f.locate path = .ok l) (hl : f.find? l = some .directory)
    (n : Node) : f.write path n = .error .isDirectory := by
  simp [write, h, hl, bind, Except.bind]

/-- Without a place for the history nothing is kept. -/
theorem keepDisk_of_historyPlace?_none (h : f.historyPlace? path = none)
    (hd : ∀ reason, (f.disk path).found = .obstacle reason → d.found = .obstacle reason) :
    f.keepDisk path d = f := by
  unfold historyPlace? at h
  unfold keepDisk
  split
  next n hfound =>
    split at h
    next hfleeting => rw [if_pos hfleeting]
    next hfleeting =>
      rw [if_neg hfleeting]
      generalize hmade : f.makeDirectories (parentPath path) = made at h ⊢
      cases made with
      | error fault => rfl
      | ok f' =>
        dsimp only at h ⊢
        cases hlocate : f'.locate path with
        | error fault => simp only [write_of_locate_error hlocate]
        | ok l =>
          rw [hlocate] at h
          dsimp only at h
          split at h
          next => cases h
          next => cases h
          next => cases h
          next node hempty hdatabase hnode =>
            cases node with
            | directory => simp only [write_of_directory hlocate hnode]
            | database d' => exact (hdatabase d' rfl).elim
            | text content =>
              -- A file with a text is no database, so nothing could have been opened.
              have hne : content ≠ "" := fun heq => hempty (congrArg Node.text heq)
              have hdisk : f.disk path = .blocked foreignReason := by
                simp [disk, hfleeting, hmade, lookup, hlocate, hnode, bind, Except.bind, pure,
                  Except.pure]
              have hobstacle := hd foreignReason (by rw [hdisk]; rfl)
              exact Found.noConfusion (hfound.symm.trans hobstacle)
  next => rfl

end Files

end QueryPlayground.CommandLine
