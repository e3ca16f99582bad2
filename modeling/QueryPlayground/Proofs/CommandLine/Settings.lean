import QueryPlayground.Proofs.CommandLine.Apply

/-!
# Settings survive loading and saving

Settings that are loaded from a file are what the file says. Saved to another file they are loaded
from there as the same, and settings with a flaw are neither loaded nor saved anywhere.

Main statement: `keepsSettings`.
-/

namespace QueryPlayground.CommandLine

/-! ## §1 Files that can be written -/

namespace Files

variable {f f' : Files} {l : Location} {path : String}

/-- A text can be written at a path, once what is missing of its directory is made. -/
def Writable (f : Files) (path : String) : Prop :=
  ∃ f' f'', f.makeDirectories (parentPath path) = .ok f' ∧ f'.write path (.text "") = .ok f''

theorem exists_locate_of_write {f'' : Files} {n : Node} (h : f.write path n = .ok f'') :
    ∃ l, f.locate path = .ok l ∧ f.find? l ≠ some .directory := by
  unfold write at h
  cases hlocate : f.locate path with
  | error fault => simp [hlocate, bind, Except.bind] at h
  | ok l =>
    refine ⟨l, rfl, fun hfound => ?_⟩
    simp [hlocate, hfound, bind, Except.bind] at h

/-- What is written is read there. -/
theorem read_of_write (hf : f.Distinct) {f' : Files} {text : String}
    (h : f.write path (.text text) = .ok f') : f'.read path = .ok text := by
  obtain ⟨l, hlocate, hfree⟩ := exists_locate_of_write h
  obtain rfl : f.put l (.text text) = f' :=
    Except.ok.inj ((write_of_locate hlocate hfree _).symm.trans h)
  rw [read, lookup_put_self hf hlocate hfree]
  rfl

/-- Where one text can be written, every text can. -/
theorem Writable.exists_read (h : f.Writable path) (hf : f.Distinct) (text : String) :
    ∃ f' f'', f.makeDirectories (parentPath path) = .ok f' ∧
      f'.write path (.text text) = .ok f'' ∧ f''.read path = .ok text := by
  obtain ⟨f', _, hmade, hwrite⟩ := h
  obtain ⟨l, hlocate, hfree⟩ := exists_locate_of_write hwrite
  have hwrite' := write_of_locate hlocate hfree (.text text)
  exact ⟨f', _, hmade, hwrite',
    read_of_write ((makeDirectories_keeps hmade).distinct hf) hwrite'⟩

theorem has_of_read {text : String} (h : f.read path = .ok text) : f.has path = true := by
  unfold read at h
  cases hlookup : f.lookup path with
  | error fault => simp [hlookup, bind, Except.bind] at h
  | ok n => rw [has, hlookup]

end Files

/-! ## §2 Loading and saving -/

variable {w : World} {path text : String} {c : Configuration}

theorem run_loadFrom_of_read (h : w.files.read path = .ok text) :
    (loadFrom path).run.run w = (Configuration.load w.directories.store (some text), w) := by
  rw [run_loadFrom, settingsFrom, if_pos (Files.has_of_read h), h]
  rfl

theorem validate_of_loadFrom {w' : World} (h : (loadFrom path).run.run w = (.ok c, w')) :
    c.validate = .ok () := by
  rw [run_loadFrom] at h
  -- A file that is named is taken as it is or refused.
  have hsettings : settingsOf w.directories.store true (w.files.has path) (w.files.read path) =
      .ok c := (Prod.mk.inj h).1
  exact validate_of_settingsOf hsettings

theorem run_saveTo_of_flaw {e : Error} (h : c.validate = .error e) (path : String) (w : World) :
    (saveTo path c).run.run w = (.error e, w) := by
  rw [saveTo, run_get_bind, Configuration.save_of_flaw h]
  exact run_bind_of_error (run_orFail _ w) _

theorem run_writeFile {f : Files} (h : w.files.write path (.text text) = .ok f) :
    (writeFile path text).run.run w = (.ok (), { w with files := f }) := by
  rw [writeFile, run_get_bind, h]
  rfl

theorem run_saveTo {f f' : Files} (hsave : Configuration.save w.directories.store c = .ok text)
    (hmade : w.files.makeDirectories (parentPath path) = .ok f)
    (hwrite : f.write path (.text text) = .ok f') :
    (saveTo path c).run.run w = (.ok (), { w with files := f' }) := by
  have hdirectories : (orFail ((w.files.makeDirectories (parentPath path)).mapError
      (·.toError))).run.run w = (.ok f, w) := by
    rw [run_orFail, hmade]
    rfl
  have hset : (set { w with files := f } : Job Unit).run.run w = (.ok (), { w with files := f }) :=
    rfl
  rw [saveTo, run_get_bind, hsave, run_bind_of_ok (run_orFail _ w), run_bind_of_ok hdirectories,
    run_bind_of_ok hset]
  exact run_writeFile hwrite

/-- What is loaded from a text is saved where that can be, and loaded from there. -/
theorem exists_run_saveTo (hfiles : w.files.Distinct)
    (hload : Configuration.load w.directories.store (some text) = .ok c) {target : String}
    (htarget : w.files.Writable target) :
    ∃ w', (saveTo target c).run.run w = (.ok (), w') ∧
      (loadFrom target).run.run w' = (.ok c, w') := by
  obtain ⟨saved, hsave, hagain⟩ := Configuration.exists_save_of_load hload
  obtain ⟨f, f', hmade, hwrite, hread⟩ := htarget.exists_read hfiles saved
  refine ⟨{ w with files := f' }, run_saveTo hsave hmade hwrite, ?_⟩
  rw [run_loadFrom_of_read hread]
  exact congrArg (·, _) hagain

/-- What becomes of settings on the way from files and to files. -/
structure KeepsSettings (w : World) : Prop where
  /-- Settings that are loaded from a text are what it says. -/
  said : ∀ path text c, w.files.read path = .ok text →
    (loadFrom path).run.run w = (.ok c, w) → c.SaidBy w.directories.store text.toList
  /-- They are saved wherever a text can be written, and loaded from there as the same. -/
  survive : ∀ path text c target, w.files.read path = .ok text →
    (loadFrom path).run.run w = (.ok c, w) → w.files.Writable target →
      ∃ w', (saveTo target c).run.run w = (.ok (), w') ∧
        (loadFrom target).run.run w' = (.ok c, w')
  /-- Settings with a flaw are not saved, and nothing is written. -/
  refused : ∀ c path e, c.validate = .error e → (saveTo path c).run.run w = (.error e, w)
  /-- Settings that are loaded have no flaw. -/
  valid : ∀ path c w', (loadFrom path).run.run w = (.ok c, w') → c.validate = .ok ()

/-- Settings survive loading and saving among all files. -/
theorem keepsSettings (w : World) (hfiles : w.files.Distinct) : KeepsSettings w := by
  have hload {path text : String} {c : Configuration} (hread : w.files.read path = .ok text)
      (h : (loadFrom path).run.run w = (.ok c, w)) :
      Configuration.load w.directories.store (some text) = .ok c := by
    rw [run_loadFrom_of_read hread] at h
    exact (Prod.mk.inj h).1
  constructor
  case said =>
    intro path text c hread h
    exact Configuration.saidBy_of_parse (Configuration.load_eq_ok_iff.mp (hload hread h)).1
  case survive =>
    intro path text c target hread h htarget
    exact exists_run_saveTo hfiles (hload hread h) htarget
  case refused =>
    intro c path e h
    exact run_saveTo_of_flaw h path w
  case valid =>
    intro path c w' h
    exact validate_of_loadFrom h

/-- Two sections out of order, one of them an array that ends early and one with a name in an object,
beside a member that nobody knows, are saved in a directory that has to be made. -/
theorem keepsSettings_partial_file :
    let text := "\x7b\"x\": [1e999], \"evaluator\": \x7b\"args\": [\"-r\"], \"engine\":" ++
      " \x7b\"command\": null\x7d\x7d, \"apply\": [false, 0]\x7d"
    let w := World.holding [(["in.json"], .text text)]
    let c : Configuration :=
      { Configuration.default w.directories.store with
        apply := ⟨false, 0, 2, 30000⟩, evaluator := ⟨.command, "jq", ["-r"]⟩ }
    w.files.Distinct ∧ (loadFrom "in.json").run.run w = (.ok c, w) ∧
      c.SaidBy w.directories.store text.toList ∧
      ∃ w', (saveTo "new/out.json" c).run.run w = (.ok (), w') ∧
        (loadFrom "new/out.json").run.run w' = (.ok c, w') := by
  intro text w c
  have hfiles : w.files.Distinct := List.nodup_singleton _
  have hread : w.files.read "in.json" = .ok text := by rfl
  have hload : (loadFrom "in.json").run.run w = (.ok c, w) := by
    have hsettings : Configuration.load w.directories.store (some text) = .ok c := by
      decide +kernel
    rw [run_loadFrom_of_read hread, hsettings]
  have htarget : w.files.Writable "new/out.json" := ⟨_, _, rfl, rfl⟩
  have hkeeps := keepsSettings w hfiles
  exact ⟨hfiles, hload, hkeeps.said _ _ _ hread hload,
    hkeeps.survive _ _ _ _ hread hload htarget⟩

end QueryPlayground.CommandLine
