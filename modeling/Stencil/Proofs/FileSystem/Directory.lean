import Stencil.Proofs.FileSystem.Walk

/-!
# Making Directories

All that making directories does is to add directories.

Making a directory and those above it is the one operation that can leave part
of its work behind: some directories may have been made when the next one
cannot be. `Grows` covers both outcomes. Wherever something stood it still
stands, and what is new is a directory. Regular files are not touched, and
every way is kept.

## Main definitions

* `FileSystem.Grows`: Directories were added where nothing stood.

## Theorems

* `FileSystem.Grows.keepsWays`: Adding directories keeps ways.
* `FileSystem.Grows.find?_eq_file_iff`: Adding directories keeps files.
* `FileSystem.grows_makeDirectories`: Making directories adds directories.
-/

namespace Stencil

namespace FileSystem

/-- Directories were added where nothing stood, and nothing else happened. -/
structure Grows (fs fs' : FileSystem) : Prop where
  /-- The working directory is the same. -/
  here : fs'.here = fs.here
  /-- What stands somewhere stood there, or it is a new directory. -/
  find? : ∀ loc, fs'.find? loc = fs.find? loc ∨
    fs.find? loc = none ∧ fs'.find? loc = some .directory

namespace Grows

variable {fs fs' fs'' : FileSystem}

theorem refl (fs : FileSystem) : Grows fs fs :=
  ⟨rfl, fun _ => Or.inl rfl⟩

theorem trans (h : Grows fs fs') (h' : Grows fs' fs'') : Grows fs fs'' := by
  refine ⟨h'.here.trans h.here, fun loc => ?_⟩
  rcases h.find? loc with heq | ⟨hnone, hdir⟩
  · rcases h'.find? loc with heq' | ⟨hnone', hdir'⟩
    · exact Or.inl (heq'.trans heq)
    · exact Or.inr ⟨heq.symm.trans hnone', hdir'⟩
  · rcases h'.find? loc with heq' | ⟨hnone', _⟩
    · exact Or.inr ⟨hnone, heq'.trans hdir⟩
    · exact absurd (hnone'.symm.trans hdir) (Option.some_ne_none _).symm

/-- What stands somewhere still stands there. -/
theorem find?_eq_some (h : Grows fs fs') {loc : Location} {e : Entry}
    (he : fs.find? loc = some e) : fs'.find? loc = some e := by
  rcases h.find? loc with heq | ⟨hnone, _⟩
  · rw [heq, he]
  · exact absurd (hnone.symm.trans he) (Option.some_ne_none _).symm

theorem keepsWays (h : Grows fs fs') : KeepsWays fs fs' :=
  ⟨h.here, fun _ => h.find?_eq_some, fun _ _ => h.find?_eq_some⟩

/-- Files are those that were there. -/
theorem find?_eq_file_iff (h : Grows fs fs') (loc : Location) (data : ByteArray) (mode : Nat) :
    fs'.find? loc = some (.file data mode) ↔ fs.find? loc = some (.file data mode) := by
  refine ⟨fun hfile => ?_, h.find?_eq_some⟩
  rcases h.find? loc with heq | ⟨_, hdir⟩
  · rw [← heq, hfile]
  · rw [hdir] at hfile
    exact absurd hfile (by simp only [Option.some.injEq, reduceCtorEq, not_false_eq_true])

/-- A directory can be put where nothing stands. -/
theorem put_directory {loc : Location} (h : fs.find? loc = none) :
    Grows fs (fs.put loc .directory) := by
  have hroot : loc ≠ [] := by
    intro heq
    rw [heq, find?_nil] at h
    exact Option.some_ne_none _ h
  refine ⟨rfl, fun l => ?_⟩
  by_cases heq : l = loc
  · rw [heq, find?_put_self fs hroot]
    exact Or.inr ⟨h, rfl⟩
  · exact Or.inl (find?_put_of_ne fs heq _)

end Grows

theorem locateHere_eq_ok_iff {fs : FileSystem} {p : Path} {found : Found} :
    fs.locateHere p = .ok found ↔ fs.locate p.text false = .ok found := by
  unfold locateHere
  rcases fs.locate p.text false with c | found'
  · simp only [reduceCtorEq]
  · simp only [Except.ok.injEq]

theorem grows_makeDirectory {fs fs' : FileSystem} {p : Path}
    (h : fs.makeDirectory p = .ok fs') : Grows fs fs' := by
  unfold makeDirectory at h
  rcases hfound : fs.locateHere p with f | ⟨loc, entry⟩
  · simp only [hfound, reduceCtorEq] at h
  · rw [hfound] at h
    cases entry with
    | some e => exact absurd h (by simp only [reduceCtorEq, not_false_eq_true])
    | none =>
        rw [← Except.ok.inj h]
        exact Grows.put_directory (entry_of_locate (locateHere_eq_ok_iff.mp hfound)).symm

theorem grows_ensureDirectory {fs fs' : FileSystem} {p : Path}
    (h : fs.ensureDirectory p = .ok fs') : Grows fs fs' := by
  unfold ensureDirectory at h
  rcases hmake : fs.makeDirectory p with f | made
  · simp only [hmake] at h
    by_cases hcause : (f.cause == .noEntry) = true
    · rw [if_pos hcause] at h
      exact absurd h (by simp only [reduceCtorEq, not_false_eq_true])
    · rw [if_neg hcause] at h
      -- Something is there already, and if it is a directory, nothing is done.
      rcases hdir : fs.isDirectory p with g | isDir
      · simp only [hdir, reduceCtorEq] at h
      · cases isDir with
        | false => simp only [hdir, reduceCtorEq] at h
        | true =>
            simp only [hdir, Except.ok.injEq] at h
            rw [← h]
            exact Grows.refl fs
  · simp only [hmake, Except.ok.injEq] at h
    rw [← h]
    exact grows_makeDirectory hmake

/-- Whether or not all directories could be made, all that happened is that
    some were. The induction is on how far up the operation goes. -/
theorem grows_makeDirectoriesUp (fs : FileSystem) (n : Nat) :
    ∀ p, Grows fs (fs.makeDirectoriesUp p n).1 := by
  induction n with
  | zero => intro p; exact Grows.refl fs
  | succ n ih =>
      intro p
      rw [makeDirectoriesUp]
      rcases hfirst : fs.ensureDirectory p with f | made
      · simp only []
        by_cases hup : (f.cause == .noEntry && p.parent != p) = true
        · rw [if_pos hup]
          -- The directories above are made first, and then this one once more.
          have habove := ih p.parent
          rcases hrest : fs.makeDirectoriesUp p.parent n with ⟨fs', result⟩
          rw [hrest] at habove
          rcases result with g | _
          · exact habove
          · simp only []
            rcases hsecond : fs'.ensureDirectory p with g | made
            · exact habove
            · exact habove.trans (grows_ensureDirectory hsecond)
        · rw [if_neg hup]
          exact Grows.refl fs
      · exact grows_ensureDirectory hfirst

theorem grows_makeDirectories (fs : FileSystem) (p : Path) :
    Grows fs (fs.makeDirectories p).1 :=
  grows_makeDirectoriesUp fs _ p

end FileSystem

end Stencil
