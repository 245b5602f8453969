import Stencil.Proofs.FileSystem.LinkFree

/-!
# When Directories Can Be Made

Without links a directory can be made unless a file is in the way.

Making a directory tries the directory itself, goes up while something above it
is missing, and comes down again. What it meets on the way are directories,
missing entries and files. Only a file stops it, so it succeeds exactly if no
location on the way is a file, and then all of the way consists of directories.
That is monotone: where files stay files, what can be made later could have
been made before.

## Theorems

* `Path.Fits.parent`: Going up, a path stays one that can be looked up.
* `FileSystem.makeDirectories_eq_ok`: Directories can be made where no file is.
* `FileSystem.reaches_of_makeDirectories`: They are there once they were made.
* `FileSystem.makeDirectoriesUp_induct`: What making one keeps, making several
  keeps.
* `FileSystem.Proper.makeDirectories`: Making directories keeps file systems
  proper.
* `FileSystem.find?_makeDirectories`: Directories are made on the way only.
-/

namespace Stencil

namespace Text

/-- Without its last piece, what is joined is not longer. -/
theorem size_joinStrings_dropLast (sep : String) (parts : List String) :
    (joinStrings sep parts.dropLast).utf8ByteSize ≤ (joinStrings sep parts).utf8ByteSize := by
  induction parts with
  | nil => exact Nat.le_refl _
  | cons p ps ih =>
      cases ps with
      | nil => exact Nat.zero_le _
      | cons q qs =>
          rw [List.dropLast_cons_cons]
          rcases hrest : (q :: qs).dropLast with _ | ⟨r, rs⟩
          · simp only [joinStrings, String.utf8ByteSize_append]
            omega
          · rw [hrest] at ih
            simp only [joinStrings, String.utf8ByteSize_append] at ih ⊢
            omega

end Text

namespace Path

variable {p : Path}

/-- Going up, a path stays one that can be looked up. -/
theorem Fits.parent (h : p.Fits) (hp : p.Spelled) : p.parent.Fits := by
  refine ⟨h.nullFree.parent, ?_, fun part hpart => ?_⟩
  · have hjoin := Text.size_joinStrings_dropLast "/" p.parts
    have hsize := h.size
    rw [hp.text_eq, String.utf8ByteSize_append] at hsize
    rw [hp.parent.text_eq, String.utf8ByteSize_append]
    simp only [Path.parent]
    omega
  · exact h.parts part ((List.dropLast_sublist p.parts).mem hpart)

/-- The location of a path consists of names. -/
theorem Spelled.isName_place (h : p.Spelled) (hnull : p.NullFree) : ∀ n ∈ p.place, IsName n := by
  intro n hn
  rcases h.mem_place hn with ⟨hpiece, hdots⟩
  have hmem : n ∈ p.parts := by
    rcases FileSystem.mem_descend p.parts [] hn with hnil | hmem
    · exact absurd hnil List.not_mem_nil
    · exact hmem.1
  exact ⟨hpiece.ne_empty, hpiece.ne_dot, hdots, hpiece.noSlash, hnull.parts n hmem⟩

end Path

namespace FileSystem

variable {fs fs' : FileSystem} {p : Path}

theorem Grows.linkFree (h : Grows fs fs') (hfs : fs.LinkFree) : fs'.LinkFree := by
  intro loc target hlink
  rcases h.find? loc with heq | ⟨_, hdir⟩
  · exact hfs loc target (heq ▸ hlink)
  · rw [hdir] at hlink
    exact absurd hlink (by simp only [Option.some.injEq, reduceCtorEq, not_false_eq_true])

theorem Grows.isFileAt_iff (h : Grows fs fs') (loc : Location) :
    fs'.IsFileAt loc ↔ fs.IsFileAt loc :=
  exists_congr (fun data => exists_congr (fun mode => h.find?_eq_file_iff loc data mode))

theorem Grows.reaches (h : Grows fs fs') (hreach : fs.Reaches p) : fs'.Reaches p :=
  hreach.imp (fun _ hdir => h.find?_eq_some hdir)

/-- A path is found to be a directory if there are directories up to and with
    its last component. -/
theorem isDirectory_eq_ok_true (h : fs.LinkFree) (hp : p.Spelled) (hfits : p.Fits) :
    fs.isDirectory p = .ok true ↔ fs.Reaches p := by
  rcases test_eq_ok h hp hfits Entry.isDirectory with ⟨b, htest, hb⟩
  rw [isDirectory, htest, Except.ok.injEq, hb]
  constructor
  · intro hall
    rcases hall with ⟨hparent, e, hfind, hdir⟩
    cases e with
    | directory => exact reaches_of_parent hparent hfind
    | file data mode => exact absurd hdir Bool.false_ne_true
    | link target => exact absurd hdir Bool.false_ne_true
  · intro hreach
    exact ⟨hreach.parent, .directory, hreach.isDirectoryAt, rfl⟩

/-- What making one directory comes to: it is there already, or it is put where
    its path leads. -/
theorem ensureDirectory_cases {made : FileSystem} (heq : fs.ensureDirectory p = .ok made) :
    (fs.isDirectory p = .ok true ∧ made = fs) ∨
      ∃ loc, fs.locate p.text false = .ok ⟨loc, none⟩ ∧ made = fs.put loc .directory := by
  unfold ensureDirectory at heq
  rcases hmake : fs.makeDirectory p with f | fs'
  · simp only [hmake] at heq
    by_cases hcause : (f.cause == .noEntry) = true
    · rw [if_pos hcause] at heq
      exact absurd heq (by simp only [reduceCtorEq, not_false_eq_true])
    · rw [if_neg hcause] at heq
      rcases hdir : fs.isDirectory p with g | isDir
      · simp only [hdir, reduceCtorEq] at heq
      · cases isDir with
        | false => simp only [hdir, reduceCtorEq] at heq
        | true =>
            simp only [hdir, Except.ok.injEq] at heq
            exact Or.inl ⟨rfl, heq.symm⟩
  · simp only [hmake, Except.ok.injEq] at heq
    rw [makeDirectory] at hmake
    rcases hhere : fs.locateHere p with f | ⟨loc, entry⟩
    · simp only [hhere, reduceCtorEq] at hmake
    · cases entry with
      | some e => simp only [hhere, reduceCtorEq] at hmake
      | none =>
          simp only [hhere, Except.ok.injEq] at hmake
          exact Or.inr ⟨loc, locateHere_eq_ok_iff.mp hhere, (hmake.trans heq).symm⟩

/-- A directory that was made is there. -/
theorem reaches_of_ensureDirectory (h : fs.LinkFree) (hp : p.Spelled) {made : FileSystem}
    (heq : fs.ensureDirectory p = .ok made) : p.Fits ∧ made.Reaches p := by
  have hgrows := grows_ensureDirectory heq
  rcases ensureDirectory_cases heq with ⟨hdir, hmade⟩ | ⟨loc, hfound, hmade⟩
  -- A path that is too long is not found to be a directory.
  · have hfits : p.Fits := by
      rw [isDirectory, test] at hdir
      rcases hstatus : fs.status p with f | ⟨loc, e⟩
      · simp only [hstatus] at hdir
        by_cases habsent : Cause.isAbsence f.cause = true
        · rw [if_pos habsent] at hdir
          exact absurd (Except.ok.inj hdir) Bool.false_ne_true
        · rw [if_neg habsent] at hdir
          exact absurd hdir (by simp only [reduceCtorEq, not_false_eq_true])
      · exact ((status_eq_ok_iff_of_linkFree h hp).mp hstatus).1
    rw [hmade]
    exact ⟨hfits, (isDirectory_eq_ok_true h hp hfits).mp hdir⟩
  · rcases (locate_eq_ok_iff_of_linkFree h hp).mp hfound with ⟨hfits, hparent, hplace⟩
    rw [Found.mk.injEq] at hplace
    refine ⟨hfits, reaches_of_parent (hgrows.reaches hparent) ?_⟩
    rw [hmade, hplace.1]
    refine find?_put_self fs (fun hnil => ?_) _
    rw [hnil] at hplace
    exact absurd hplace.2 (Option.some_ne_none _).symm

/-- A directory that is there is left alone. -/
theorem ensureDirectory_of_reaches (h : fs.LinkFree) (hp : p.Spelled) (hfits : p.Fits)
    (hreach : fs.Reaches p) : fs.ensureDirectory p = .ok fs := by
  have hhere := locateHere_eq_ok_iff.mpr ((locate_eq_ok_iff_of_linkFree h hp).mpr
    ⟨hfits, hreach.parent, rfl⟩)
  have hdir := hreach.isDirectoryAt
  rw [IsDirectoryAt] at hdir
  unfold ensureDirectory makeDirectory
  rw [hhere]
  simp only [hdir, (isDirectory_eq_ok_true h hp hfits).mpr hreach]
  rfl

/-- Directories that were made are there. However far up the operation went, it
    came back to the directory itself. -/
theorem reaches_of_makeDirectoriesUp (h : fs.LinkFree) (hp : p.Spelled) {n : Nat}
    {made : FileSystem} (heq : fs.makeDirectoriesUp p n = (made, .ok ())) :
    p.Fits ∧ made.Reaches p := by
  cases n with
  | zero =>
      rw [makeDirectoriesUp, Prod.mk.injEq] at heq
      exact absurd heq.2 (by simp only [reduceCtorEq, not_false_eq_true])
  | succ n =>
      rw [makeDirectoriesUp] at heq
      rcases hfirst : fs.ensureDirectory p with f | fs'
      · simp only [hfirst] at heq
        by_cases hup : (f.cause == .noEntry && p.parent != p) = true
        · rw [if_pos hup] at heq
          have hgrows := grows_makeDirectoriesUp fs n p.parent
          rcases habove : fs.makeDirectoriesUp p.parent n with ⟨above, result⟩
          rw [habove] at heq hgrows
          rcases result with g | _
          · rw [Prod.mk.injEq] at heq
            exact absurd heq.2 (by simp only [reduceCtorEq, not_false_eq_true])
          · simp only [] at heq
            rcases hsecond : above.ensureDirectory p with g | fs'
            · rw [hsecond, Prod.mk.injEq] at heq
              exact absurd heq.2 (by simp only [reduceCtorEq, not_false_eq_true])
            · rw [hsecond, Prod.mk.injEq] at heq
              rw [← heq.1]
              exact reaches_of_ensureDirectory (hgrows.linkFree h) hp hsecond
        · rw [if_neg hup, Prod.mk.injEq] at heq
          exact absurd heq.2 (by simp only [reduceCtorEq, not_false_eq_true])
      · simp only [hfirst, Prod.mk.injEq] at heq
        rw [← heq.1]
        exact reaches_of_ensureDirectory h hp hfirst

/-- Directories that are there are left alone. -/
theorem makeDirectories_of_reaches (h : fs.LinkFree) (hp : p.Spelled) (hfits : p.Fits)
    (hreach : fs.Reaches p) : fs.makeDirectories p = (fs, .ok ()) := by
  rw [makeDirectories, makeDirectoriesUp, ensureDirectory_of_reaches h hp hfits hreach]

theorem reaches_of_makeDirectories (h : fs.LinkFree) (hp : p.Spelled) {made : FileSystem}
    (heq : fs.makeDirectories p = (made, .ok ())) : p.Fits ∧ made.Reaches p :=
  reaches_of_makeDirectoriesUp h hp heq

/-- What making one directory keeps, making several keeps. `Q` is what is known
    of the paths, and going up it has to stay so. -/
theorem makeDirectoriesUp_induct {P : FileSystem → Prop} {Q : Path → Prop}
    (hparent : ∀ p, Q p → Q p.parent)
    (hstep : ∀ fs made p, P fs → Q p → ensureDirectory fs p = .ok made → P made) (n : Nat) :
    ∀ {fs : FileSystem} {p : Path}, P fs → Q p → P (fs.makeDirectoriesUp p n).1 := by
  induction n with
  | zero => intro fs p hfs _; exact hfs
  | succ n ih =>
      intro fs p hfs hp
      rw [makeDirectoriesUp]
      rcases hfirst : fs.ensureDirectory p with f | made
      · simp only []
        by_cases hup : (f.cause == .noEntry && p.parent != p) = true
        · rw [if_pos hup]
          have habove := ih hfs (hparent p hp)
          rcases hrest : fs.makeDirectoriesUp p.parent n with ⟨above, result⟩
          rw [hrest] at habove
          rcases result with g | _
          · exact habove
          · simp only []
            rcases hsecond : above.ensureDirectory p with g | made
            · exact habove
            · exact hstep above made p habove hp hsecond
        · rw [if_neg hup]
          exact hfs
      · exact hstep fs made p hfs hp hfirst

/-- Directories are made at locations that consist of names. -/
theorem Proper.makeDirectories (hfs : fs.Proper) (h : fs.LinkFree) (hp : p.Spelled) :
    (fs.makeDirectories p).1.Proper := by
  refine (@makeDirectoriesUp_induct (fun made => made.Proper ∧ made.LinkFree) Path.Spelled
    (fun _ => Path.Spelled.parent) (fun fs made p hmade hp heq => ?_) _ fs p ⟨hfs, h⟩ hp).1
  refine ⟨?_, (grows_ensureDirectory heq).linkFree hmade.2⟩
  rcases ensureDirectory_cases heq with ⟨_, rfl⟩ | ⟨loc, hfound, rfl⟩
  · exact hmade.1
  · rcases (locate_eq_ok_iff_of_linkFree hmade.2 hp).mp hfound with ⟨hfits, _, hplace⟩
    rw [(Found.mk.inj hplace).1]
    exact hmade.1.put (hp.isName_place hfits.nullFree) _

/-- Directories are made on the way and nowhere else. -/
theorem find?_makeDirectories (h : fs.LinkFree) (hp : p.Spelled) {loc : Location}
    (hloc : Along (fun l => l ≠ loc) [] p.parts) :
    (fs.makeDirectories p).1.find? loc = fs.find? loc := by
  refine (@makeDirectoriesUp_induct (fun made => made.find? loc = fs.find? loc ∧ made.LinkFree)
    (fun q => q.Spelled ∧ Along (fun l => l ≠ loc) [] q.parts)
    (fun q hq => ⟨hq.1.parent, hq.2.dropLast⟩) (fun fs' made q hmade hq heq => ?_) _ fs p
    ⟨rfl, h⟩ ⟨hp, hloc⟩).1
  refine ⟨?_, (grows_ensureDirectory heq).linkFree hmade.2⟩
  rcases ensureDirectory_cases heq with ⟨_, rfl⟩ | ⟨loc', hfound, rfl⟩
  · exact hmade.1
  · rcases (locate_eq_ok_iff_of_linkFree hmade.2 hq.1).mp hfound with ⟨_, _, hplace⟩
    have hne : loc ≠ loc' := by
      rw [(Found.mk.inj hplace).1]
      exact hq.2.last.symm
    rw [find?_put_of_ne fs' hne, hmade.1]

end FileSystem

end Stencil
