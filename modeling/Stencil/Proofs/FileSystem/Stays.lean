import Stencil.Proofs.FileSystem.Making

/-!
# What Stays

File systems in which files have stayed files and directories directories.

This is what is left of a file system once others have worked on it: contents
may have changed and entries may have come up, but what blocked a way still
blocks it and a way that was open is open. It is kept if both sides make the
same directories.

## Main definitions

* `FileSystem.Stays`: Files stay files and directories stay directories.

## Theorems

* `FileSystem.Stays.find?_eq_none`: What is missing later was missing before.
* `FileSystem.Stays.makeDirectories`: Making the same directories keeps it so.
-/

namespace Stencil

namespace FileSystem

/-- Files stay files and directories stay directories; others may come up. -/
structure Stays (fs fs' : FileSystem) : Prop where
  /-- The working directory is the same. -/
  here : fs'.here = fs.here
  /-- Directories stay directories. -/
  directory : ∀ loc, fs.IsDirectoryAt loc → fs'.IsDirectoryAt loc
  /-- Files stay files, maybe with another content. -/
  file : ∀ loc, fs.IsFileAt loc → fs'.IsFileAt loc

section Stays

variable {fs fs' fs'' : FileSystem} {p : Path}

theorem Stays.refl (fs : FileSystem) : Stays fs fs :=
  ⟨rfl, fun _ h => h, fun _ h => h⟩

theorem Stays.trans (h : Stays fs fs') (h' : Stays fs' fs'') : Stays fs fs'' :=
  ⟨h'.here.trans h.here, fun loc hd => h'.directory loc (h.directory loc hd),
    fun loc hf => h'.file loc (h.file loc hf)⟩

theorem Grows.stays (h : Grows fs fs') : Stays fs fs' :=
  ⟨h.here, fun _ hd => h.find?_eq_some hd, fun loc hf => (h.isFileAt_iff loc).mpr hf⟩

theorem Stays.reaches (h : Stays fs fs') (hreach : fs.Reaches p) : fs'.Reaches p :=
  hreach.imp h.directory

/-- What is missing later was missing before. -/
theorem Stays.find?_eq_none (h : Stays fs fs') (hfs : fs.LinkFree) {loc : Location}
    (hnone : fs'.find? loc = none) : fs.find? loc = none := by
  rcases hfind : fs.find? loc with _ | e
  · rfl
  · cases e with
    | directory =>
        have hdir := h.directory loc hfind
        rw [IsDirectoryAt, hnone] at hdir
        exact absurd hdir (Option.some_ne_none _).symm
    | link target => exact absurd hfind (hfs loc target)
    | file data mode =>
        rcases h.file loc ⟨data, mode, hfind⟩ with ⟨data', mode', hfile⟩
        rw [hnone] at hfile
        exact absurd hfile (Option.some_ne_none _).symm

/-- A location that a way passes has what all locations on the way have. -/
theorem Along.of_passed {P : Location → Prop} {loc : Location} {parts : List String} :
    ∀ {dir}, Along P dir parts → ¬ Along (fun l => l ≠ loc) dir parts → P loc := by
  induction parts with
  | nil => intro dir h hpass; exact not_not.mp hpass ▸ h
  | cons p ps ih =>
      intro dir h hpass
      by_cases heq : dir = loc
      · exact heq ▸ h.1
      · exact ih h.2 (fun hrest => hpass ⟨heq, hrest⟩)

/-- Directories that are made before and later are the same, apart from what
    came up in between. -/
theorem Stays.makeDirectories (h : Stays fs fs') (hfs : fs.LinkFree) (hfs' : fs'.LinkFree)
    (hp : p.Spelled) {made made' : FileSystem} (hmade : fs.makeDirectories p = (made, .ok ()))
    (hmade' : fs'.makeDirectories p = (made', .ok ())) : Stays made made' := by
  have hgrows := grows_makeDirectories fs p
  have hgrows' := grows_makeDirectories fs' p
  rw [hmade] at hgrows
  rw [hmade'] at hgrows'
  refine ⟨?_, fun loc hdir => ?_, fun loc hfile => ?_⟩
  · rw [hgrows'.here, hgrows.here, h.here]
  · by_cases hpass : Along (fun l => l ≠ loc) [] p.parts
    · have hsame := find?_makeDirectories hfs hp hpass
      rw [hmade] at hsame
      rw [IsDirectoryAt, hsame] at hdir
      exact hgrows'.find?_eq_some (h.directory loc hdir)
    · exact (reaches_of_makeDirectories hfs' hp hmade').2.of_passed hpass
  · rw [hgrows'.isFileAt_iff]
    exact h.file loc ((hgrows.isFileAt_iff loc).mp hfile)

end Stays

end FileSystem

end Stencil
