import Stencil.Proofs.FileSystem.Making

/-!
# Trees

File systems in which everything stands in a directory.

Entries are kept under locations, and nothing makes the location that an entry
stands in one that is there too. In a tree it is, and then what is above any
entry is a directory all the way up. So a path without double dots leads to
what stands at its place as soon as anything stands there. With a double dot
that is not so: the component before it has to be a directory as well, and the
place of the path does not show it.

## Main definitions

* `FileSystem.IsTree`: Everything stands in a directory.

## Theorems

* `FileSystem.IsTree.solid`: A directory stands in directories only.
* `FileSystem.IsTree.reaches`: A path without double dots reaches a directory if
  one stands at its place.
* `FileSystem.place_eq_cons`: What is no directory stands under the name of its
  path.
* `FileSystem.IsTree.makeDirectories`: Making directories keeps trees.
-/

namespace Stencil

namespace FileSystem

variable {fs fs' : FileSystem}

/-- Everything stands in a directory. -/
def IsTree (fs : FileSystem) : Prop :=
  ∀ n dir, fs.find? (n :: dir) ≠ none → fs.IsDirectoryAt dir

theorem IsTree.parent (h : fs.IsTree) {n : String} {dir : Location} {e : Entry}
    (hfind : fs.find? (n :: dir) = some e) : fs.IsDirectoryAt dir := by
  refine h n dir ?_
  rw [hfind]
  exact Option.some_ne_none e

/-- It is enough to look at the entries. -/
theorem isTree_of_entries (h : ∀ e ∈ fs.entries, fs.IsDirectoryAt e.1.tail) : fs.IsTree := by
  intro n dir hfind
  rcases List.mem_map.mp ((find?_ne_none_iff (List.cons_ne_nil n dir)).mp hfind) with ⟨e, he, heq⟩
  have hdir := h e he
  rwa [heq] at hdir

/-- A directory stands in directories only. -/
theorem IsTree.solid (h : fs.IsTree) {loc : Location} (hdir : fs.IsDirectoryAt loc) :
    fs.Solid loc := by
  induction loc with
  | nil => exact True.intro
  | cons n dir ih => exact ⟨hdir, ih (h.parent hdir)⟩

/-- A path without double dots reaches a directory if one stands at its
    place. -/
theorem IsTree.reaches (h : fs.IsTree) {p : Path} (hp : p.Spelled) (hdots : ".." ∉ p.parts)
    (hdir : fs.IsDirectoryAt p.place) : fs.Reaches p := by
  have hplain : ∀ n ∈ p.parts, n ≠ "." ∧ n ≠ ".." := by
    intro n hn
    exact ⟨(hp.parts n hn).ne_dot, fun heq => hdots (heq ▸ hn)⟩
  have hplace : p.place.reverse = p.parts := by
    rw [Path.place, descend_of_plain hplain, List.append_nil, List.reverse_reverse]
  have halong := (h.solid hdir).along hp.plain_place
  rwa [hplace] at halong

/-- What is no directory stands under the name of its path. -/
theorem place_eq_cons {p : Path} (hparent : fs.Reaches p.parent)
    (hdir : ¬ fs.IsDirectoryAt p.place) : p.place = p.name :: p.parent.place := by
  have hne : p.parts ≠ [] := by
    intro hnil
    rw [Path.place, hnil] at hdir
    exact hdir (find?_nil fs)
  have hstep := Path.place_eq_stepTo hne
  by_cases hdot : p.name = "."
  · rw [hdot, stepTo_dot] at hstep
    rw [hstep] at hdir
    exact absurd hparent.isDirectoryAt hdir
  · by_cases hdots : p.name = ".."
    · rw [hdots, stepTo_dots] at hstep
      rw [hstep] at hdir
      exact absurd hparent.solid.tail.find? hdir
    · rw [hstep, stepTo_of_ne hdot hdots]

/-- Where something stands the directory above it is reached, unless the path has
    a double dot. -/
theorem IsTree.reaches_parent (h : fs.IsTree) {p : Path} (hp : p.Spelled)
    (hdots : ".." ∉ p.parts) {e : Entry} (hfind : fs.find? p.place = some e) :
    fs.Reaches p.parent := by
  have hdots' : ".." ∉ p.parent.parts :=
    fun hmem => hdots ((List.dropLast_sublist p.parts).mem hmem)
  by_cases hnil : p.parts = []
  · have hroot : p.parent.place = [] := by
      rw [Path.place, Path.parent, hnil, List.dropLast_nil, descend_nil]
    refine h.reaches hp.parent hdots' ?_
    rw [hroot]
    exact find?_nil fs
  · have hname : p.name ∈ p.parts := by
      rw [Path.name, List.getLastD_eq_getLast?, List.getLast?_eq_some_getLast hnil,
        Option.getD_some]
      exact List.getLast_mem hnil
    -- The last component is a name, so what stands there is in the directory above it.
    have hplace : p.place = p.name :: p.parent.place := by
      rw [Path.place_eq_stepTo hnil,
        stepTo_of_ne (hp.parts _ hname).ne_dot (fun heq => hdots (heq ▸ hname))]
    rw [hplace] at hfind
    exact h.reaches hp.parent hdots' (h.parent hfind)

/-- A directory may come up in a directory. -/
theorem IsTree.put_directory (h : fs.IsTree) {n : String} {dir : Location}
    (hdir : fs.IsDirectoryAt dir) (hnone : fs.find? (n :: dir) = none) :
    (fs.put (n :: dir) .directory).IsTree := by
  have hgrows := Grows.put_directory hnone
  intro m d hfind
  by_cases heq : m :: d = n :: dir
  · rw [(List.cons.inj heq).2]
    exact hgrows.find?_eq_some hdir
  · rw [find?_put_of_ne fs heq] at hfind
    exact hgrows.find?_eq_some (h m d hfind)

/-- Making directories keeps trees. -/
theorem IsTree.makeDirectories (h : fs.IsTree) (hlinks : fs.LinkFree) {p : Path}
    (hp : p.Spelled) : (fs.makeDirectories p).1.IsTree := by
  refine (@makeDirectoriesUp_induct (fun made => made.IsTree ∧ made.LinkFree) Path.Spelled
    (fun _ => Path.Spelled.parent) (fun fs made p hmade hp heq => ?_) _ fs p ⟨h, hlinks⟩ hp).1
  refine ⟨?_, (grows_ensureDirectory heq).linkFree hmade.2⟩
  rcases ensureDirectory_cases heq with ⟨_, rfl⟩ | ⟨loc, hfound, rfl⟩
  · exact hmade.1
  · rcases (locate_eq_ok_iff_of_linkFree hmade.2 hp).mp hfound with ⟨_, hparent, hplace⟩
    rcases Found.mk.inj hplace with ⟨rfl, hnone⟩
    have hdir : ¬ fs.IsDirectoryAt p.place := by
      rw [IsDirectoryAt, ← hnone]
      exact (Option.some_ne_none _).symm
    rw [place_eq_cons hparent hdir] at hnone ⊢
    exact hmade.1.put_directory hparent.isDirectoryAt hnone.symm

end FileSystem

end Stencil
