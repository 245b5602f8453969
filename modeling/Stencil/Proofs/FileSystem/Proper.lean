import Mathlib.Data.List.Nodup
import Stencil.FileSystem.Lookup
import Stencil.Proofs.Sorted
import Stencil.Proofs.Text.Split

/-!
# Proper File Systems

What any file system keeps to.

A `FileSystem` lists entries under locations, and nothing in the type rules out
a location that is listed twice or a name with a slash in it. No operation
makes such an entry, and no file system that can be walked has one. `Proper`
says so once, for the statements that are about every tree.

## Main definitions

* `IsName`: A text that an entry can have as its name.
* `FileSystem.Proper`: Locations are listed once and consist of names.

## Theorems

* `Path.child_of_isName`: A name below a path is one more component.
* `FileSystem.nodup_names`: A directory lists a name once.
* `FileSystem.Proper.isName_of_mem_names`: What a directory lists are names.
* `FileSystem.mem_names_iff`: What a directory lists.
* `FileSystem.Proper.put`, `FileSystem.Proper.delete`: Changing an entry keeps
  file systems proper.
-/

namespace Stencil

/-- A text that an entry can have as its name. -/
structure IsName (s : String) : Prop where
  /-- It is not empty. -/
  ne_empty : s ≠ ""
  /-- It is not the dot, which stands for the directory itself. -/
  ne_dot : s ≠ "."
  /-- It is not the double dot, which stands for the directory above. -/
  ne_dots : s ≠ ".."
  /-- It has no slash, which parts names. -/
  noSlash : '/' ∉ s.toList
  /-- It has no null character, which ends paths. -/
  noNull : Char.ofNat 0 ∉ s.toList

/-- Every entry has a location of its own that consists of names, and so does
    the working directory. -/
structure FileSystem.Proper (fs : FileSystem) : Prop where
  /-- No location is listed twice. -/
  distinct : (fs.entries.map Prod.fst).Nodup
  /-- Locations consist of names. -/
  isName : ∀ e ∈ fs.entries, ∀ n ∈ e.1, IsName n
  /-- The working directory is one that can be named. -/
  here : ∀ n ∈ fs.here, IsName n

theorem isName_iff {s : String} : IsName s ↔
    s ≠ "" ∧ s ≠ "." ∧ s ≠ ".." ∧ '/' ∉ s.toList ∧ Char.ofNat 0 ∉ s.toList :=
  ⟨fun h => ⟨h.ne_empty, h.ne_dot, h.ne_dots, h.noSlash, h.noNull⟩,
    fun h => ⟨h.1, h.2.1, h.2.2.1, h.2.2.2.1, h.2.2.2.2⟩⟩

instance (s : String) : Decidable (IsName s) :=
  decidable_of_iff _ isName_iff.symm

theorem FileSystem.proper_iff {fs : FileSystem} : fs.Proper ↔
    (fs.entries.map Prod.fst).Nodup ∧ (∀ e ∈ fs.entries, ∀ n ∈ e.1, IsName n) ∧
      ∀ n ∈ fs.here, IsName n :=
  ⟨fun h => ⟨h.distinct, h.isName, h.here⟩, fun h => ⟨h.1, h.2.1, h.2.2⟩⟩

instance (fs : FileSystem) : Decidable fs.Proper :=
  decidable_of_iff _ FileSystem.proper_iff.symm

theorem rootOf_of_isName {n : String} (h : IsName n) : Path.rootOf n = "" := by
  have hslash := h.noSlash
  rw [Path.rootOf]
  split
  · next heq => exact absurd (heq ▸ List.mem_cons_self) hslash
  · next heq => exact absurd (heq ▸ List.mem_cons_self) hslash
  · next heq => exact absurd (heq ▸ List.mem_cons_self) hslash
  · rfl

theorem Path.ofString_of_isName {n : String} (h : IsName n) :
    Path.ofString n = ⟨"", [n]⟩ := by
  have hproper : Path.isProper n = true := by
    simp only [Path.isProper, Bool.and_eq_true, bne_iff_ne, ne_eq]
    exact ⟨h.ne_empty, h.ne_dot⟩
  rw [Path.ofString, rootOf_of_isName h, Text.splitOnChar_of_not_mem h.noSlash,
    List.filter_cons_of_pos hproper, List.filter_nil]

/-- A name below a path is one more component. -/
theorem Path.child_of_isName (p : Path) {n : String} (h : IsName n) :
    p.child n = ⟨p.root, p.parts ++ [n]⟩ := by
  rw [Path.child, Path.ofString_of_isName h, Path.join, Path.isAbsolute]
  rfl

theorem Path.name_child_of_isName (p : Path) {n : String} (h : IsName n) :
    (p.child n).name = n := by
  rw [Path.child_of_isName p h, Path.name, List.getLastD_concat]

namespace FileSystem

/-- The name that an entry has in a directory, if it stands there. -/
def nameIn? (dir : Location) (loc : Location) : Option String :=
  match loc with
  | name :: d => if d == dir then some name else none
  | [] => none

theorem nameIn?_eq_some {dir loc : Location} {n : String} :
    nameIn? dir loc = some n ↔ loc = n :: dir := by
  cases loc with
  | nil => simp only [nameIn?, reduceCtorEq]
  | cons m d =>
      rw [nameIn?]
      by_cases hd : d = dir
      · simp only [hd, beq_self_eq_true, if_true, Option.some.injEq, List.cons.injEq, and_true]
      · simp only [beq_eq_false_iff_ne.mpr hd, Bool.false_eq_true, if_false, reduceCtorEq,
          List.cons.injEq, hd, and_false]

theorem names_perm (fs : FileSystem) (dir : Location) :
    (fs.names dir).Perm ((fs.entries.map Prod.fst).filterMap (nameIn? dir)) := by
  rw [List.filterMap_map]
  exact List.mergeSort_perm _ _

/-- A directory lists a name once. -/
theorem Proper.nodup_names {fs : FileSystem} (h : fs.Proper) (dir : Location) :
    (fs.names dir).Nodup := by
  rw [(fs.names_perm dir).nodup_iff]
  refine h.distinct.filterMap (fun l l' n hl hl' => ?_)
  rw [Option.mem_def, nameIn?_eq_some] at hl hl'
  rw [hl, hl']

/-- A directory lists names in ascending order. -/
theorem Proper.ascending_names {fs : FileSystem} (h : fs.Proper) (dir : Location) :
    (fs.names dir).Pairwise (· < ·) := by
  refine ((sortTexts_pairwise _).and (h.nodup_names dir)).imp (fun {m n} hmn => ?_)
  by_contra hlt
  exact hmn.2 (String.le_antisymm hmn.1 (String.not_lt.mp hlt))

/-- An entry is found at the locations that are listed. -/
theorem find?_ne_none_iff {fs : FileSystem} {loc : Location} (hne : loc ≠ []) :
    fs.find? loc ≠ none ↔ loc ∈ fs.entries.map Prod.fst := by
  rw [find?, if_neg (by rwa [List.isEmpty_iff]), ne_eq, List.lookup_eq_none_iff, List.mem_map]
  simp only [bne_iff_ne, not_forall, not_not, exists_prop, @eq_comm _ loc]

/-- A directory lists the names of its entries. -/
theorem mem_names_iff {fs : FileSystem} {dir : Location} {n : String} :
    n ∈ fs.names dir ↔ fs.find? (n :: dir) ≠ none := by
  rw [(fs.names_perm dir).mem_iff, List.mem_filterMap, find?_ne_none_iff (List.cons_ne_nil n dir)]
  simp only [nameIn?_eq_some, exists_eq_right]

/-- What a directory lists are names. -/
theorem Proper.isName_of_mem_names {fs : FileSystem} (h : fs.Proper) {dir : Location}
    {n : String} (hn : n ∈ fs.names dir) : IsName n := by
  rw [(fs.names_perm dir).mem_iff, List.mem_filterMap] at hn
  rcases hn with ⟨loc, hloc, hname⟩
  rcases List.mem_map.mp hloc with ⟨e, he, rfl⟩
  rw [nameIn?_eq_some] at hname
  refine h.isName e he n ?_
  rw [hname]
  exact List.mem_cons_self

/-- An entry can be put at a location that consists of names. -/
theorem Proper.put {fs : FileSystem} (h : fs.Proper) {loc : Location}
    (hloc : ∀ n ∈ loc, IsName n) (e : Entry) : (fs.put loc e).Proper := by
  refine ⟨?_, fun entry hentry => ?_, h.here⟩
  · rw [FileSystem.put, List.map_cons, List.nodup_cons]
    refine ⟨fun hmem => ?_, h.distinct.sublist (List.filter_sublist.map _)⟩
    rcases List.mem_map.mp hmem with ⟨entry, hentry, heq⟩
    exact bne_iff_ne.mp (List.mem_filter.mp hentry).2 heq
  · rcases List.mem_cons.mp hentry with rfl | hentry
    · exact hloc
    · exact h.isName entry (List.mem_filter.mp hentry).1

theorem Proper.delete {fs : FileSystem} (h : fs.Proper) (loc : Location) :
    (fs.delete loc).Proper :=
  ⟨h.distinct.sublist (List.filter_sublist.map _),
    fun entry hentry => h.isName entry (List.mem_filter.mp hentry).1, h.here⟩

end FileSystem

end Stencil
