import Mathlib.Data.List.Infix
import Stencil.Proofs.Catalog.Step
import Stencil.Proofs.Catalog.Tree
import Stencil.Proofs.FileSystem.Root

/-!
# What a Walk Sees

A walk of a tree sees the visible files, each once, and in a fixed order.

What is visible is said here without a walk. The names from the root to a file
are its way. Every directory on the way has to be a directory itself and no link
to one, and neither the file nor a directory on the way may be left out: by its
name, or by the rules of the directories above it. These are the directories
that the beginnings of its way lead to, itself left out, so a directory has no
say about itself and neither has one beside it.

A walk hands the rules down instead. The invariant is that the rules that a
directory is handed are those of the directories above it, in the order of their
depth. Then one step of the walk sees what is visible one name further, and the
count of the entries below bounds how far it has to go.

## Main definitions

* `rulesAbove`: The rules of the directories above the end of a way.
* `Visible`: A file that a walk should see.
* `Precedes`: The order in which it should see two files.
* `waysFrom`: The ways of the files that it does see.
* `RulesCompile`: No pattern ends a walk.
* `pruned`: A tree with an ignore file.

## Theorems

* `rulesAbove_concat`: Going down, a directory's own rules come last.
* `filesSeen_walkFrom`: A walk sees the files of these ways.
* `mem_waysFrom_iff`: They are the visible ones.
* `pairwise_waysFrom`: They come in order.
* `Catalog.mem_paths_of_build`: A catalog has those that are templates.
* `walkTree_visible`: So it is with a walk of a whole tree and its catalog.
-/

namespace Stencil

/-- The path that a way leads to from a root. -/
def Path.below (root : Path) (way : List String) : Path :=
  ⟨root.root, root.parts ++ way⟩

/-- The rules of the directory at the end of a way, if it has any. -/
def rulesOf (fs : FileSystem) (root : Path) (way : List String) : Option Ignore.Rules :=
  match (loadRules fs (root.below way) (wayText way)).2 with
  | .ok own => own
  | .error _ => none

/-- The rules of the directories strictly above the end of a way. Those of the
    root come first, and those of the directory that holds it last. -/
def rulesAbove (fs : FileSystem) (root : Path) (way : List String) : List Ignore.Rules :=
  way.inits.dropLast.filterMap (rulesOf fs root)

/-- What stands at the end of a way is not left out: everything counts, or it is
    not hidden and no rules above it ignore it. -/
def Passes (fs : FileSystem) (all : Bool) (root : Path) (way : List String) (isDir : Bool) :
    Prop :=
  all = true ∨ isHidden (way.getLastD "") = false ∧
    Ignore.isIgnored (rulesAbove fs root way) (wayText way) isDir = false

/-- A directory at the end of a way from a location that a walk should enter. -/
structure Entered (fs : FileSystem) (all : Bool) (root : Path) (loc : Location)
    (way : List String) : Prop where
  /-- It is a directory and no link to one. -/
  directory : fs.IsDirectoryAt (way.reverse ++ loc)
  /-- It does not hold version-control data. -/
  notGit : way.getLastD "" ≠ ".git"
  /-- It is not left out. -/
  passes : Passes fs all root way true

/-- A file at the end of a way from a location that a walk should see. -/
structure Visible (fs : FileSystem) (all : Bool) (root : Path) (loc : Location)
    (way : List String) : Prop where
  /-- It is below the location. -/
  ne_nil : way ≠ []
  /-- It is there, and it is neither a directory nor a link to one. -/
  entry : ∃ e, fs.find? (way.reverse ++ loc) = some e ∧ e ≠ .directory ∧
    ∀ target, e = .link target → fs.isDirectory (root.below way) ≠ .ok true
  /-- It is not left out. -/
  passes : Passes fs all root way false
  /-- Nor is a directory on the way. -/
  above : ∀ dir, dir <+: way → dir ≠ [] → dir ≠ way → Entered fs all root loc dir

/-- Where two ways part, files come before what is further down, and otherwise
    names are in order. -/
def Precedes : List String → List String → Prop
  | [n], [m] => n < m
  | [_], _ :: _ :: _ => True
  | n :: k :: ks, m :: j :: js => n < m ∨ n = m ∧ Precedes (k :: ks) (j :: js)
  | _, _ => False

theorem not_precedes_self (way : List String) : ¬ Precedes way way := by
  induction way with
  | nil => exact id
  | cons n way ih =>
      cases way with
      | nil => exact String.lt_irrefl n
      | cons m way =>
          rintro (hlt | ⟨_, hrest⟩)
          · exact String.lt_irrefl n hlt
          · exact ih hrest

section Rules

variable {fs : FileSystem} {root : Path}

theorem Path.below_nil (root : Path) : root.below [] = root := by
  rw [below, List.append_nil]

theorem Path.below_concat (root : Path) (way : List String) {n : String} (hn : IsName n) :
    root.below (way ++ [n]) = (root.below way).child n := by
  rw [child_of_isName _ hn, below, below, List.append_assoc]

theorem Path.name_below (root : Path) {way : List String} (hne : way ≠ []) :
    (root.below way).name = way.getLastD "" := by
  rw [name, below, List.getLastD_eq_getLast?, List.getLast?_append_of_ne_nil _ hne,
    List.getLastD_eq_getLast?]

theorem inits_concat (way : List String) (n : String) :
    (way ++ [n]).inits = way.inits ++ [way ++ [n]] := by
  rw [List.inits_append]
  rfl

/-- Going down, a directory's own rules come last. -/
theorem rulesAbove_concat (way : List String) (n : String) :
    rulesAbove fs root (way ++ [n]) = rulesAbove fs root way ++ (rulesOf fs root way).toList := by
  have hlast : ∀ way, [way].filterMap (rulesOf fs root) = (rulesOf fs root way).toList := by
    intro way
    rcases hown : rulesOf fs root way with _ | own
    · rw [List.filterMap_cons_none hown]
      rfl
    · rw [List.filterMap_cons_some hown]
      rfl
  rw [rulesAbove, inits_concat, List.dropLast_concat]
  rcases List.eq_nil_or_concat way with rfl | ⟨front, m, rfl⟩
  · exact hlast []
  · rw [List.concat_eq_append, rulesAbove, inits_concat, List.dropLast_concat,
      List.filterMap_append, hlast]

theorem rulesOf_eq {way : List String} {own : Option Ignore.Rules}
    (h : (loadRules fs (root.below way) (wayText way)).2 = .ok own) :
    rulesOf fs root way = own := by
  unfold rulesOf
  generalize (loadRules fs (root.below way) (wayText way)).2 = loaded at h
  rw [h]

theorem isVisible_eq_true_iff {all : Bool} {rules : List Ignore.Rules} {way : List String}
    (hway : ∀ n ∈ way, IsName n) {n : String} {isDir : Bool}
    (hrules : all = false → rules = rulesAbove fs root (way ++ [n])) :
    isVisible all rules (wayText way) isDir n = true ↔ Passes fs all root (way ++ [n]) isDir := by
  rw [isVisible, Passes, relativeName_wayText hway, List.getLastD_concat]
  cases all with
  | true => simp
  | false => rw [hrules rfl]; simp

end Rules

section Ways

variable (fs : FileSystem) (all : Bool) (root : Path) (loc : Location)

/-- The names in a directory at the end of a way that a walk sees files under. -/
def filesAt (way : List String) : List String :=
  filesIn fs all (root.below way) (way.reverse ++ loc) (wayText way)
    (rulesAbove fs root way ++ (rulesOf fs root way).toList)

/-- The names in a directory at the end of a way that a walk enters. -/
def dirsAt (way : List String) : List String :=
  dirsIn fs all (root.below way) (way.reverse ++ loc) (wayText way)
    (rulesAbove fs root way ++ (rulesOf fs root way).toList)

/-- The ways to the files that a walk sees in and below a directory, from there
    on. -/
def waysFrom : Nat → List String → List (List String)
  | 0, _ => []
  | depth + 1, way => ((filesAt fs all root loc way).map fun n => [n]) ++
      (dirsAt fs all root loc way).flatMap fun n => (waysFrom depth (way ++ [n])).map (n :: ·)

variable {fs all root loc}

theorem reverse_concat_append (way : List String) (n : String) :
    (way ++ [n]).reverse ++ loc = n :: (way.reverse ++ loc) := by
  rw [List.reverse_append, List.reverse_singleton, List.singleton_append, List.cons_append]

theorem isName_of_mem_filesAt (h : fs.Proper) {way : List String} {n : String}
    (hn : n ∈ filesAt fs all root loc way) : IsName n :=
  h.isName_of_mem_names (List.mem_filter.mp hn).1

theorem isName_of_mem_dirsAt (h : fs.Proper) {way : List String} {n : String}
    (hn : n ∈ dirsAt fs all root loc way) : IsName n :=
  h.isName_of_mem_names (List.mem_filter.mp hn).1

/-- A walk enters the subdirectories that it should. -/
theorem mem_dirsAt_iff {way : List String} (hway : ∀ n ∈ way, IsName n) {n : String} :
    n ∈ dirsAt fs all root loc way ↔ Entered fs all root loc (way ++ [n]) := by
  rw [dirsAt, mem_dirsIn_iff, isVisible_eq_true_iff hway (fun _ => (rulesAbove_concat way n).symm),
    ← reverse_concat_append]
  constructor
  · rintro ⟨hdir, hgit, hpasses⟩
    exact ⟨hdir, by rwa [List.getLastD_concat], hpasses⟩
  · rintro ⟨hdir, hgit, hpasses⟩
    exact ⟨hdir, by rwa [List.getLastD_concat] at hgit, hpasses⟩

/-- In a directory that it should be in, a walk sees the files that it should. -/
theorem mem_filesAt_iff (h : fs.Proper) {way : List String} (hway : ∀ n ∈ way, IsName n)
    (hentered : ∀ dir, dir <+: way → dir ≠ [] → Entered fs all root loc dir) {n : String} :
    n ∈ filesAt fs all root loc way ↔ Visible fs all root loc (way ++ [n]) := by
  rw [filesAt, filesIn, List.mem_filter, Bool.and_eq_true, beq_iff_eq, entryRole_eq_file_iff,
    isVisible_eq_true_iff hway (fun _ => (rulesAbove_concat way n).symm),
    FileSystem.mem_names_iff, FileSystem.IsDirectoryAt, ← reverse_concat_append]
  constructor
  · rintro ⟨hthere, ⟨hdir, hlink⟩, hpasses⟩
    have hname : IsName n := by
      rw [reverse_concat_append, ← FileSystem.mem_names_iff] at hthere
      exact h.isName_of_mem_names hthere
    rcases Option.ne_none_iff_exists'.mp hthere with ⟨e, he⟩
    refine ⟨List.append_ne_nil_of_right_ne_nil way (List.cons_ne_nil n []), ⟨e, he, ?_, ?_⟩,
      hpasses, fun dir hdir hne hnot => ?_⟩
    · rintro rfl
      exact hdir he
    · rintro target rfl
      rw [Path.below_concat root way hname]
      exact hlink target he
    · exact hentered dir ((List.prefix_concat_iff.mp hdir).resolve_left hnot) hne
  · rintro ⟨_, ⟨e, he, hdir, hlink⟩, hpasses, _⟩
    have hthere : fs.find? ((way ++ [n]).reverse ++ loc) ≠ none := by
      rw [he]
      exact Option.some_ne_none e
    have hname : IsName n := by
      rw [reverse_concat_append, ← FileSystem.mem_names_iff] at hthere
      exact h.isName_of_mem_names hthere
    refine ⟨hthere, ⟨fun heq => ?_, fun target heq => ?_⟩, hpasses⟩
    · rw [he, Option.some.injEq] at heq
      exact hdir heq
    · rw [he, Option.some.injEq] at heq
      rw [← Path.below_concat root way hname]
      exact hlink target heq

theorem ne_nil_of_mem_waysFrom {depth : Nat} {way more : List String}
    (h : more ∈ waysFrom fs all root loc depth way) : more ≠ [] := by
  cases depth with
  | zero => exact absurd h List.not_mem_nil
  | succ depth =>
      rcases List.mem_append.mp h with hmem | hmem
      · rcases List.mem_map.mp hmem with ⟨n, _, rfl⟩
        exact List.cons_ne_nil n []
      · rcases List.mem_flatMap.mp hmem with ⟨n, _, hmem⟩
        rcases List.mem_map.mp hmem with ⟨rest, _, rfl⟩
        exact List.cons_ne_nil n rest

/-- The files that a walk sees are the visible ones, if it may go as deep as
    there are entries below. The induction is on the depth, and the directories
    on the way so far are those that it has entered. -/
theorem mem_waysFrom_iff (h : fs.Proper) (depth : Nat) : ∀ way, (∀ n ∈ way, IsName n) →
    (∀ dir, dir <+: way → dir ≠ [] → Entered fs all root loc dir) →
    fs.countBelow (way.reverse ++ loc) < depth →
      ∀ more, more ∈ waysFrom fs all root loc depth way ↔
        more ≠ [] ∧ Visible fs all root loc (way ++ more) := by
  induction depth with
  | zero => intro way _ _ hcount; exact absurd hcount (Nat.not_lt_zero _)
  | succ depth ih =>
      intro way hway hentered hcount more
      -- One name further, as far as there is an entry.
      have hstep : ∀ n, Entered fs all root loc (way ++ [n]) → ∀ rest,
          rest ∈ waysFrom fs all root loc depth (way ++ [n]) ↔
            rest ≠ [] ∧ Visible fs all root loc (way ++ n :: rest) := by
        intro n hn rest
        have hdir := hn.directory
        rw [reverse_concat_append] at hdir
        have hthere : fs.find? (n :: (way.reverse ++ loc)) ≠ none := by
          rw [hdir]
          exact Option.some_ne_none _
        have hless := FileSystem.countBelow_lt hthere
        rw [ih (way ++ [n]) (forall_isName_concat hway (h.isName_of_isDirectoryAt hdir))
          (fun dir hprefix hne => ?_) (by rw [reverse_concat_append]; omega) rest,
          List.append_assoc, List.singleton_append]
        rcases List.prefix_concat_iff.mp hprefix with rfl | hprefix
        · exact hn
        · exact hentered dir hprefix hne
      rw [waysFrom, List.mem_append, List.mem_map, List.mem_flatMap]
      rcases more with _ | ⟨n, _ | ⟨m, rest⟩⟩
      · simp only [List.cons_ne_nil, and_false, exists_false, List.mem_map, or_self, ne_eq,
          not_true_eq_false, false_and]
      -- A way of one name is one of a file here, and a longer one goes through a subdirectory.
      · have hnot : ¬ ∃ k ∈ dirsAt fs all root loc way,
            [n] ∈ (waysFrom fs all root loc depth (way ++ [k])).map (k :: ·) := by
          rintro ⟨k, _, hmem⟩
          rcases List.mem_map.mp hmem with ⟨rest, hrest, heq⟩
          exact ne_nil_of_mem_waysFrom hrest (List.cons.inj heq).2
        rw [or_iff_left hnot, ← mem_filesAt_iff h hway hentered]
        simp only [List.cons.injEq, and_true, exists_eq_right, ne_eq, List.cons_ne_nil,
          not_false_eq_true, true_and]
      · have hnot : ¬ ∃ k ∈ filesAt fs all root loc way, [k] = n :: m :: rest := by
          rintro ⟨k, _, heq⟩
          exact absurd (List.cons.inj heq).2.symm (List.cons_ne_nil m rest)
        rw [or_iff_right hnot]
        constructor
        · rintro ⟨k, hk, hmem⟩
          rcases List.mem_map.mp hmem with ⟨more, hmore, heq⟩
          rcases List.cons.inj heq with ⟨rfl, rfl⟩
          exact ⟨List.cons_ne_nil _ _, ((hstep k ((mem_dirsAt_iff hway).mp hk) _).mp hmore).2⟩
        · rintro ⟨_, hvisible⟩
          have hn : Entered fs all root loc (way ++ [n]) := by
            refine hvisible.above (way ++ [n]) ⟨m :: rest, ?_⟩ ?_ ?_
            · rw [List.append_assoc, List.singleton_append]
            · exact List.append_ne_nil_of_right_ne_nil way (List.cons_ne_nil n [])
            · rw [ne_eq, List.append_cancel_left_eq, List.cons.injEq, not_and]
              exact fun _ heq => absurd heq.symm (List.cons_ne_nil m rest)
          refine ⟨n, (mem_dirsAt_iff hway).mpr hn, List.mem_map.mpr ⟨m :: rest, ?_, rfl⟩⟩
          exact (hstep n hn (m :: rest)).mpr ⟨List.cons_ne_nil m rest, hvisible⟩

/-- Files come in order. -/
theorem pairwise_waysFrom (h : fs.Proper) (depth : Nat) :
    ∀ way, (waysFrom fs all root loc depth way).Pairwise Precedes := by
  induction depth with
  | zero => intro way; exact List.Pairwise.nil
  | succ depth ih =>
      intro way
      have hfiles : (filesAt fs all root loc way).Pairwise (· < ·) :=
        (h.ascending_names _).filter _
      have hdirs : (dirsAt fs all root loc way).Pairwise (· < ·) :=
        (h.ascending_names _).filter _
      -- Below a subdirectory ways have at least two names.
      have hlong : ∀ n, ∀ x ∈ (waysFrom fs all root loc depth (way ++ [n])).map (n :: ·),
          ∃ k ks, x = n :: k :: ks := by
        intro n x hx
        rcases List.mem_map.mp hx with ⟨rest, hrest, rfl⟩
        rcases List.exists_cons_of_ne_nil (ne_nil_of_mem_waysFrom hrest) with ⟨k, ks, rfl⟩
        exact ⟨k, ks, rfl⟩
      rw [waysFrom]
      refine List.pairwise_append.mpr ⟨List.pairwise_map.mpr hfiles,
        List.pairwise_flatMap.mpr ⟨fun n _ => ?_, hdirs.imp ?_⟩, ?_⟩
      · refine List.pairwise_map.mpr ((ih (way ++ [n])).imp_of_mem fun {x y} hx hy hxy => ?_)
        rcases List.exists_cons_of_ne_nil (ne_nil_of_mem_waysFrom hx) with ⟨k, ks, rfl⟩
        rcases List.exists_cons_of_ne_nil (ne_nil_of_mem_waysFrom hy) with ⟨j, js, rfl⟩
        exact Or.inr ⟨rfl, hxy⟩
      -- Below two subdirectories the names of these decide.
      · intro n m hlt x hx y hy
        rcases hlong n x hx with ⟨k, ks, rfl⟩
        rcases hlong m y hy with ⟨j, js, rfl⟩
        exact Or.inl hlt
      -- A file of the directory has one name left, so it comes first.
      · intro x hx y hy
        rcases List.mem_map.mp hx with ⟨n, _, rfl⟩
        rcases List.mem_flatMap.mp hy with ⟨m, _, hy⟩
        rcases hlong m y hy with ⟨j, js, rfl⟩
        trivial

/-- The ignore files of all directories can be compiled. -/
def RulesCompile (fs : FileSystem) (root : Path) (loc : Location) : Prop :=
  ∀ way, fs.IsDirectoryAt (way.reverse ++ loc) →
    ∃ own, (loadRules fs (root.below way) (wayText way)).2 = .ok own

/-- A directory has the rules that it should have, unless everything counts. -/
theorem exists_ownRules (hcompile : all = false → RulesCompile fs root loc) {way : List String}
    (hdir : fs.IsDirectoryAt (way.reverse ++ loc)) :
    ∃ notes own, ownRules fs all (root.below way) (wayText way) = (notes, .ok own) ∧
      (all = false → own = rulesOf fs root way) := by
  cases all with
  | true => exact ⟨[], none, rfl, fun h => absurd h.symm Bool.false_ne_true⟩
  | false =>
      rcases hcompile rfl way hdir with ⟨own, hown⟩
      exact ⟨(loadRules fs (root.below way) (wayText way)).1, own, Prod.ext rfl hown,
        fun _ => (rulesOf_eq hown).symm⟩

/-- Which rules a walk was handed is all the same if everything counts. -/
theorem filesIn_eq_filesAt {way : List String} {rules : List Ignore.Rules} (hrules : all = false →
    rules = rulesAbove fs root way ++ (rulesOf fs root way).toList) :
    filesIn fs all (root.below way) (way.reverse ++ loc) (wayText way) rules =
      filesAt fs all root loc way := by
  cases all with
  | true => rfl
  | false => rw [filesAt, hrules rfl]

theorem dirsIn_eq_dirsAt {way : List String} {rules : List Ignore.Rules} (hrules : all = false →
    rules = rulesAbove fs root way ++ (rulesOf fs root way).toList) :
    dirsIn fs all (root.below way) (way.reverse ++ loc) (wayText way) rules =
      dirsAt fs all root loc way := by
  cases all with
  | true => rfl
  | false => rw [dirsAt, hrules rfl]

/-- A walk that is handed the rules above a directory sees the files of the ways
    from there. -/
theorem filesSeen_walkFrom (h : fs.Proper) (hcompile : all = false → RulesCompile fs root loc)
    (depth : Nat) : ∀ way above, (∀ n ∈ way, IsName n) → fs.IsDirectoryAt (way.reverse ++ loc) →
      (all = false → above = rulesAbove fs root way) →
        Unbroken (walkFrom fs all depth (root.below way) (way.reverse ++ loc) (wayText way)
          above) ∧
        filesSeen (walkFrom fs all depth (root.below way) (way.reverse ++ loc) (wayText way)
          above) = (waysFrom fs all root loc depth way).map fun more =>
            (wayText (way ++ more), root.below (way ++ more)) := by
  induction depth with
  | zero => intro way above _ _ _; exact ⟨fun why => List.not_mem_nil, rfl⟩
  | succ depth ih =>
      intro way above hway hdir habove
      rcases exists_ownRules hcompile hdir with ⟨notes, own, hown, hsame⟩
      have hnotes := filesSeen_ownRules fs all (root.below way) (wayText way)
      have hrules : all = false →
          above ++ own.toList = rulesAbove fs root way ++ (rulesOf fs root way).toList :=
        fun hall => by rw [habove hall, hsame hall]
      -- A subdirectory is handed the rules above it.
      have hstep : ∀ n ∈ dirsAt fs all root loc way,
          Unbroken (walkFrom fs all depth ((root.below way).child n) (n :: (way.reverse ++ loc))
            (relativeName (wayText way) n) (above ++ own.toList)) ∧
          filesSeen (walkFrom fs all depth ((root.below way).child n) (n :: (way.reverse ++ loc))
            (relativeName (wayText way) n) (above ++ own.toList)) =
              ((waysFrom fs all root loc depth (way ++ [n])).map (n :: ·)).map fun more =>
                (wayText (way ++ more), root.below (way ++ more)) := by
        intro n hn
        have hname := isName_of_mem_dirsAt h hn
        have hentry := ((mem_dirsAt_iff hway).mp hn).directory
        rcases ih (way ++ [n]) (above ++ own.toList) (forall_isName_concat hway hname) hentry
          (fun hall => by rw [hrules hall, rulesAbove_concat]) with ⟨hunbroken, hfiles⟩
        rw [Path.below_concat root way hname, reverse_concat_append,
          ← relativeName_wayText hway n] at hunbroken hfiles
        refine ⟨hunbroken, ?_⟩
        rw [hfiles, List.map_map]
        simp only [Function.comp_def, List.append_assoc, List.singleton_append]
      rw [hown] at hnotes
      rw [walkFrom_of_ok hown, filesIn_eq_filesAt hrules, dirsIn_eq_dirsAt hrules]
      constructor
      · intro why hmem
        rcases List.mem_append.mp hmem with hmem | hmem
        · rcases List.mem_append.mp hmem with hmem | hmem
          · rcases @exists_skipped_of_mem_ownRules fs all (root.below way) (wayText way)
              (.broken why) (by rwa [hown]) with ⟨path, why', heq⟩
            exact absurd heq (by simp only [reduceCtorEq, not_false_eq_true])
          · rcases List.mem_map.mp hmem with ⟨n, _, heq⟩
            exact absurd heq (by simp only [reduceCtorEq, not_false_eq_true])
        · rcases List.mem_flatMap.mp hmem with ⟨n, hn, hmem⟩
          exact (hstep n hn).1 why hmem
      · rw [filesSeen_step (root.below way) (wayText way) hnotes, waysFrom, List.map_append,
          List.map_map, List.map_flatMap]
        congr 1
        · refine List.map_congr_left (fun n hn => ?_)
          rw [Function.comp_apply, relativeName_wayText hway,
            Path.below_concat root way (isName_of_mem_filesAt h hn)]
        · exact List.flatMap_congr (fun n hn => (hstep n hn).2)

end Ways

namespace Catalog

variable {fs : FileSystem} {config : Config}

/-- If a catalog can be read off some sightings then every file was read, and
    every template is in it. -/
theorem exists_readSource_of_mem {seen : List Sighting} : ∀ {notes sources},
    readSightings fs config seen = (notes, .ok sources) → ∀ f ∈ filesSeen seen,
      ∃ source, readSource fs config f.1 f.2 = .ok source ∧ ∀ s ∈ source, s ∈ sources := by
  induction seen with
  | nil => intro notes sources _ f hf; exact absurd hf List.not_mem_nil
  | cons sighting seen ih =>
      intro notes sources h f hf
      cases sighting with
      | broken why =>
          rw [readSightings, Prod.mk.injEq] at h
          exact absurd h.2 (by simp only [reduceCtorEq, not_false_eq_true])
      | skipped path why =>
          rw [readSightings] at h
          rcases hrest : readSightings fs config seen with ⟨notes', found⟩
          simp only [hrest, Prod.mk.injEq] at h
          exact ih (hrest.trans (Prod.ext rfl h.2)) f hf
      | file relative path =>
          rw [readSightings] at h
          rcases hsource : readSource fs config relative path with why | source
          · simp only [hsource, Prod.mk.injEq, reduceCtorEq, and_false] at h
          · rcases hrest : readSightings fs config seen with ⟨notes', why | found⟩
            · simp only [hsource, hrest, Except.map, Prod.mk.injEq, reduceCtorEq, and_false] at h
            · simp only [hsource, hrest, Except.map, Prod.mk.injEq, Except.ok.injEq] at h
              rw [← h.2]
              rcases List.mem_cons.mp hf with rfl | hf
              · refine ⟨source, hsource, fun s hs => List.mem_append_left _ ?_⟩
                exact Option.mem_toList.mpr hs
              · rcases ih hrest f hf with ⟨source', hsource', hmem⟩
                exact ⟨source', hsource', fun s hs => List.mem_append_right _ (hmem s hs)⟩

/-- A catalog can be read off sightings if every file can be read. -/
theorem exists_readSightings {seen : List Sighting} (hunbroken : Unbroken seen)
    (h : ∀ f ∈ filesSeen seen, ∃ source, readSource fs config f.1 f.2 = .ok source) :
    ∃ notes sources, readSightings fs config seen = (notes, .ok sources) := by
  induction seen with
  | nil => exact ⟨[], [], rfl⟩
  | cons sighting seen ih =>
      have hrest : Unbroken seen := fun why hmem => hunbroken why (List.mem_cons_of_mem _ hmem)
      cases sighting with
      | broken why => exact absurd List.mem_cons_self (hunbroken why)
      | skipped path why =>
          rcases ih hrest h with ⟨notes, sources, heq⟩
          exact ⟨(path, why) :: notes, sources, by rw [readSightings, heq]⟩
      | file relative path =>
          rcases h (relative, path) List.mem_cons_self with ⟨source, hsource⟩
          rcases ih hrest (fun f hf => h f (List.mem_cons_of_mem _ hf)) with ⟨notes, sources, heq⟩
          refine ⟨notes, source.toList ++ sources, ?_⟩
          rw [readSightings, hsource, heq]
          rfl

/-- The name of a file says whether it is a template. -/
theorem readSource_isSome_iff {relative : String} {path : Path} {source : Option Source}
    (h : readSource fs config relative path = .ok source) :
    source ≠ none ↔ classify path.name config ≠ none := by
  cases source with
  | some s => simp only [(readSource_eq_ok h).2.1, ne_eq, reduceCtorEq, not_false_eq_true]
  | none =>
      rcases hclass : classify path.name config with _ | ⟨kind, suffix⟩
      · simp only [ne_eq, not_true_eq_false]
      · unfold readSource at h
        simp only [hclass] at h
        rcases hread : fs.read path with why | bytes
        · simp only [hread, reduceCtorEq] at h
        · rcases hdecode : Text.Utf8.decode bytes with why | content
          · simp only [hread, hdecode, reduceCtorEq] at h
          · simp only [hread, hdecode, Except.ok.injEq, reduceCtorEq] at h

theorem exists_readSource {relative : String} {path : Path}
    (h : classify path.name config ≠ none → ∃ text, fs.read path = .ok (Text.Utf8.encode text)) :
    ∃ source, readSource fs config relative path = .ok source := by
  rcases hclass : classify path.name config with _ | ⟨kind, suffix⟩
  · exact ⟨none, by simp only [readSource, hclass]⟩
  · rcases h (by rw [hclass]; exact Option.some_ne_none _) with ⟨text, hread⟩
    exact ⟨_, by simp only [readSource, hclass, hread, Text.Utf8.decode_encode]; rfl⟩

/-- A catalog has the files of a walk that are named as templates. -/
theorem mem_paths_of_build {root given : Path} {seen : List Sighting} {ways : List (List String)}
    (hreal : fs.canonical? given = some root)
    (hwalk : walkTree fs root config.includeIgnored = .ok seen)
    (hfiles : filesSeen seen = ways.map fun way => (wayText way, root.below way))
    (hways : ∀ way ∈ ways, way ≠ []) {notes : Notes} {c : Catalog}
    (hbuild : build fs given config = (notes, .ok c)) {path : String} :
    path ∈ c.paths ↔
      ∃ way ∈ ways, wayText way = path ∧ classify (way.getLastD "") config ≠ none := by
  rcases build_eq_ok hbuild with ⟨real, seen', notes', sources, hreal', hwalk', hread, rfl⟩
  rw [hreal, Option.some.injEq] at hreal'
  rw [← hreal', hwalk, Except.ok.injEq] at hwalk'
  rw [← hwalk'] at hread
  have hperm : (ofSources real sources).sources.Perm sources :=
    List.mergeSort_perm sources before
  rw [paths, List.mem_map]
  constructor
  · rintro ⟨s, hs, rfl⟩
    rcases (mem_readSightings seen notes' sources hread).2 s (hperm.mem_iff.mp hs) with
      ⟨f, hf, hsource⟩
    rw [hfiles] at hf
    rcases List.mem_map.mp hf with ⟨way, hway, rfl⟩
    refine ⟨way, hway, (readSource_eq_ok hsource).1.1.symm, ?_⟩
    have hclass := (readSource_isSome_iff hsource).mp (Option.some_ne_none s)
    rwa [Path.name_below root (hways way hway)] at hclass
  · rintro ⟨way, hway, rfl, hclass⟩
    have hf : (wayText way, root.below way) ∈ filesSeen seen := by
      rw [hfiles]
      exact List.mem_map_of_mem hway
    rcases exists_readSource_of_mem hread _ hf with ⟨source, hsource, hmem⟩
    rw [← Path.name_below root (hways way hway)] at hclass
    rcases Option.ne_none_iff_exists'.mp ((readSource_isSome_iff hsource).mpr hclass) with
      ⟨s, rfl⟩
    exact ⟨s, hperm.mem_iff.mpr (hmem s rfl), (readSource_eq_ok hsource).1.1⟩

end Catalog

section Pruned

/-- An ignore file, a file that it ignores, and one that it does not. -/
def pruned : FileSystem :=
  ⟨[([".gitignore"], .file (Text.Utf8.encode "*.md\n") 0o644),
    (["a.md"], .file (Text.Utf8.encode "notes") 0o644),
    (["a.sql.tmpl"], .file (Text.Utf8.encode "select 1") 0o644)], []⟩

/-- The rules of the ignore file. -/
def prunedRules : Ignore.Rules :=
  ⟨"", [⟨true, [.leading, .run, .char '.', .char 'm', .char 'd', .close]⟩]⟩

theorem mem_pruned {loc : Location} {e : Entry} (h : pruned.find? loc = some e) (hne : loc ≠ []) :
    loc ∈ [[".gitignore"], ["a.md"], ["a.sql.tmpl"]] :=
  (@FileSystem.find?_ne_none_iff pruned loc hne).mp (by rw [h]; exact Option.some_ne_none e)

theorem loadRules_pruned : loadRules pruned ⟨"/", []⟩ "" = ([], .ok (some prunedRules)) := by
  have hgit : IsName ".gitignore" := by decide
  have hother : IsName ".ignore" := by decide
  have hread : pruned.read (Path.child ⟨"/", []⟩ ".gitignore") =
      .ok (Text.Utf8.encode "*.md\n") := by
    rw [Path.child_of_isName _ hgit]
    exact FileSystem.read_root hgit (by decide) rfl
  have hnone : ∀ bytes, pruned.read (Path.child ⟨"/", []⟩ ".ignore") ≠ .ok bytes := by
    rw [Path.child_of_isName _ hother]
    exact FileSystem.not_read_root hother (by decide) (by decide)
  have hlines : Text.lines "*.md\n" = ["*.md"] := by decide
  have hcompile : Ignore.Rules.ofLines "" ["*.md"] = .ok prunedRules := by decide
  simp only [loadRules, ignoreFileNames, List.map_cons, List.map_nil, readIgnoreFile_of_read hread,
    readIgnoreFile_of_not_read hnone, hlines, List.flatMap_cons, List.flatMap_nil, List.append_nil,
    List.isEmpty_cons, Bool.false_eq_true, if_false, hcompile]
  rfl

theorem visible_pruned_iff (way : List String) :
    Visible pruned false ⟨"/", []⟩ [] way ↔ way = ["a.sql.tmpl"] := by
  have hown : rulesOf pruned ⟨"/", []⟩ [] = some prunedRules := by
    have hload : loadRules pruned (Path.below ⟨"/", []⟩ []) (wayText []) =
      ([], .ok (some prunedRules)) := loadRules_pruned
    exact rulesOf_eq (congrArg Prod.snd hload)
  have habove : ∀ n, rulesAbove pruned ⟨"/", []⟩ [n] = [prunedRules] := by
    intro n
    have hconcat := @rulesAbove_concat pruned ⟨"/", []⟩ [] n
    rw [hown] at hconcat
    exact hconcat
  constructor
  · rintro ⟨hne, ⟨e, hfind, _⟩, hpasses, _⟩
    have hreverse : way.reverse ++ [] ≠ [] := by
      rwa [List.append_nil, ne_eq, List.reverse_eq_nil_iff]
    have hmem := mem_pruned hfind hreverse
    have hvisible := hpasses.resolve_left Bool.false_ne_true
    rw [List.append_nil] at hmem
    simp only [List.mem_cons, List.not_mem_nil, or_false, List.reverse_eq_iff,
      List.reverse_singleton] at hmem
    -- Of the three entries one is a directory, one is dropped by the rules, and one is left.
    rcases hmem with rfl | rfl | rfl
    · exact absurd hvisible.1 (by decide)
    · rw [habove] at hvisible
      exact absurd hvisible.2 (by decide)
    · rfl
  · rintro rfl
    refine ⟨List.cons_ne_nil _ _, ⟨.file (Text.Utf8.encode "select 1") 0o644, rfl, ?_, ?_⟩,
      Or.inr ⟨by decide, ?_⟩, fun dir hprefix hne hnot => ?_⟩
    · simp only [ne_eq, reduceCtorEq, not_false_eq_true]
    · intro target heq
      exact absurd heq (by simp only [reduceCtorEq, not_false_eq_true])
    · rw [habove]
      decide
    · have hnil := (@List.prefix_concat_iff _ dir [] "a.sql.tmpl").mp hprefix
      exact absurd (List.prefix_nil.mp (hnil.resolve_left hnot)) hne

end Pruned

/-- A walk of a tree whose ignore files can be compiled sees the visible files,
    each once. The files of a directory come before its subdirectories, both in
    the order of their names. A catalog of the tree has those that are named as
    templates, each once and in the order of their paths, and there is one if
    these can be read as text. The entries of the tree may be listed in any
    order. -/
theorem walkTree_visible {fs : FileSystem} (h : fs.Proper) {root : Path} {loc : Location}
    (hroot : fs.status root = .ok (loc, .directory)) {all : Bool}
    (hcompile : all = false → RulesCompile fs root loc) :
    ∃ seen, ∃ ways : List (List String), walkTree fs root all = .ok seen ∧
      filesOf seen = .ok (ways.map fun way => (wayText way, root.below way)) ∧
      (∀ way, way ∈ ways ↔ Visible fs all root loc way) ∧
      (ways.map wayText).Nodup ∧ ways.Pairwise Precedes ∧
      ∀ config : Config, config.includeIgnored = all → ∀ given, fs.canonical? given = some root →
        (∀ notes c, Catalog.build fs given config = (notes, .ok c) →
          c.paths.Pairwise (· < ·) ∧ ∀ path, path ∈ c.paths ↔
            ∃ way ∈ ways, wayText way = path ∧ classify (way.getLastD "") config ≠ none) ∧
        ((∀ way ∈ ways, classify (way.getLastD "") config ≠ none →
          ∃ text, fs.read (root.below way) = .ok (Text.Utf8.encode text)) →
            ∃ notes c, Catalog.build fs given config = (notes, .ok c)) := by
  have hnone : ∀ n ∈ ([] : List String), IsName n := fun _ hn => absurd hn List.not_mem_nil
  have hdir : fs.IsDirectoryAt (([] : List String).reverse ++ loc) :=
    (FileSystem.entry_of_locate (FileSystem.status_eq_ok_iff.mp hroot)).symm
  rcases filesSeen_walkFrom h hcompile (fs.entries.length + 1) [] [] hnone hdir (fun _ => rfl) with
    ⟨hunbroken, hfiles⟩
  have hempty : wayText [] = "" := rfl
  simp only [Path.below_nil, List.reverse_nil, List.nil_append, hempty] at hunbroken hfiles
  have hwalk : walkTree fs root all =
      .ok (walkFrom fs all (fs.entries.length + 1) root loc "" []) := by
    have htrue : fs.isDirectory root = .ok true := by
      rw [FileSystem.isDirectory, FileSystem.test, hroot]
      rfl
    simp only [walkTree, htrue, hroot, untilBroken_of_unbroken hunbroken]
  -- The walk starts at the root, where no directory has to be entered first.
  have hmem : ∀ way, way ∈ waysFrom fs all root loc (fs.entries.length + 1) [] ↔
      Visible fs all root loc way := by
    intro way
    rw [mem_waysFrom_iff h (fs.entries.length + 1) [] hnone (fun dir hprefix hne => ?_)
      (Nat.lt_succ_of_le (fs.countBelow_le _)) way, List.nil_append]
    · exact ⟨And.right, fun hvisible => ⟨hvisible.ne_nil, hvisible⟩⟩
    · exact absurd (List.prefix_nil.mp hprefix) hne
  have hways : ∀ way ∈ waysFrom fs all root loc (fs.entries.length + 1) [], way ≠ [] :=
    fun way hway => ((hmem way).mp hway).ne_nil
  refine ⟨_, _, hwalk, (filesOf_of_unbroken hunbroken).trans (congrArg Except.ok hfiles), hmem, ?_,
    pairwise_waysFrom h _ [], ?_⟩
  · have hnodup := (filesSeen_walkTree h hwalk).1
    rwa [hfiles, List.map_map] at hnodup
  · rintro config rfl given hreal
    refine ⟨fun notes c hbuild => ⟨?_, fun path => ?_⟩, fun hread => ?_⟩
    · exact List.pairwise_map.mpr (Catalog.regular_of_build h hbuild).ascending
    · exact Catalog.mem_paths_of_build hreal hwalk hfiles hways hbuild
    · have hsources : ∀ f ∈ filesSeen (walkFrom fs config.includeIgnored (fs.entries.length + 1)
          root loc "" []), ∃ source, Catalog.readSource fs config f.1 f.2 = .ok source := by
        intro f hf
        rw [hfiles] at hf
        rcases List.mem_map.mp hf with ⟨way, hway, rfl⟩
        refine Catalog.exists_readSource (fun hclass => hread way hway ?_)
        rwa [← Path.name_below root (hways way hway)]
      rcases Catalog.exists_readSightings hunbroken hsources with ⟨notes, sources, hsightings⟩
      refine ⟨notes, Catalog.ofSources root sources, ?_⟩
      simp only [Catalog.build, hreal, hwalk, hsightings, Except.map]

theorem walkTree_visible_pruned : ∃ seen, walkTree pruned ⟨"/", []⟩ false = .ok seen ∧
    filesOf seen = .ok [("a.sql.tmpl", ⟨"/", ["a.sql.tmpl"]⟩)] := by
  have hcompile : RulesCompile pruned ⟨"/", []⟩ [] := by
    intro way hdir
    by_cases hne : way.reverse ++ [] = []
    · rw [List.append_nil, List.reverse_eq_nil_iff] at hne
      rw [hne]
      exact ⟨some prunedRules, congrArg Prod.snd loadRules_pruned⟩
    · have hmem := mem_pruned hdir hne
      simp only [List.mem_cons, List.not_mem_nil, or_false] at hmem
      rcases hmem with heq | heq | heq
      all_goals
        rw [FileSystem.IsDirectoryAt, heq] at hdir
        exact absurd (Option.some.inj hdir) (by simp only [reduceCtorEq, not_false_eq_true])
  rcases walkTree_visible (by decide) (FileSystem.status_root pruned) (fun _ => hcompile)
    with ⟨seen, ways, hwalk, hfiles, hmem, _, hordered, _⟩
  have hnodup : ways.Nodup := by
    refine hordered.imp (fun {way way'} hlt heq => ?_)
    rw [heq] at hlt
    exact not_precedes_self way' hlt
  have hways : ways = [["a.sql.tmpl"]] := by
    refine List.perm_singleton.mp ((List.perm_ext_iff_of_nodup hnodup ?_).mpr (fun way => ?_))
    · exact List.nodup_singleton _
    · rw [hmem, visible_pruned_iff, List.mem_singleton]
  rw [hways] at hfiles
  exact ⟨seen, hwalk, hfiles⟩

end Stencil
