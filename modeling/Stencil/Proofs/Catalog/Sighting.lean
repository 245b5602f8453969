import Stencil.Catalog.Walk
import Stencil.Proofs.FileSystem.Proper

/-!
# Files of a Walk

A walk sees every file once, under a path that tells where it stands.

The path of a sighting relative to the root is written from the names on the
way to it. `Below` says so for a file seen below a directory: some names more
lead to it, and the last of them is its own. As no name has a slash in it,
different ways are written differently. So the files of a directory differ
from each other, from those in its subdirectories, and those of two
subdirectories differ too, which is the step of the induction on the depth.

## Main definitions

* `filesSeen`: The files among some sightings.
* `wayText`: The path that names make, relative to the root.
* `Below`: A file is seen below a directory.
* `Unbroken`: No pattern ends a walk.

## Theorems

* `wayText_inj`: A path determines the names on the way.
* `filesSeen_walkFrom_succ`: The files of a directory, and those below it.
* `filesOf_of_unbroken`: They are the result of a walk that no pattern ends.
* `below_of_mem_walkFrom`: Every file is seen below the directory.
* `nodup_walkFrom`: No file is seen twice.
* `filesSeen_walkTree`: Both, for a walk of a whole tree.
-/

namespace Stencil

/-- The file of a sighting. -/
def Sighting.file? : Sighting → Option (String × Path)
  | .file relative path => some (relative, path)
  | .skipped _ _ => none
  | .broken _ => none

/-- The files among some sightings: relative paths and paths. -/
def filesSeen (seen : List Sighting) : List (String × Path) :=
  seen.filterMap Sighting.file?

theorem filesSeen_append (seen seen' : List Sighting) :
    filesSeen (seen ++ seen') = filesSeen seen ++ filesSeen seen' :=
  List.filterMap_append

/-- The path that names make, relative to the root. -/
def wayText (way : List String) : String :=
  Text.joinStrings "/" way

theorem wayText_inj {way way' : List String} (hne : way ≠ []) (hne' : way' ≠ [])
    (h : ∀ n ∈ way, IsName n) (h' : ∀ n ∈ way', IsName n) (heq : wayText way = wayText way') :
    way = way' :=
  Text.joinStrings_inj '/' hne hne' (fun n hn => (h n hn).noSlash)
    (fun n hn => (h' n hn).noSlash) heq

theorem splitOnChar_wayText {way : List String} (hne : way ≠ []) (h : ∀ n ∈ way, IsName n) :
    Text.splitOnChar '/' (wayText way) = way :=
  Text.splitOnChar_joinStrings '/' hne (fun n hn => (h n hn).noSlash)

theorem wayText_ne_empty {way : List String} (hne : way ≠ []) (h : ∀ n ∈ way, IsName n) :
    wayText way ≠ "" := by
  intro heq
  have hsplit := splitOnChar_wayText hne h
  rw [heq] at hsplit
  -- The empty text is one empty piece, and no name is empty.
  have hempty : "" ∈ way := by
    rw [← hsplit]
    exact List.mem_singleton_self ""
  exact (h "" hempty).ne_empty rfl

theorem wayText_concat {way : List String} (hne : way ≠ []) (n : String) :
    wayText (way ++ [n]) = wayText way ++ "/" ++ n := by
  induction way with
  | nil => exact absurd rfl hne
  | cons m ms ih =>
      cases ms with
      | nil => rfl
      | cons k ks =>
          have hrest := ih (List.cons_ne_nil k ks)
          simp only [wayText] at hrest ⊢
          rw [List.cons_append, List.cons_append, Text.joinStrings, ← List.cons_append, hrest,
            Text.joinStrings]
          simp only [String.append_assoc]

/-- A name below a directory is one more name on the way. -/
theorem relativeName_wayText {way : List String} (h : ∀ n ∈ way, IsName n) (n : String) :
    relativeName (wayText way) n = wayText (way ++ [n]) := by
  rw [relativeName]
  by_cases hne : way = []
  · subst hne
    rw [wayText, Text.joinStrings, if_pos (String.isEmpty_iff.mpr rfl), List.nil_append, wayText,
      Text.joinStrings]
  · have hfull : (wayText way).isEmpty = false := by
      rw [Bool.eq_false_iff, ne_eq, String.isEmpty_iff]
      exact wayText_ne_empty hne h
    rw [hfull, if_neg Bool.false_ne_true, wayText_concat hne]

/-- If an ignore file is noted at all then as one that is no text. -/
theorem readIgnoreFile_notes (fs : FileSystem) (dir : Path) (name : String) :
    (readIgnoreFile fs dir name).1 = [] ∨
      ∃ why, (readIgnoreFile fs dir name).1 = [.skipped (dir.child name) why] := by
  unfold readIgnoreFile
  simp only []
  generalize fs.isFile (dir.child name) = there
  generalize fs.read (dir.child name) = content
  rcases there with why | _ | _
  · exact Or.inl rfl
  · exact Or.inl rfl
  · rcases content with why | bytes
    · exact Or.inl rfl
    · simp only []
      cases Text.Utf8.decode bytes with
      | ok text => exact Or.inl rfl
      | error why => exact Or.inr ⟨why, rfl⟩

theorem exists_skipped_of_mem_loadRules {fs : FileSystem} {dir : Path} {base : String}
    {s : Sighting} (h : s ∈ (loadRules fs dir base).1) : ∃ path why, s = .skipped path why := by
  simp only [loadRules] at h
  rcases List.mem_flatMap.mp h with ⟨found, hfound, hs⟩
  rcases List.mem_map.mp hfound with ⟨name, _, rfl⟩
  rcases readIgnoreFile_notes fs dir name with hnil | ⟨why, hone⟩
  · rw [hnil] at hs
    exact absurd hs List.not_mem_nil
  · rw [hone] at hs
    exact ⟨_, why, List.mem_singleton.mp hs⟩

theorem filesSeen_loadRules (fs : FileSystem) (dir : Path) (base : String) :
    filesSeen (loadRules fs dir base).1 = [] := by
  rw [filesSeen, List.filterMap_eq_nil_iff]
  intro s hs
  rcases exists_skipped_of_mem_loadRules hs with ⟨path, why, rfl⟩
  rfl

/-- What a walk sees in a directory and in subdirectories, where notes are no
    files. -/
theorem filesSeen_step (dir : Path) (rel : String) {notes : List Sighting}
    (hnotes : filesSeen notes = []) (files dirs : List String) (f : String → List Sighting) :
    filesSeen (notes ++ (files.map fun n => .file (relativeName rel n) (dir.child n)) ++
        dirs.flatMap f) =
      (files.map fun n => (relativeName rel n, dir.child n)) ++
        dirs.flatMap fun n => filesSeen (f n) := by
  rw [filesSeen_append, filesSeen_append, hnotes, List.nil_append, filesSeen, filesSeen,
    List.filterMap_map, List.filterMap_flatMap]
  congr 1
  exact congrFun List.filterMap_eq_map files

/-- A walk of a directory ends at a bad pattern, or it sees some files of the
    directory and walks some subdirectories. -/
theorem filesSeen_walkFrom_succ (fs : FileSystem) (all : Bool) (depth : Nat) (dir : Path)
    (loc : Location) (rel : String) (above : List Ignore.Rules) :
    filesSeen (walkFrom fs all (depth + 1) dir loc rel above) = [] ∨
      ∃ files dirs : List String, ∃ rules, files.Sublist (fs.names loc) ∧
        dirs.Sublist (fs.names loc) ∧
        filesSeen (walkFrom fs all (depth + 1) dir loc rel above) =
          (files.map fun n => (relativeName rel n, dir.child n)) ++
            dirs.flatMap fun n => filesSeen
              (walkFrom fs all depth (dir.child n) (n :: loc) (relativeName rel n) rules) := by
  -- Reading an ignore file may leave a note, which is not a file.
  have hnotes : filesSeen (if all then ([], .ok none) else loadRules fs dir rel).1 = [] := by
    cases all with
    | true => rfl
    | false => exact filesSeen_loadRules fs dir rel
  rw [walkFrom]
  generalize (if all then (([] : List Sighting),
    (.ok none : Except Ignore.Invalid (Option Ignore.Rules))) else loadRules fs dir rel) =
      loaded at hnotes ⊢
  rcases loaded with ⟨notes, own⟩
  simp only at hnotes ⊢
  cases own with
  | error why =>
      left
      rw [filesSeen_append, hnotes]
      rfl
  | ok own =>
      right
      exact ⟨_, _, _, List.filter_sublist, List.filter_sublist, filesSeen_step dir rel hnotes _ _ _⟩

/-- A file is seen below the directory that some names lead to. -/
def Below (way : List String) (seen : String × Path) : Prop :=
  ∃ more, more ≠ [] ∧ (∀ n ∈ more, IsName n) ∧ seen.1 = wayText (way ++ more) ∧
    seen.2.name = more.getLastD ""

/-- What is seen below a subdirectory is seen below the directory, and the
    name of the subdirectory comes first on the way. -/
theorem Below.of_child {way : List String} {n : String} {seen : String × Path} (hn : IsName n)
    (h : Below (way ++ [n]) seen) : Below way seen ∧ ∃ more, more ≠ [] ∧
      (∀ m ∈ more, IsName m) ∧ seen.1 = wayText (way ++ n :: more) := by
  rcases h with ⟨more, hne, hnames, htext, hname⟩
  rw [List.append_assoc, List.singleton_append] at htext
  refine ⟨⟨n :: more, List.cons_ne_nil n more, fun m hm => ?_, htext, ?_⟩, more, hne, hnames,
    htext⟩
  · rcases List.mem_cons.mp hm with rfl | hm
    · exact hn
    · exact hnames m hm
  · rw [hname, List.getLastD_cons, List.getLastD_eq_getLast?, List.getLastD_eq_getLast?,
      List.getLast?_eq_some_getLast hne, Option.getD_some, Option.getD_some]

theorem forall_isName_concat {way : List String} {n : String} (h : ∀ m ∈ way, IsName m)
    (hn : IsName n) : ∀ m ∈ way ++ [n], IsName m := by
  intro m hm
  rcases List.mem_append.mp hm with hm | hm
  · exact h m hm
  · rw [List.mem_singleton.mp hm]
    exact hn

/-- Every file is seen below the directory that the walk starts from. -/
theorem below_of_mem_walkFrom {fs : FileSystem} (h : fs.Proper) (all : Bool) (depth : Nat) :
    ∀ dir loc way above, (∀ n ∈ way, IsName n) →
      ∀ seen ∈ filesSeen (walkFrom fs all depth dir loc (wayText way) above), Below way seen := by
  induction depth with
  | zero =>
      intro dir loc way above _ seen hseen
      exact absurd hseen List.not_mem_nil
  | succ depth ih =>
      intro dir loc way above hway seen hseen
      rcases filesSeen_walkFrom_succ fs all depth dir loc (wayText way) above with
        hnil | ⟨files, dirs, rules, hfiles, hdirs, heq⟩
      · rw [hnil] at hseen
        exact absurd hseen List.not_mem_nil
      · rw [heq, List.mem_append] at hseen
        rcases hseen with hseen | hseen
        · rcases List.mem_map.mp hseen with ⟨n, hn, rfl⟩
          have hname : IsName n := h.isName_of_mem_names (hfiles.mem hn)
          refine ⟨[n], List.cons_ne_nil n [], fun m hm => ?_, relativeName_wayText hway n,
            Path.name_child_of_isName dir hname⟩
          rw [List.mem_singleton.mp hm]
          exact hname
        · rcases List.mem_flatMap.mp hseen with ⟨n, hn, hmem⟩
          have hname : IsName n := h.isName_of_mem_names (hdirs.mem hn)
          rw [relativeName_wayText hway] at hmem
          exact ((ih _ _ _ _ (forall_isName_concat hway hname) seen hmem).of_child hname).1

/-- No file is seen twice. -/
theorem nodup_walkFrom {fs : FileSystem} (h : fs.Proper) (all : Bool) (depth : Nat) :
    ∀ dir loc way above, (∀ n ∈ way, IsName n) →
      ((filesSeen (walkFrom fs all depth dir loc (wayText way) above)).map Prod.fst).Nodup := by
  induction depth with
  | zero => intro dir loc way above _; exact List.nodup_nil
  | succ depth ih =>
      intro dir loc way above hway
      rcases filesSeen_walkFrom_succ fs all depth dir loc (wayText way) above with
        hnil | ⟨files, dirs, rules, hfiles, hdirs, heq⟩
      · rw [hnil]
        exact List.nodup_nil
      · have hname : ∀ n ∈ fs.names loc, IsName n := fun n hn => h.isName_of_mem_names hn
        have hfirst : ∀ n ∈ dirs, ∀ text ∈ (filesSeen (walkFrom fs all depth (dir.child n)
            (n :: loc) (wayText (way ++ [n])) rules)).map Prod.fst,
            ∃ more, more ≠ [] ∧ (∀ m ∈ more, IsName m) ∧ text = wayText (way ++ n :: more) := by
          intro n hn text htext
          rcases List.mem_map.mp htext with ⟨seen, hseen, rfl⟩
          have hn' := hname n (hdirs.mem hn)
          exact ((below_of_mem_walkFrom h all depth _ _ _ _ (forall_isName_concat hway hn') seen
            hseen).of_child hn').2
        have hcons : ∀ n ∈ fs.names loc, ∀ more : List String, (∀ m ∈ more, IsName m) →
            ∀ m ∈ way ++ n :: more, IsName m := by
          intro n hn more hmore m hm
          rcases List.mem_append.mp hm with hm | hm
          · exact hway m hm
          · rcases List.mem_cons.mp hm with rfl | hm
            · exact hname _ hn
            · exact hmore m hm
        have hne : ∀ (n : String) (more : List String), way ++ n :: more ≠ [] :=
          fun n more => List.append_ne_nil_of_right_ne_nil way (List.cons_ne_nil n more)
        rw [heq, List.map_append, List.map_map, List.map_flatMap]
        simp only [relativeName_wayText hway]
        refine List.nodup_append.mpr ⟨?_, List.nodup_flatMap.mpr ⟨fun n hn => ?_, ?_⟩, ?_⟩
        · -- The files of the directory itself differ in their names.
          refine List.Nodup.map_on (fun n hn m hm hnm => ?_) ((h.nodup_names loc).sublist hfiles)
          have hway' := wayText_inj (hne n []) (hne m [])
            (hcons n (hfiles.mem hn) [] (fun _ hm => absurd hm List.not_mem_nil))
            (hcons m (hfiles.mem hm) [] (fun _ hm => absurd hm List.not_mem_nil)) hnm
          exact (List.cons.inj (List.append_cancel_left hway')).1
        · exact ih _ _ _ _ (forall_isName_concat hway (hname n (hdirs.mem hn)))
        · -- The files of two subdirectories differ in the next name on the way.
          have hnodup : dirs.Nodup := (h.nodup_names loc).sublist hdirs
          refine hnodup.imp_of_mem (fun {n m} hn hm hnm => ?_)
          intro text hfst hsnd
          rcases hfirst n hn text hfst with ⟨more, _, hmore, rfl⟩
          rcases hfirst m hm _ hsnd with ⟨more', _, hmore', heq'⟩
          have hway' := wayText_inj (hne n more) (hne m more')
            (hcons n (hdirs.mem hn) more hmore) (hcons m (hdirs.mem hm) more' hmore') heq'
          exact hnm (List.cons.inj (List.append_cancel_left hway')).1
        · -- A file of the directory has a shorter way than one further down.
          intro text hfst text' hsnd heq'
          rcases List.mem_map.mp hfst with ⟨n, hn, rfl⟩
          rcases List.mem_flatMap.mp hsnd with ⟨m, hm, hmem⟩
          rcases hfirst m hm _ hmem with ⟨more, hmore, hmore', htext⟩
          have hway' := wayText_inj (hne n []) (hne m more)
            (hcons n (hfiles.mem hn) [] (fun _ hm => absurd hm List.not_mem_nil))
            (hcons m (hdirs.mem hm) more hmore') (heq'.trans htext)
          exact hmore (List.cons.inj (List.append_cancel_left hway')).2.symm

/-- No pattern ends the walk. -/
def Unbroken (seen : List Sighting) : Prop :=
  ∀ why, .broken why ∉ seen

theorem untilBroken_of_unbroken {seen : List Sighting} (h : Unbroken seen) :
    untilBroken seen = seen := by
  induction seen with
  | nil => rfl
  | cons s seen ih =>
      have hrest := ih (fun why hmem => h why (List.mem_cons_of_mem s hmem))
      cases s with
      | broken why => exact absurd List.mem_cons_self (h why)
      | file relative path => exact congrArg (Sighting.file relative path :: ·) hrest
      | skipped path why => exact congrArg (Sighting.skipped path why :: ·) hrest

theorem filesOf_of_unbroken {seen : List Sighting} (h : Unbroken seen) :
    filesOf seen = .ok (filesSeen seen) := by
  induction seen with
  | nil => rfl
  | cons s seen ih =>
      have hrest := ih (fun why hmem => h why (List.mem_cons_of_mem s hmem))
      cases s with
      | broken why => exact absurd List.mem_cons_self (h why)
      | file relative path => rw [filesOf, hrest]; rfl
      | skipped path why => rw [filesOf, hrest]; rfl

theorem filesSeen_untilBroken_sublist (seen : List Sighting) :
    (filesSeen (untilBroken seen)).Sublist (filesSeen seen) := by
  refine List.Sublist.filterMap _ ?_
  induction seen with
  | nil => exact List.Sublist.slnil
  | cons s seen ih =>
      cases s with
      | broken why => exact List.Sublist.cons_cons _ (List.nil_sublist seen)
      | file relative path => exact List.Sublist.cons_cons _ ih
      | skipped path why => exact List.Sublist.cons_cons _ ih

/-- A walk of a tree starts where its root leads. -/
theorem walkTree_eq_ok {fs : FileSystem} {root : Path} {all : Bool} {seen : List Sighting}
    (h : walkTree fs root all = .ok seen) : ∃ loc,
      seen = untilBroken (walkFrom fs all (fs.entries.length + 1) root loc "" []) := by
  unfold walkTree at h
  rcases hdir : fs.isDirectory root with why | isDir
  · simp only [hdir, reduceCtorEq] at h
  · cases isDir with
    | false => simp only [hdir, reduceCtorEq] at h
    | true =>
        rcases hstatus : fs.status root with why | ⟨loc, e⟩
        · simp only [hdir, hstatus, reduceCtorEq] at h
        · simp only [hdir, hstatus, Except.ok.injEq] at h
          exact ⟨loc, h.symm⟩

/-- A walk of a tree sees every file once and below the root. -/
theorem filesSeen_walkTree {fs : FileSystem} (h : fs.Proper) {root : Path} {all : Bool}
    {seen : List Sighting} (hwalk : walkTree fs root all = .ok seen) :
    ((filesSeen seen).map Prod.fst).Nodup ∧ ∀ f ∈ filesSeen seen, Below [] f := by
  have hnone : ∀ n ∈ ([] : List String), IsName n := fun _ hn => absurd hn List.not_mem_nil
  rcases walkTree_eq_ok hwalk with ⟨loc, rfl⟩
  have hsub := filesSeen_untilBroken_sublist
    (walkFrom fs all (fs.entries.length + 1) root loc "" [])
  refine ⟨(nodup_walkFrom h all _ root loc [] [] hnone).sublist (hsub.map _), fun f hf => ?_⟩
  exact below_of_mem_walkFrom h all _ root loc [] [] hnone f (hsub.mem hf)

end Stencil
