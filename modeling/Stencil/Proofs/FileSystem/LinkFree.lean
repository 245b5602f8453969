import Stencil.Proofs.FileSystem.Spelled

/-!
# Trees Without Links

Where paths lead if no entry is a link.

Without links the components of a path alone say where it leads, and the file
system only says whether the way is open: each location before the end has to
be a directory. `Along` goes through the locations on the way, so that one
notion serves both for a way that is open and for one that no file blocks.

What a path leads to, and whether it leads anywhere, is then one equivalence,
`locate_eq_ok_iff_of_linkFree`, and every operation that looks a path up is
decided by it. The condition on the path itself, that it can be looked up at
all, is `Path.Fits`; it does not mention the file system.

## Main definitions

* `FileSystem.LinkFree`: No entry is a link.
* `FileSystem.Along`: A condition holds of every location on a way.
* `FileSystem.Reaches`: All of the way of a path consists of directories.
* `Path.place`: Where a path leads.
* `Path.Fits`: The path can be looked up.

## Theorems

* `FileSystem.walk_eq_ok_iff`: When a walk succeeds, and where it ends.
* `FileSystem.walk_eq_noEntry`: What a walk complains about if no file blocks it.
* `FileSystem.locate_eq_ok_iff_of_linkFree`: Both for a path.
* `FileSystem.Reaches.solid`: A way of directories ends at a solid location.
* `FileSystem.Reaches.withoutDots`: Double dots can be resolved textually.
* `FileSystem.canonical?_of_linkFree`: Taking out links only takes out dots.
-/

namespace Stencil

namespace FileSystem

/-- No entry is a link. -/
def LinkFree (fs : FileSystem) : Prop :=
  ∀ loc target, fs.find? loc ≠ some (.link target)

theorem linkFree_of_entries {fs : FileSystem}
    (h : ∀ entry ∈ fs.entries, ∀ target, entry.2 ≠ .link target) : fs.LinkFree := by
  intro loc target hlink
  rw [find?] at hlink
  by_cases hnil : loc.isEmpty = true
  · rw [if_pos hnil, Option.some.injEq] at hlink
    exact absurd hlink (by simp only [reduceCtorEq, not_false_eq_true])
  · rw [if_neg hnil, List.lookup_eq_some_iff] at hlink
    rcases hlink with ⟨before, after, heq, _⟩
    have hmem : (loc, Entry.link target) ∈ fs.entries := by
      rw [heq]
      exact List.mem_append_right _ List.mem_cons_self
    exact h _ hmem target rfl

/-- A directory stands at a location. -/
def IsDirectoryAt (fs : FileSystem) (loc : Location) : Prop :=
  fs.find? loc = some .directory

/-- Where a component leads from a directory. -/
def stepTo (dir : Location) (p : String) : Location :=
  if p == "." then dir else if p == ".." then dir.tail else p :: dir

/-- A condition holds of every location on a way, both ends included. -/
def Along (P : Location → Prop) (dir : Location) : List String → Prop
  | [] => P dir
  | p :: ps => P dir ∧ Along P (stepTo dir p) ps

section Way

variable {P Q : Location → Prop} {dir : Location}

theorem stepTo_dot (dir : Location) : stepTo dir "." = dir := rfl

theorem stepTo_dots (dir : Location) : stepTo dir ".." = dir.tail := rfl

theorem stepTo_of_ne {p : String} (hdot : p ≠ ".") (hdots : p ≠ "..") (dir : Location) :
    stepTo dir p = p :: dir := by
  rw [stepTo, if_neg (fun h => hdot (eq_of_beq h)), if_neg (fun h => hdots (eq_of_beq h))]

theorem descend_nil (dir : Location) : descend dir [] = dir := rfl

theorem descend_cons (dir : Location) (p : String) (ps : List String) :
    descend dir (p :: ps) = descend (stepTo dir p) ps := rfl

theorem descend_append (dir : Location) (ps qs : List String) :
    descend dir (ps ++ qs) = descend (descend dir ps) qs :=
  List.foldl_append

theorem descend_concat (dir : Location) (ps : List String) (p : String) :
    descend dir (ps ++ [p]) = stepTo (descend dir ps) p :=
  descend_append dir ps [p]

theorem Along.start {parts : List String} (h : Along P dir parts) : P dir := by
  cases parts with
  | nil => exact h
  | cons p ps => exact h.1

theorem Along.imp (hPQ : ∀ loc, P loc → Q loc) {parts : List String} :
    ∀ {dir}, Along P dir parts → Along Q dir parts := by
  induction parts with
  | nil => intro dir h; exact hPQ dir h
  | cons p ps ih => intro dir h; exact ⟨hPQ dir h.1, ih h.2⟩

/-- The locations on the way to one component more are one more. -/
theorem along_concat {parts : List String} {p : String} :
    ∀ {dir}, Along P dir (parts ++ [p]) ↔
      Along P dir parts ∧ P (descend dir (parts ++ [p])) := by
  induction parts with
  | nil => intro dir; exact Iff.rfl
  | cons q qs ih =>
      intro dir
      rw [List.cons_append, Along, ih, Along, descend_cons, and_assoc]

theorem Along.last {parts : List String} (h : Along P dir parts) : P (descend dir parts) := by
  rcases List.eq_nil_or_concat parts with rfl | ⟨init, p, rfl⟩
  · exact h
  · rw [List.concat_eq_append] at h ⊢
    exact (along_concat.mp h).2

/-- What holds on the way to a component more holds on the way. -/
theorem Along.dropLast {parts : List String} (h : Along P dir parts) :
    Along P dir parts.dropLast := by
  rcases List.eq_nil_or_concat parts with rfl | ⟨init, p, rfl⟩
  · exact h
  · rw [List.concat_eq_append] at h
    rw [List.concat_eq_append, List.dropLast_concat]
    exact (along_concat.mp h).1

/-- Before the end of a way that has a first step, everything holds if it holds
    at the start and before the end of the rest. -/
theorem along_dropLast_cons (hdir : P dir) {p : String} {ps : List String} :
    Along P dir (p :: ps).dropLast ↔ ps = [] ∨ Along P (stepTo dir p) ps.dropLast := by
  cases ps with
  | nil => exact ⟨fun _ => Or.inl rfl, fun _ => hdir⟩
  | cons q qs =>
      rw [List.dropLast_cons_cons, Along]
      simp only [hdir, true_and, reduceCtorEq, false_or]

/-- A step from a solid location leads to one, if it leads to a directory. -/
theorem Solid.stepTo {fs : FileSystem} (h : fs.Solid dir) {p : String}
    (hp : fs.IsDirectoryAt (stepTo dir p)) : fs.Solid (stepTo dir p) := by
  by_cases hdot : p = "."
  · rw [hdot]
    exact h
  · by_cases hdots : p = ".."
    · rw [hdots]
      exact h.tail
    · rw [stepTo_of_ne hdot hdots] at hp ⊢
      exact ⟨hp, h⟩

/-- A way of directories ends at a solid location if it starts at one. -/
theorem Solid.descend {fs : FileSystem} {parts : List String} :
    ∀ {dir}, fs.Solid dir → Along fs.IsDirectoryAt dir parts → fs.Solid (descend dir parts) := by
  induction parts with
  | nil => intro dir h _; exact h
  | cons p ps ih => intro dir h halong; exact ih (h.stepTo halong.2.start) halong.2

end Way

/-- All components are short enough to be looked up. -/
def Sized (parts : List String) : Prop :=
  ∀ p ∈ parts, p.utf8ByteSize ≤ 255

theorem sized_cons {p : String} {ps : List String} :
    Sized (p :: ps) ↔ p.utf8ByteSize ≤ 255 ∧ Sized ps :=
  List.forall_mem_cons

section Walk

variable {fs : FileSystem} {follow : Bool} {links : Nat} {dir : Location}

theorem walk_dot (ps : List String) :
    fs.walk follow links dir ("." :: ps) = fs.walk follow links dir ps := by
  rw [walk, if_pos (beq_self_eq_true _)]

theorem walk_dots (ps : List String) :
    fs.walk follow links dir (".." :: ps) = fs.walk follow links dir.tail ps := by
  rw [walk, if_neg (by decide), if_pos (beq_self_eq_true _)]

theorem walk_directory {p : String} (hp : IsPlain p) (hdir : fs.IsDirectoryAt (p :: dir))
    (ps : List String) :
    fs.walk follow links dir (p :: ps) = fs.walk follow links (p :: dir) ps := by
  rw [IsDirectoryAt] at hdir
  rw [walk_name hp, hdir]

/-- A walk ends at something that is no directory, or it fails there. -/
theorem walk_other (h : fs.LinkFree) {p : String} (hp : IsPlain p)
    (hdir : ¬ fs.IsDirectoryAt (p :: dir)) (ps : List String) :
    fs.walk follow links dir (p :: ps) = if ps = [] then .ok ⟨p :: dir, fs.find? (p :: dir)⟩
      else .error (if fs.find? (p :: dir) = none then .noEntry else .notDirectory) := by
  rw [walk_name hp]
  rcases hfind : fs.find? (p :: dir) with _ | e
  · simp only [List.isEmpty_iff, if_true]
  · cases e with
    | directory => exact absurd hfind hdir
    | link target => exact absurd hfind (h _ target)
    | file data mode => simp only [List.isEmpty_iff, reduceCtorEq, if_false]

/-- A walk succeeds if the way to its last component consists of directories,
    and it ends where its components lead. The induction is on the components:
    from a solid location every one leads to a solid location or ends the
    walk. -/
theorem walk_eq_ok_iff (h : fs.LinkFree) {parts : List String} {found : Found} :
    ∀ {dir}, fs.Solid dir → (fs.walk follow links dir parts = .ok found ↔
      Sized parts ∧ Along fs.IsDirectoryAt dir parts.dropLast ∧
        found = ⟨descend dir parts, fs.find? (descend dir parts)⟩) := by
  induction parts with
  | nil =>
      intro dir hdir
      rw [walk, descend_nil, Except.ok.injEq, List.dropLast_nil, Along, IsDirectoryAt]
      simp only [hdir.find?, true_and, eq_comm, Sized, List.not_mem_nil, false_implies,
        implies_true]
  | cons p ps ih =>
      intro dir hdir
      rw [along_dropLast_cons hdir.find?, descend_cons, sized_cons]
      -- At the end of the way there is nothing before the end.
      have hnil : ∀ {loc}, fs.Solid loc →
          (ps = [] ∨ Along fs.IsDirectoryAt loc ps.dropLast ↔
            Along fs.IsDirectoryAt loc ps.dropLast) := by
        intro loc hloc
        refine ⟨fun hor => hor.elim (fun hps => ?_) id, Or.inr⟩
        rw [hps]
        exact hloc.find?
      by_cases hdot : p = "."
      · rw [hdot, stepTo_dot, hnil hdir, walk_dot, ih hdir]
        simp only [show (".".utf8ByteSize ≤ 255) = True by decide, true_and]
      by_cases hdots : p = ".."
      · rw [hdots, stepTo_dots, hnil hdir.tail, walk_dots, ih hdir.tail]
        simp only [show ("..".utf8ByteSize ≤ 255) = True by decide, true_and]
      rw [stepTo_of_ne hdot hdots]
      by_cases hsize : p.utf8ByteSize ≤ 255
      · by_cases hentry : fs.IsDirectoryAt (p :: dir)
        · have hsolid : fs.Solid (p :: dir) := ⟨hentry, hdir⟩
          rw [walk_directory ⟨hdot, hdots, hsize⟩ hentry, hnil hsolid, ih hsolid]
          simp only [hsize, true_and]
        · rw [walk_other h ⟨hdot, hdots, hsize⟩ hentry]
          by_cases hps : ps = []
          · subst hps
            simp only [if_true, hsize, Except.ok.injEq, descend_nil, true_or, true_and, eq_comm,
              Sized, List.not_mem_nil, false_implies, implies_true]
          · have hclosed : ¬ Along fs.IsDirectoryAt (p :: dir) ps.dropLast :=
              fun halong => hentry halong.start
            simp only [hps, if_false, hclosed, reduceCtorEq, or_self, false_and, and_false]
      · have hlong : fs.walk follow links dir (p :: ps) = .error .nameTooLong := by
          rw [walk, if_neg (fun hp => hdot (eq_of_beq hp)), if_neg (fun hp => hdots (eq_of_beq hp)),
            if_pos (Nat.not_le.mp hsize)]
        simp only [hlong, hsize, reduceCtorEq, false_and]

/-- If all components are short, a walk fails only for what stands on the way. -/
theorem walk_ne_nameTooLong (h : fs.LinkFree) {parts : List String} :
    ∀ {dir}, Sized parts → fs.walk follow links dir parts ≠ .error .nameTooLong := by
  induction parts with
  | nil =>
      intro dir _
      rw [walk]
      simp only [ne_eq, reduceCtorEq, not_false_eq_true]
  | cons p ps ih =>
      intro dir hsized
      rw [sized_cons] at hsized
      by_cases hdot : p = "."
      · rw [hdot, walk_dot]
        exact ih hsized.2
      by_cases hdots : p = ".."
      · rw [hdots, walk_dots]
        exact ih hsized.2
      by_cases hentry : fs.IsDirectoryAt (p :: dir)
      · rw [walk_directory ⟨hdot, hdots, hsized.1⟩ hentry]
        exact ih hsized.2
      · rw [walk_other h ⟨hdot, hdots, hsized.1⟩ hentry]
        by_cases hps : ps = []
        · rw [if_pos hps]
          simp only [ne_eq, reduceCtorEq, not_false_eq_true]
        · rw [if_neg hps]
          by_cases hnone : fs.find? (p :: dir) = none
          · rw [if_pos hnone]
            simp only [ne_eq, Except.error.injEq, reduceCtorEq, not_false_eq_true]
          · rw [if_neg hnone]
            simp only [ne_eq, Except.error.injEq, reduceCtorEq, not_false_eq_true]

end Walk

/-- Names that are no dots lead down, one after the other. -/
theorem descend_of_plain {names : List String} (h : ∀ n ∈ names, n ≠ "." ∧ n ≠ "..") :
    ∀ dir, descend dir names = names.reverse ++ dir := by
  induction names with
  | nil => intro dir; rfl
  | cons n ns ih =>
      intro dir
      have hn := h n List.mem_cons_self
      rw [descend_cons, stepTo_of_ne hn.1 hn.2, ih (fun m hm => h m (List.mem_cons_of_mem n hm)),
        List.reverse_cons, List.append_assoc, List.singleton_append]

/-- From the root, names lead to the location that lists them. -/
theorem descend_reverse {loc : Location} (h : ∀ n ∈ loc, n ≠ "." ∧ n ≠ "..") :
    descend [] loc.reverse = loc := by
  rw [descend_of_plain (fun n hn => h n (List.mem_reverse.mp hn)), List.reverse_reverse,
    List.append_nil]

/-- The way that a location lists consists of directories if the location is
    solid. -/
theorem Solid.along {fs : FileSystem} {loc : Location} (h : fs.Solid loc)
    (hplain : ∀ n ∈ loc, n ≠ "." ∧ n ≠ "..") : Along fs.IsDirectoryAt [] loc.reverse := by
  induction loc with
  | nil => exact find?_nil fs
  | cons n dir ih =>
      have hdir := ih h.2 (fun m hm => hplain m (List.mem_cons_of_mem n hm))
      have hplace := descend_reverse hplain
      rw [List.reverse_cons] at hplace ⊢
      exact along_concat.mpr ⟨hdir, hplace ▸ h.1⟩

end FileSystem

namespace Path

/-- Where an absolute path leads if there are no links. -/
def place (p : Path) : Location :=
  FileSystem.descend [] p.parts

/-- The path can be looked up: it has no null character, and neither it nor one
    of its components is too long. -/
structure Fits (p : Path) : Prop where
  /-- It has no null character. -/
  nullFree : p.NullFree
  /-- Its text is not too long. -/
  size : p.text.utf8ByteSize ≤ 4095
  /-- No component is too long. -/
  parts : FileSystem.Sized p.parts

variable {p : Path}

/-- A path leads one step further than the path without its last component. -/
theorem place_eq_stepTo (h : p.parts ≠ []) : p.place = FileSystem.stepTo p.parent.place p.name := by
  have hparts : p.parts = p.parts.dropLast ++ [p.name] := by
    rw [name, List.getLastD_eq_getLast?, List.getLast?_eq_some_getLast h, Option.getD_some,
      List.dropLast_append_getLast h]
  rw [place, hparts, FileSystem.descend_concat]
  rfl

theorem place_child (p : Path) {n : String} (h : IsName n) : (p.child n).place = n :: p.place := by
  rw [place, child_of_isName p h, FileSystem.descend_concat,
    FileSystem.stepTo_of_ne h.ne_dot h.ne_dots]
  rfl

theorem parent_child (p : Path) {n : String} (h : IsName n) : (p.child n).parent = p := by
  rw [child_of_isName p h, parent, List.dropLast_concat]

theorem Spelled.mem_place (h : p.Spelled) {n : String} (hn : n ∈ p.place) :
    IsPiece n ∧ n ≠ ".." := by
  rcases FileSystem.mem_descend p.parts [] hn with hn | ⟨hn, _, hdots⟩
  · exact absurd hn List.not_mem_nil
  · exact ⟨h.parts n hn, hdots⟩

theorem Spelled.plain_place (h : p.Spelled) : ∀ n ∈ p.place, n ≠ "." ∧ n ≠ ".." :=
  fun _ hn => ⟨(h.mem_place hn).1.ne_dot, (h.mem_place hn).2⟩

/-- Resolving double dots textually goes where the components lead. The stack
    is the location so far. -/
theorem resolveDots_eq {parts : List String} (h : "." ∉ parts) :
    ∀ stack, ".." ∉ stack →
      resolveDots true stack parts = (FileSystem.descend stack parts).reverse := by
  induction parts with
  | nil => intro stack _; rfl
  | cons q qs ih =>
      intro stack hstack
      rw [List.mem_cons, not_or] at h
      unfold resolveDots
      rw [FileSystem.descend_cons]
      by_cases hdots : q = ".."
      · rw [if_pos (beq_iff_eq.mpr hdots), hdots, FileSystem.stepTo_dots]
        -- Above the root there is only the root.
        cases stack with
        | nil => exact ih h.2 [] List.not_mem_nil
        | cons top rest =>
            rw [List.mem_cons, not_or] at hstack
            simp only [beq_eq_false_iff_ne.mpr (Ne.symm hstack.1), Bool.false_eq_true, if_false]
            exact ih h.2 rest hstack.2
      · rw [if_neg (fun hq => hdots (eq_of_beq hq)),
          FileSystem.stepTo_of_ne (Ne.symm h.1) hdots]
        refine ih h.2 (q :: stack) (fun hmem => ?_)
        rcases List.mem_cons.mp hmem with heq | hmem
        · exact hdots heq.symm
        · exact hstack hmem

theorem Spelled.parts_withoutDots (h : p.Spelled) : p.withoutDots.parts = p.place.reverse := by
  rw [withoutDots, h.isAbsolute]
  exact resolveDots_eq (fun hdot => (h.parts "." hdot).ne_dot rfl) [] List.not_mem_nil

theorem Spelled.withoutDots (h : p.Spelled) : p.withoutDots.Spelled := by
  refine ⟨h.root, fun part hpart => ?_⟩
  rw [h.parts_withoutDots, List.mem_reverse] at hpart
  exact (h.mem_place hpart).1

theorem Spelled.place_withoutDots (h : p.Spelled) : p.withoutDots.place = p.place := by
  rw [place, h.parts_withoutDots, FileSystem.descend_reverse h.plain_place]

end Path

namespace FileSystem

variable {fs : FileSystem} {p : Path}

/-- All of the way of a path consists of directories, its end included. -/
def Reaches (fs : FileSystem) (p : Path) : Prop :=
  Along fs.IsDirectoryAt [] p.parts

theorem Reaches.parent (h : fs.Reaches p) : fs.Reaches p.parent :=
  h.dropLast

theorem Reaches.isDirectoryAt (h : fs.Reaches p) : fs.IsDirectoryAt p.place :=
  h.last

/-- A way of directories ends at a solid location. -/
theorem Reaches.solid (h : fs.Reaches p) : fs.Solid p.place :=
  Solid.descend trivial h

theorem reaches_of_parent (h : fs.Reaches p.parent) (hdir : fs.IsDirectoryAt p.place) :
    fs.Reaches p := by
  rcases hparts : p.parts with _ | ⟨q, qs⟩
  · rw [Reaches, hparts]
    exact find?_nil fs
  · have hne : p.parts ≠ [] := by
      rw [hparts]
      exact List.cons_ne_nil q qs
    rw [Reaches, Path.parent] at h
    rw [IsDirectoryAt, Path.place, ← List.dropLast_append_getLast hne] at hdir
    rw [Reaches, ← List.dropLast_append_getLast hne]
    exact along_concat.mpr ⟨h, hdir⟩

/-- Directories are reached without double dots if they are reached with them. -/
theorem Reaches.withoutDots (h : fs.Reaches p) (hp : p.Spelled) : fs.Reaches p.withoutDots := by
  rw [Reaches, hp.parts_withoutDots]
  exact h.solid.along hp.plain_place

/-- A path leads somewhere if it can be looked up and there are directories all
    the way to its last component. -/
theorem locate_eq_ok_iff_of_linkFree (h : fs.LinkFree) (hp : p.Spelled) {follow : Bool}
    {found : Found} : fs.locate p.text follow = .ok found ↔
      p.Fits ∧ fs.Reaches p.parent ∧ found = ⟨p.place, fs.find? p.place⟩ := by
  have hne : p.text ≠ "" := by
    intro heq
    have hroot := hp.isRooted_text
    rw [heq] at hroot
    exact absurd hroot (by decide)
  rw [locate_eq_ok_iff, hp.isRooted_text, if_pos rfl, hp.components_text,
    walk_eq_ok_iff h (show fs.Solid [] from trivial)]
  constructor
  · intro hall
    exact ⟨⟨Path.nullFree_iff.mpr hall.1, hall.2.2.1, hall.2.2.2.1⟩, hall.2.2.2.2.1,
      hall.2.2.2.2.2⟩
  · intro hall
    exact ⟨Path.nullFree_iff.mp hall.1.nullFree, hne, hall.1.size, hall.1.parts, hall.2.1,
      hall.2.2⟩

/-- A path that can be looked up is walked. -/
theorem locate_eq_walk (hp : p.Spelled) (hfits : p.Fits) (follow : Bool) :
    fs.locate p.text follow = fs.walk follow 40 [] p.parts := by
  have hnull : ¬ p.text.toList.contains (Char.ofNat 0) = true := by
    rw [List.contains_iff_mem]
    exact Path.nullFree_iff.mp hfits.nullFree
  have hne : ¬ p.text.isEmpty = true := by
    rw [String.isEmpty_iff]
    intro heq
    have hroot := hp.isRooted_text
    rw [heq] at hroot
    exact absurd hroot (by decide)
  rw [locate, if_neg hnull, if_neg hne, if_neg (Nat.not_lt.mpr hfits.size), hp.isRooted_text,
    if_pos rfl, hp.components_text]

theorem status_eq_ok_iff_of_linkFree (h : fs.LinkFree) (hp : p.Spelled) {loc : Location}
    {e : Entry} : fs.status p = .ok (loc, e) ↔
      p.Fits ∧ fs.Reaches p.parent ∧ loc = p.place ∧ fs.find? p.place = some e := by
  rw [status_eq_ok_iff, locate_eq_ok_iff_of_linkFree h hp, Found.mk.injEq, @eq_comm _ (some e)]

/-- What the reading of a path comes to. -/
theorem read_eq_ok_iff_of_linkFree (h : fs.LinkFree) (hp : p.Spelled)
    {bytes : ByteArray} : fs.read p = .ok bytes ↔ p.Fits ∧ fs.Reaches p.parent ∧
      ∃ mode, fs.find? p.place = some (.file bytes mode) := by
  rw [read_eq_ok_iff]
  constructor
  · intro hread
    rcases hread with ⟨loc, mode, hstatus⟩
    rcases (status_eq_ok_iff_of_linkFree h hp).mp hstatus with ⟨hfits, hparent, _, hfind⟩
    exact ⟨hfits, hparent, mode, hfind⟩
  · intro hall
    rcases hall with ⟨hfits, hparent, mode, hfind⟩
    exact ⟨p.place, mode, (status_eq_ok_iff_of_linkFree h hp).mpr ⟨hfits, hparent, rfl, hfind⟩⟩

/-- Where a file is found, its path has its name. -/
theorem head?_place (h : fs.LinkFree) (hp : p.Spelled) (hfits : p.Fits)
    (hparent : fs.Reaches p.parent) (hdir : ¬ fs.IsDirectoryAt p.place) :
    p.place.head? = some p.name := by
  have hfound : fs.locate p.text false = .ok ⟨p.place, fs.find? p.place⟩ :=
    (locate_eq_ok_iff_of_linkFree h hp).mpr ⟨hfits, hparent, rfl⟩
  exact head?_of_locate hp hfound hdir

/-- A test of a path that can be looked up has an answer. -/
theorem test_eq_ok (h : fs.LinkFree) (hp : p.Spelled) (hfits : p.Fits) (ok : Entry → Bool) :
    ∃ b, fs.test p ok = .ok b ∧ (b = true ↔ fs.Reaches p.parent ∧
      ∃ e, fs.find? p.place = some e ∧ ok e = true) := by
  rw [test]
  rcases hstatus : fs.status p with f | ⟨loc, e⟩
  -- Components fit, so a walk fails for something that is absent.
  · have hcause : f.cause ≠ .nameTooLong := by
      intro hcause
      rw [status] at hstatus
      rcases hfound : fs.locate p.text true with c | ⟨loc, entry⟩
      · simp only [hfound, Except.error.injEq] at hstatus
        rw [← hstatus] at hcause
        simp only at hcause
        rw [hcause, locate_eq_walk hp hfits] at hfound
        exact walk_ne_nameTooLong h hfits.parts hfound
      · cases entry with
        | some e => simp only [hfound, reduceCtorEq] at hstatus
        | none =>
            simp only [hfound, Except.error.injEq] at hstatus
            rw [← hstatus] at hcause
            simp only [reduceCtorEq] at hcause
    refine ⟨false, ?_, ?_⟩
    · simp only [Cause.isAbsence, bne_iff_ne.mpr hcause, if_true]
    · simp only [Bool.false_eq_true, false_iff, not_and, not_exists]
      intro hreach e hfind _
      have hok := (status_eq_ok_iff_of_linkFree h hp).mpr ⟨hfits, hreach, rfl, hfind⟩
      rw [hstatus] at hok
      exact absurd hok (by simp only [reduceCtorEq, not_false_eq_true])
  · rcases (status_eq_ok_iff_of_linkFree h hp).mp hstatus with ⟨_, hreach, _, hfind⟩
    refine ⟨ok e, rfl, fun hok => ⟨hreach, e, hfind, hok⟩, fun hall => ?_⟩
    rcases hall with ⟨_, e', hfind', hok⟩
    rw [hfind, Option.some.injEq] at hfind'
    rwa [hfind']

end FileSystem

end Stencil
