import Stencil.FileSystem.Change

/-!
# Walks That Last

When a walk leads to the same place after files have changed.

A walk passes through directories and links only: a file on the way ends it,
and so does a missing entry. So a change that leaves directories and links
where they are leaves every walk that succeeds where it leads, and all it can
change is what stands at the end. `KeepsWays` is that relation between file
systems. Filling a file, setting its bits, creating one and deleting one are
all of this kind. Putting a file in place of a link is not, which is why a
rename needs a statement of its own.

## Main definitions

* `FileSystem.IsFileAt`: A regular file stands at a location.
* `FileSystem.KeepsWays`: Directories and links stay where they are.
* `FileSystem.Leads`: Where components lead, step by step.

## Theorems

* `FileSystem.leads_of_walk`, `FileSystem.walk_of_leads`: A walk is where its
  components lead.
* `FileSystem.walk_of_keepsWays`: A walk that succeeds leads to the same place.
* `FileSystem.isDirectory_eq_ok_true_iff`: What a test for a directory finds.
* `FileSystem.locate_of_keepsWays`: A path that is found is found there again.
* `FileSystem.keepsWays_put`, `FileSystem.keepsWays_delete`: Changing a file, or
  a missing entry, keeps ways.
-/

namespace Stencil

namespace FileSystem

/-- A regular file stands at a location. -/
def IsFileAt (fs : FileSystem) (loc : Location) : Prop :=
  ∃ data mode, fs.find? loc = some (.file data mode)

/-- Directories and links stay where they are. -/
structure KeepsWays (fs fs' : FileSystem) : Prop where
  /-- The working directory is the same. -/
  here : fs'.here = fs.here
  /-- Directories stay. -/
  directory : ∀ loc, fs.find? loc = some .directory → fs'.find? loc = some .directory
  /-- Links stay, and what they hold. -/
  link : ∀ loc target, fs.find? loc = some (.link target) → fs'.find? loc = some (.link target)

theorem KeepsWays.refl (fs : FileSystem) : KeepsWays fs fs :=
  ⟨rfl, fun _ h => h, fun _ _ h => h⟩

theorem KeepsWays.trans {fs fs' fs'' : FileSystem} (h : KeepsWays fs fs')
    (h' : KeepsWays fs' fs'') : KeepsWays fs fs'' :=
  ⟨h'.here.trans h.here, fun loc hd => h'.directory loc (h.directory loc hd),
    fun loc target hl => h'.link loc target (h.link loc target hl)⟩

theorem find?_nil (fs : FileSystem) : fs.find? [] = some .directory := rfl

/-- Where there is a file or nothing, an entry can be put. -/
theorem keepsWays_put {fs : FileSystem} {loc : Location} (hd : fs.find? loc ≠ some .directory)
    (hl : ∀ target, fs.find? loc ≠ some (.link target)) (e : Entry) :
    KeepsWays fs (fs.put loc e) := by
  refine ⟨rfl, fun l h => ?_, fun l target h => ?_⟩
  · have hne : l ≠ loc := fun heq => hd (heq ▸ h)
    rwa [find?_put_of_ne fs hne]
  · have hne : l ≠ loc := fun heq => hl target (heq ▸ h)
    rwa [find?_put_of_ne fs hne]

/-- A name, rather than one of the two components that stand for directories. -/
def IsPlain (p : String) : Prop :=
  p ≠ "." ∧ p ≠ ".." ∧ p.utf8ByteSize ≤ 255

/-- Where a walk leads, step by step. -/
inductive Leads (fs : FileSystem) (follow : Bool) : Nat → Location → List String → Location → Prop
  where
  /-- Nowhere further. -/
  | done {links : Nat} {dir : Location} : Leads fs follow links dir [] dir
  /-- On from the same directory. -/
  | dot {links : Nat} {dir loc : Location} {ps : List String}
    (rest : Leads fs follow links dir ps loc) : Leads fs follow links dir ("." :: ps) loc
  /-- On from the directory above. -/
  | up {links : Nat} {dir loc : Location} {ps : List String}
    (rest : Leads fs follow links dir.tail ps loc) : Leads fs follow links dir (".." :: ps) loc
  /-- On from a directory that is entered. -/
  | enter {links : Nat} {dir loc : Location} {p : String} {ps : List String} (hp : IsPlain p)
    (hentry : fs.find? (p :: dir) = some .directory)
    (rest : Leads fs follow links (p :: dir) ps loc) : Leads fs follow links dir (p :: ps) loc
  /-- To something that is no directory, at the end. -/
  | last {links : Nat} {dir : Location} {p : String} (hp : IsPlain p)
    (hdir : fs.find? (p :: dir) ≠ some .directory)
    (hlink : follow = true → ∀ target, fs.find? (p :: dir) ≠ some (.link target)) :
    Leads fs follow links dir [p] (p :: dir)
  /-- On along a link. -/
  | along {links : Nat} {dir loc : Location} {p target : String} {ps : List String}
    (hp : IsPlain p) (hentry : fs.find? (p :: dir) = some (.link target))
    (hgo : ps ≠ [] ∨ follow = true)
    (rest : Leads fs follow links (if isRooted target then [] else dir)
      (components target ++ ps) loc) : Leads fs follow (links + 1) dir (p :: ps) loc

/-- A walk that succeeds says where it leads and what stands there. -/
theorem leads_of_walk {fs : FileSystem} {follow : Bool} {links : Nat} {dir : Location}
    {parts : List String} {found : Found} (h : fs.walk follow links dir parts = .ok found) :
    Leads fs follow links dir parts found.location ∧ found.entry = fs.find? found.location := by
  fun_induction FileSystem.walk fs follow links dir parts with
  | case1 links dir =>
      rw [← Except.ok.inj h]
      exact ⟨Leads.done, rfl⟩
  | case2 links dir p ps hp ih =>
      rw [eq_of_beq hp]
      exact ⟨Leads.dot (ih h).1, (ih h).2⟩
  | case3 links dir p ps _ hp ih =>
      rw [eq_of_beq hp]
      exact ⟨Leads.up (ih h).1, (ih h).2⟩
  | case4 links dir p ps _ _ _ => exact absurd h (by simp only [reduceCtorEq, not_false_eq_true])
  | case5 links dir p ps hdot hdots hsize loc hfind hps =>
      rw [List.isEmpty_iff] at hps
      rw [← Except.ok.inj h, hps]
      simp only [beq_iff_eq, Nat.not_lt] at hdot hdots hsize
      refine ⟨Leads.last ⟨hdot, hdots, hsize⟩ ?_ (fun _ target => ?_), hfind.symm⟩
      · rw [hfind]
        exact (Option.some_ne_none _).symm
      · rw [hfind]
        exact (Option.some_ne_none _).symm
  | case6 links dir p ps _ _ _ loc hfind hps =>
      exact absurd h (by simp only [reduceCtorEq, not_false_eq_true])
  | case7 links dir p ps hdot hdots hsize loc hfind ih =>
      simp only [beq_iff_eq, Nat.not_lt] at hdot hdots hsize
      exact ⟨Leads.enter ⟨hdot, hdots, hsize⟩ hfind (ih h).1, (ih h).2⟩
  | case8 links dir p ps hdot hdots hsize loc data mode hfind hps =>
      rw [List.isEmpty_iff] at hps
      rw [← Except.ok.inj h, hps]
      simp only [beq_iff_eq, Nat.not_lt] at hdot hdots hsize
      refine ⟨Leads.last ⟨hdot, hdots, hsize⟩ ?_ (fun _ target => ?_), hfind.symm⟩
      · rw [hfind]
        simp only [ne_eq, Option.some.injEq, reduceCtorEq, not_false_eq_true]
      · rw [hfind]
        simp only [ne_eq, Option.some.injEq, reduceCtorEq, not_false_eq_true]
  | case9 links dir p ps _ _ _ loc data mode hfind hps =>
      exact absurd h (by simp only [reduceCtorEq, not_false_eq_true])
  | case10 links dir p ps hdot hdots hsize loc target hfind hps =>
      simp only [Bool.and_eq_true, List.isEmpty_iff, Bool.not_eq_true'] at hps
      rw [← Except.ok.inj h, hps.1]
      simp only [beq_iff_eq, Nat.not_lt] at hdot hdots hsize
      refine ⟨Leads.last ⟨hdot, hdots, hsize⟩ ?_ (fun hfollow => ?_), hfind.symm⟩
      · rw [hfind]
        simp only [ne_eq, Option.some.injEq, reduceCtorEq, not_false_eq_true]
      · rw [hps.2] at hfollow
        exact absurd hfollow Bool.false_ne_true
  | case11 dir p ps _ _ _ loc target hfind hps =>
      exact absurd h (by simp only [reduceCtorEq, not_false_eq_true])
  | case12 dir p ps hdot hdots hsize loc target hfind hps n ih =>
      simp only [beq_iff_eq, Nat.not_lt] at hdot hdots hsize
      simp only [Bool.and_eq_true, List.isEmpty_iff, Bool.not_eq_true', not_and,
        Bool.not_eq_false] at hps
      have hgo : ps ≠ [] ∨ follow = true := by
        by_cases hnil : ps = []
        · exact Or.inr (hps hnil)
        · exact Or.inl hnil
      exact ⟨Leads.along ⟨hdot, hdots, hsize⟩ hfind hgo (ih h).1, (ih h).2⟩

/-- A walk of components of which the first is a name looks at what has it. -/
theorem walk_name {fs : FileSystem} {p : String} (hp : IsPlain p) (follow : Bool) (links : Nat)
    (dir : Location) (ps : List String) :
    fs.walk follow links dir (p :: ps) =
      match fs.find? (p :: dir) with
      | none => if ps.isEmpty then .ok ⟨p :: dir, none⟩ else .error .noEntry
      | some .directory => fs.walk follow links (p :: dir) ps
      | some (.file data mode) =>
        if ps.isEmpty then .ok ⟨p :: dir, some (.file data mode)⟩ else .error .notDirectory
      | some (.link target) =>
        if ps.isEmpty && !follow then .ok ⟨p :: dir, some (.link target)⟩
        else
          match links with
          | 0 => .error .tooManyLinks
          | n + 1 =>
            fs.walk follow n (if isRooted target then [] else dir) (components target ++ ps) := by
  rcases hp with ⟨hdot, hdots, hsize⟩
  have hdot' : ¬ (p == ".") = true := fun h => hdot (eq_of_beq h)
  have hdots' : ¬ (p == "..") = true := fun h => hdots (eq_of_beq h)
  have hsize' : ¬ p.utf8ByteSize > 255 := Nat.not_lt.mpr hsize
  rcases hfind : fs.find? (p :: dir) with _ | e
  · simp only [walk, hdot', hdots', hsize', hfind, Bool.false_eq_true, if_false]
  · cases e with
    | directory => simp only [walk, hdot', hdots', hsize', hfind, Bool.false_eq_true, if_false]
    | file data mode => simp only [walk, hdot', hdots', hsize', hfind, Bool.false_eq_true, if_false]
    | link target =>
        cases links with
        | zero => simp only [walk, hdot', hdots', hsize', hfind, Bool.false_eq_true, if_false]
        | succ n => simp only [walk, hdot', hdots', hsize', hfind, Bool.false_eq_true, if_false]

theorem walk_of_leads {fs : FileSystem} {follow : Bool} {links : Nat} {dir loc : Location}
    {parts : List String} (h : Leads fs follow links dir parts loc) :
    fs.walk follow links dir parts = .ok ⟨loc, fs.find? loc⟩ := by
  induction h with
  | done => rw [walk]
  | dot rest ih => rw [walk, if_pos (beq_self_eq_true _), ih]
  | up rest ih => rw [walk, if_neg (by decide), if_pos (beq_self_eq_true _), ih]
  | enter hp hentry rest ih => rw [walk_name hp, hentry]; exact ih
  | @last links dir p hp hdir hlink =>
      rw [walk_name hp]
      cases hfind : fs.find? (p :: dir) with
      | none => rfl
      | some e =>
          cases e with
          | directory => exact absurd hfind hdir
          | file data mode => rfl
          | link target =>
              cases hfollow : follow with
              | true => exact absurd hfind (hlink hfollow target)
              | false => rfl
  | @along links dir loc p target ps hp hentry hgo rest ih =>
      have hstop : ¬ (ps.isEmpty && !follow) = true := by
        simp only [Bool.and_eq_true, List.isEmpty_iff, Bool.not_eq_true', not_and,
          Bool.not_eq_false]
        intro hnil
        exact hgo.resolve_left (fun hne => hne hnil)
      rw [walk_name hp, hentry]
      simp only [if_neg hstop]
      exact ih

/-- A walk that follows no link at its end leads to the same place wherever
    ways are kept, and so does one that does, if it ends at none. -/
theorem Leads.of_keepsWays {fs fs' : FileSystem} (hkeeps : KeepsWays fs fs') {links : Nat}
    {dir loc : Location} {parts : List String} (h : Leads fs false links dir parts loc)
    {follow : Bool} (hend : follow = true → ∀ target, fs'.find? loc ≠ some (.link target)) :
    Leads fs' follow links dir parts loc := by
  induction h with
  | done => exact Leads.done
  | dot rest ih => exact Leads.dot (ih hend)
  | up rest ih => exact Leads.up (ih hend)
  | enter hp hentry rest ih => exact Leads.enter hp (hkeeps.directory _ hentry) (ih hend)
  | @last links dir p hp hdir hlink =>
      -- There may be a directory now; the walk enters it and ends there.
      by_cases hnow : fs'.find? (p :: dir) = some .directory
      · exact Leads.enter hp hnow Leads.done
      · exact Leads.last hp hnow hend
  | along hp hentry hgo rest ih =>
      refine Leads.along hp (hkeeps.link _ _ hentry) (Or.inl ?_) (ih hend)
      exact hgo.resolve_right Bool.false_ne_true

theorem walk_of_keepsWays {fs fs' : FileSystem} (hkeeps : KeepsWays fs fs') {links : Nat}
    {dir : Location} {parts : List String} {found : Found}
    (h : fs.walk false links dir parts = .ok found) {follow : Bool}
    (hend : follow = true → ∀ target, fs'.find? found.location ≠ some (.link target)) :
    fs'.walk follow links dir parts = .ok ⟨found.location, fs'.find? found.location⟩ :=
  walk_of_leads ((leads_of_walk h).1.of_keepsWays hkeeps hend)

/-- A path that can be located has no null character, and it is found by a
    walk. -/
theorem locate_eq_ok_iff {fs : FileSystem} {s : String} {follow : Bool} {found : Found} :
    fs.locate s follow = .ok found ↔ Char.ofNat 0 ∉ s.toList ∧ s ≠ "" ∧ s.utf8ByteSize ≤ 4095 ∧
      fs.walk follow 40 (if isRooted s then [] else fs.here) (components s) = .ok found := by
  rw [locate]
  by_cases hnull : s.toList.contains (Char.ofNat 0) = true
  · rw [if_pos hnull]
    rw [List.contains_iff_mem] at hnull
    simp only [reduceCtorEq, hnull, not_true_eq_false, false_and]
  · rw [if_neg hnull]
    rw [List.contains_iff_mem] at hnull
    by_cases hempty : s.isEmpty = true
    · rw [if_pos hempty]
      rw [String.isEmpty_iff] at hempty
      simp only [reduceCtorEq, hempty, ne_eq, not_true_eq_false, false_and, and_false]
    · rw [if_neg hempty]
      rw [String.isEmpty_iff] at hempty
      by_cases hsize : s.utf8ByteSize > 4095
      · rw [if_pos hsize]
        simp only [reduceCtorEq, Nat.not_le.mpr hsize, false_and, and_false]
      · rw [if_neg hsize]
        simp only [hnull, not_false_eq_true, ne_eq, hempty, Nat.not_lt.mp hsize, true_and]

/-- What is located stands there. -/
theorem entry_of_locate {fs : FileSystem} {s : String} {follow : Bool} {found : Found}
    (h : fs.locate s follow = .ok found) : found.entry = fs.find? found.location :=
  (leads_of_walk (locate_eq_ok_iff.mp h).2.2.2).2

/-- The status of a path is what stands where it leads. -/
theorem status_eq_ok_iff {fs : FileSystem} {p : Path} {loc : Location} {e : Entry} :
    fs.status p = .ok (loc, e) ↔ fs.locate p.text true = .ok ⟨loc, some e⟩ := by
  rw [status]
  rcases fs.locate p.text true with c | ⟨loc', entry⟩
  · simp only [reduceCtorEq]
  · cases entry with
    | none => simp only [reduceCtorEq, Except.ok.injEq, Found.mk.injEq, and_false]
    | some e' => simp only [Except.ok.injEq, Prod.mk.injEq, Found.mk.injEq, Option.some.injEq]

/-- A test succeeds for a path that denotes an entry which passes it. -/
theorem test_eq_ok_true_iff {fs : FileSystem} {p : Path} {ok : Entry → Bool} :
    fs.test p ok = .ok true ↔ ∃ loc e, fs.status p = .ok (loc, e) ∧ ok e = true := by
  rw [test]
  rcases fs.status p with f | ⟨loc, e⟩
  · simp only [reduceCtorEq, false_and, exists_false, iff_false]
    by_cases habsent : Cause.isAbsence f.cause = true
    · simp only [habsent, if_true, Except.ok.injEq, Bool.false_eq_true, not_false_eq_true]
    · simp only [habsent, Bool.false_eq_true, if_false, reduceCtorEq, not_false_eq_true]
  · simp only [Except.ok.injEq, Prod.mk.injEq]
    constructor
    · exact fun hok => ⟨loc, e, ⟨rfl, rfl⟩, hok⟩
    · rintro ⟨_, _, ⟨rfl, rfl⟩, hok⟩
      exact hok

/-- A directory is what a path denotes. -/
theorem isDirectory_eq_ok_true_iff {fs : FileSystem} {p : Path} :
    fs.isDirectory p = .ok true ↔ ∃ loc, fs.status p = .ok (loc, .directory) := by
  rw [isDirectory, test_eq_ok_true_iff]
  constructor
  · rintro ⟨loc, e, hstatus, he⟩
    cases e with
    | directory => exact ⟨loc, hstatus⟩
    | file data mode => exact absurd he Bool.false_ne_true
    | link target => exact absurd he Bool.false_ne_true
  · rintro ⟨loc, hstatus⟩
    exact ⟨loc, .directory, hstatus, rfl⟩

/-- What is read is the content of the file that a path leads to. -/
theorem read_eq_ok_iff {fs : FileSystem} {p : Path} {data : ByteArray} :
    fs.read p = .ok data ↔ ∃ loc mode, fs.status p = .ok (loc, .file data mode) := by
  rw [read]
  rcases fs.status p with f | ⟨loc, e⟩
  · simp only [reduceCtorEq, exists_false]
  · cases e with
    | directory => simp only [reduceCtorEq, Except.ok.injEq, Prod.mk.injEq, and_false, exists_false]
    | link target =>
        simp only [reduceCtorEq, Except.ok.injEq, Prod.mk.injEq, and_false, exists_false]
    | file data' mode =>
        simp only [Except.ok.injEq, Prod.mk.injEq, Entry.file.injEq, exists_and_left,
          exists_eq', and_true, exists_eq_left']

/-- A path that is located is located there again wherever ways are kept. -/
theorem locate_of_keepsWays {fs fs' : FileSystem} (hkeeps : KeepsWays fs fs') {s : String}
    {found : Found} (h : fs.locate s false = .ok found) (follow : Bool)
    (hend : follow = true → ∀ target, fs'.find? found.location ≠ some (.link target)) :
    fs'.locate s follow = .ok ⟨found.location, fs'.find? found.location⟩ := by
  rcases locate_eq_ok_iff.mp h with ⟨hnull, hempty, hsize, hwalk⟩
  refine locate_eq_ok_iff.mpr ⟨hnull, hempty, hsize, ?_⟩
  rw [hkeeps.here]
  exact walk_of_keepsWays hkeeps hwalk hend

/-- A walk fails for what stands on the way or for its length. -/
theorem walk_ne_error {fs : FileSystem} {c : Cause} (hexists : c = .nullCharacter ∨ c = .exists)
    (follow : Bool) (links : Nat) (dir : Location) (parts : List String) :
    fs.walk follow links dir parts ≠ .error c := by
  rcases hexists with rfl | rfl <;> fun_induction FileSystem.walk fs follow links dir parts <;>
    simp_all only [ne_eq, reduceCtorEq, not_false_eq_true, Except.error.injEq, dite_eq_ite]

/-- Only the null character of a path is reported as such, and an entry that is
    there is not reported at all. -/
theorem locate_ne_error {fs : FileSystem} {c : Cause} (hexists : c = .nullCharacter ∨ c = .exists)
    {s : String} (h : Char.ofNat 0 ∉ s.toList ∨ c ≠ .nullCharacter) (follow : Bool) :
    fs.locate s follow ≠ .error c := by
  rw [locate]
  by_cases hnull : s.toList.contains (Char.ofNat 0) = true
  · rw [if_pos hnull, ne_eq, Except.error.injEq]
    rw [List.contains_iff_mem] at hnull
    exact fun heq => h.elim (fun hmem => hmem hnull) (fun hne => hne heq.symm)
  · rw [if_neg hnull]
    by_cases hempty : s.isEmpty = true
    · rw [if_pos hempty]
      rcases hexists with rfl | rfl <;>
        simp only [ne_eq, Except.error.injEq, reduceCtorEq, not_false_eq_true]
    · rw [if_neg hempty]
      by_cases hsize : s.utf8ByteSize > 4095
      · rw [if_pos hsize]
        rcases hexists with rfl | rfl <;>
          simp only [ne_eq, Except.error.injEq, reduceCtorEq, not_false_eq_true]
      · rw [if_neg hsize]
        exact walk_ne_error hexists _ _ _ _

theorem locate_ne_nullCharacter {fs : FileSystem} {s : String} (h : Char.ofNat 0 ∉ s.toList)
    (follow : Bool) : fs.locate s follow ≠ .error .nullCharacter :=
  locate_ne_error (Or.inl rfl) (Or.inl h) follow

theorem locate_ne_exists (fs : FileSystem) (s : String) (follow : Bool) :
    fs.locate s follow ≠ .error .exists :=
  locate_ne_error (Or.inr rfl) (Or.inr (by decide)) follow

/-- The root of the file system is a directory. -/
theorem status_root (fs : FileSystem) : fs.status ⟨"/", []⟩ = .ok ([], .directory) := by
  have htext : Path.text ⟨"/", []⟩ = "/" := by decide
  have hparts : components "/" = [] := by decide
  refine status_eq_ok_iff.mpr (locate_eq_ok_iff.mpr ⟨by decide, by decide, by decide, ?_⟩)
  rw [htext, hparts]
  exact walk_of_leads Leads.done

/-- The path of the root has no links. -/
theorem canonical?_root (fs : FileSystem) : fs.canonical? ⟨"/", []⟩ = some ⟨"/", []⟩ := by
  have htext : Path.text ⟨"/", []⟩ = "/" := by decide
  have hparts : components "/" = [] := by decide
  simp only [canonical?, htext, hparts, canonicalFrom, if_true]
  rfl

end FileSystem

end Stencil
