import Stencil.Proofs.FileSystem.Tree
import Stencil.Proofs.Output.Attempt
import Stencil.Proofs.Output.Later

/-!
# The Writer as a Store

Files under paths are a store: what is found there is what was last written.

Paths without double dots name places of a tree, and if nothing is a link a
write concerns the one place that its path names. What stands there decides how
the write is reported: if nothing does it creates the file, if a file has the
bytes already it leaves it alone, and otherwise it updates the file and keeps
its permission bits. If a write fails no file changes. This is said of one write
by `Stores`, and every write keeps the tree a tree, so it goes on to hold.

Calls of the writer come one after another, each for one output or for several.
What a file holds after them is what the last write to its place stored that did
not fail, or else what it held to begin with.

## Main definitions

* `FileSystem.content?`: What a file holds.
* `FileSystem.Stores`: What one write does, and what it reports.
* `WriterCall`: A call of the writer.
* `WriterCall.Answers`: What a call does, and what it reports.
* `FileSystem.storedBy`: What calls have stored.

## Theorems

* `FileSystem.stores_write`: A write stores an output.
* `FileSystem.IsTree.write`: It keeps the tree a tree.
* `FileSystem.content?_written`: What a file holds after some writes.
* `FileSystem.writer_stores`: What calls of the writer do.
-/

namespace Stencil

namespace FileSystem

/-- What a file at a location holds. -/
def content? (fs : FileSystem) (loc : Location) : Option ByteArray :=
  match fs.find? loc with
  | some (.file data _) => some data
  | _ => none

/-- What a write of an output does and reports, given the files before and
    after. -/
structure Stores (fs : FileSystem) (header : String) (output : Path × String)
    (fs' : FileSystem) (outcome : Except Fault WriteStatus) : Prop where
  /-- It concerns no file but that of the output. -/
  others : ∀ loc, loc ≠ output.1.place → ∀ data mode,
    fs'.find? loc = some (.file data mode) ↔ fs.find? loc = some (.file data mode)
  /-- If it fails no file changes. -/
  error : ∀ f, outcome = .error f → ∀ loc data mode,
    fs'.find? loc = some (.file data mode) ↔ fs.find? loc = some (.file data mode)
  /-- The file is created if nothing stood there. -/
  created_iff : ∀ status, outcome = .ok status →
    (status = .created ↔ fs.find? output.1.place = none)
  /-- It is unchanged if it had its bytes. -/
  unchanged_iff : ∀ status, outcome = .ok status →
    (status = .unchanged ↔
      ∃ mode, fs.find? output.1.place = some (.file (outputBytes header output.2) mode))
  /-- Then nothing changes. -/
  unchanged : outcome = .ok .unchanged → fs' = fs
  /-- A new file has the bits of new files. -/
  created : outcome = .ok .created →
    fs'.find? output.1.place = some (.file (outputBytes header output.2) newFileMode)
  /-- A file that is updated keeps its permission bits. -/
  updated : outcome = .ok .updated → ∃ data mode,
    fs.find? output.1.place = some (.file data mode) ∧
      fs'.find? output.1.place =
        some (.file (outputBytes header output.2) (permissionBits mode))

section Write

variable {fs made done : FileSystem} {p : Path} {data : ByteArray}

/-- The bits of the new file. -/
theorem find?_of_replaceIn (h : fs.LinkFree) (hp : p.Spelled)
    (heq : fs.replaceIn p data = (done, .ok ())) {mode : Nat} (hmode : fs.modeFor p = .ok mode) :
    done.find? p.place = some (.file data mode) := by
  rcases of_replaceIn h hp heq with ⟨_, _, _, ⟨made, fresh⟩, hmade⟩
  rcases createFree_eq_ok _ _ hmade with ⟨src, hfree, rfl⟩
  unfold replaceIn at heq
  rw [hmode] at heq
  simp only [hmade, settle_eq_rename hfree] at heq
  rcases hrename : (fs.put src (.file data mode)).rename fresh p with f | fs'
  · rw [hrename, Prod.mk.injEq] at heq
    exact absurd heq.2 (by simp only [reduceCtorEq, not_false_eq_true])
  · rw [hrename, Prod.mk.injEq] at heq
    obtain rfl : fs' = done := heq.1
    rcases hfree.rename_cases hrename with ⟨found, hfound, hnot, hcase⟩
    rw [((locate_eq_ok_iff_of_linkFree h hp).mp hfound).2.2] at hnot hcase
    have hroot : p.place ≠ [] := by
      intro hnil
      rw [hnil] at hnot
      exact hnot (find?_nil fs)
    -- The bits of the old file were read before the new one was made.
    rcases hcase with ⟨hsrc, rfl⟩ | ⟨_, rfl⟩
    · rw [hsrc]
      exact find?_put_self fs hroot _
    · exact find?_put_self _ hroot _

/-- The bits that a path has or will have. -/
theorem modeFor_eq (h : fs.LinkFree) (hp : p.Spelled) (hfits : p.Fits)
    (hparent : fs.Reaches p.parent) :
    (fs.find? p.place = none → fs.modeFor p = .ok newFileMode) ∧
      ∀ data mode, fs.find? p.place = some (.file data mode) →
        fs.modeFor p = .ok (permissionBits mode) := by
  rcases test_eq_ok h hp hfits (fun _ => true) with ⟨b, htest, hb⟩
  unfold modeFor
  rw [exists?, htest]
  constructor
  · intro hnone
    have hfalse : b = false := by
      rw [Bool.eq_false_iff]
      intro htrue
      rcases hb.mp htrue with ⟨_, e, hfind, _⟩
      rw [hnone] at hfind
      exact absurd hfind (Option.some_ne_none e).symm
    simp only [hfalse]
  · intro data mode hfind
    have htrue : b = true := hb.mpr ⟨hparent, _, hfind, rfl⟩
    have hstatus := (status_eq_ok_iff_of_linkFree h hp).mpr ⟨hfits, hparent, rfl, hfind⟩
    simp only [htrue, hstatus, bitsOf]

/-- What replacing a file comes to: the directories above it are made, and then
    the file is put into its place. -/
theorem places_of_replace (h : fs.LinkFree) (hp : p.Spelled)
    (heq : fs.replace p data = (done, .ok ())) :
    Grows fs (fs.makeDirectories p.parent).1 ∧ (fs.makeDirectories p.parent).1.Reaches p.parent ∧
      (fs.makeDirectories p.parent).1.find? p.place = fs.find? p.place ∧
      Places (fs.makeDirectories p.parent).1 done p.place data := by
  rcases of_replace heq with ⟨made, hmade, hin⟩
  have hgrows := grows_makeDirectories fs p.parent
  rw [hmade] at hgrows ⊢
  have hlinks := hgrows.linkFree h
  rcases of_replaceIn hlinks hp hin with ⟨_, hparent, hdir, _⟩
  rcases places_of_replaceIn hin with ⟨found, hfound, hplaces⟩
  rw [((locate_eq_ok_iff_of_linkFree hlinks hp).mp hfound).2.2] at hplaces
  refine ⟨hgrows, hparent, ?_, hplaces⟩
  rcases hgrows.find? p.place with hsame | hnew
  · exact hsame
  · exact absurd hnew.2 hdir

/-- The bits of a file that was replaced. -/
theorem find?_of_replace (h : fs.LinkFree) (hp : p.Spelled)
    (heq : fs.replace p data = (done, .ok ())) :
    (fs.find? p.place = none → done.find? p.place = some (.file data newFileMode)) ∧
      ∀ old mode, fs.find? p.place = some (.file old mode) →
        done.find? p.place = some (.file data (permissionBits mode)) := by
  rcases places_of_replace h hp heq with ⟨hgrows, hparent, hsame, _⟩
  rcases of_replace heq with ⟨made, hmade, hin⟩
  rw [hmade] at hgrows hparent hsame
  have hlinks := hgrows.linkFree h
  have hbits := modeFor_eq hlinks hp (of_replaceIn hlinks hp hin).1 hparent
  rw [hsame] at hbits
  exact ⟨fun hnone => find?_of_replaceIn hlinks hp hin (hbits.1 hnone),
    fun old mode hfind => find?_of_replaceIn hlinks hp hin (hbits.2 old mode hfind)⟩

end Write

section Stores

variable {fs fs' : FileSystem} {header : String} {output : Path × String}

/-- A write that fails may leave directories. -/
theorem Stores.of_grows (h : Grows fs fs') (header : String) (output : Path × String) (f : Fault) :
    Stores fs header output fs' (.error f) := by
  refine ⟨fun loc _ => h.find?_eq_file_iff loc, fun _ _ => h.find?_eq_file_iff, ?_, ?_, ?_, ?_, ?_⟩
  all_goals
    intros
    contradiction

/-- A file that has its bytes is left alone. -/
theorem Stores.of_held {mode : Nat}
    (hfind : fs.find? output.1.place = some (.file (outputBytes header output.2) mode)) :
    Stores fs header output fs (.ok .unchanged) := by
  refine ⟨fun _ _ _ _ => Iff.rfl, fun _ _ _ _ _ => Iff.rfl, fun status hstatus => ?_,
    fun status hstatus => ?_, fun _ => rfl, fun hstatus => ?_, fun hstatus => ?_⟩
  · obtain rfl := Except.ok.inj hstatus
    rw [hfind]
    exact ⟨fun h => WriteStatus.noConfusion h, fun h => absurd h (Option.some_ne_none _)⟩
  · obtain rfl := Except.ok.inj hstatus
    exact ⟨fun _ => ⟨mode, hfind⟩, fun _ => rfl⟩
  · exact WriteStatus.noConfusion (Except.ok.inj hstatus)
  · exact WriteStatus.noConfusion (Except.ok.inj hstatus)

/-- A file that is put into its place concerns no other file. -/
theorem others_of_replace (h : fs.LinkFree) {p : Path} (hp : p.Spelled) {data : ByteArray}
    (heq : fs.replace p data = (fs', .ok ())) {loc : Location} (hloc : loc ≠ p.place)
    (data' : ByteArray) (mode : Nat) :
    fs'.find? loc = some (.file data' mode) ↔ fs.find? loc = some (.file data' mode) := by
  rcases places_of_replace h hp heq with ⟨hgrows, _, _, hplaces⟩
  rw [hplaces.others loc hloc]
  exact hgrows.find?_eq_file_iff loc data' mode

/-- Where nothing stood a file is created. -/
theorem Stores.of_created (h : fs.LinkFree) (hp : output.1.Spelled)
    (hnone : fs.find? output.1.place = none)
    (heq : fs.replace output.1 (outputBytes header output.2) = (fs', .ok ())) :
    Stores fs header output fs' (.ok .created) := by
  refine ⟨fun _ => others_of_replace h hp heq, fun f hf => ?_, fun status hstatus => ?_,
    fun status hstatus => ?_, fun hstatus => ?_, fun _ => (find?_of_replace h hp heq).1 hnone,
    fun hstatus => ?_⟩
  · exact absurd hf (by simp only [reduceCtorEq, not_false_eq_true])
  · obtain rfl := Except.ok.inj hstatus
    exact ⟨fun _ => hnone, fun _ => rfl⟩
  · obtain rfl := Except.ok.inj hstatus
    rw [hnone]
    exact ⟨fun hne => WriteStatus.noConfusion hne,
      fun hheld => absurd hheld.choose_spec (Option.some_ne_none _).symm⟩
  · exact WriteStatus.noConfusion (Except.ok.inj hstatus)
  · exact WriteStatus.noConfusion (Except.ok.inj hstatus)

/-- Where a file has other bytes it is updated. -/
theorem Stores.of_updated (h : fs.LinkFree) (hp : output.1.Spelled) {data : ByteArray}
    {mode : Nat} (hfind : fs.find? output.1.place = some (.file data mode))
    (hne : data ≠ outputBytes header output.2)
    (heq : fs.replace output.1 (outputBytes header output.2) = (fs', .ok ())) :
    Stores fs header output fs' (.ok .updated) := by
  refine ⟨fun _ => others_of_replace h hp heq, fun f hf => ?_, fun status hstatus => ?_,
    fun status hstatus => ?_, fun hstatus => ?_, fun hstatus => ?_,
    fun _ => ⟨data, mode, hfind, (find?_of_replace h hp heq).2 data mode hfind⟩⟩
  · exact absurd hf (by simp only [reduceCtorEq, not_false_eq_true])
  · obtain rfl := Except.ok.inj hstatus
    rw [hfind]
    exact ⟨fun h => WriteStatus.noConfusion h, fun h => absurd h (Option.some_ne_none _)⟩
  · obtain rfl := Except.ok.inj hstatus
    rw [hfind]
    refine ⟨fun h => WriteStatus.noConfusion h, fun hheld => ?_⟩
    rcases hheld with ⟨mode', hheld⟩
    rw [Option.some.injEq, Entry.file.injEq] at hheld
    exact absurd hheld.1 hne
  · exact WriteStatus.noConfusion (Except.ok.inj hstatus)
  · exact WriteStatus.noConfusion (Except.ok.inj hstatus)

/-- A path that can be looked up is there if something stands at its place. -/
theorem IsTree.exists?_eq_ok (htree : fs.IsTree) (h : fs.LinkFree) {p : Path} (hp : p.Spelled)
    (hdots : ".." ∉ p.parts) (hfits : p.Fits) {there : Bool} (heq : fs.exists? p = .ok there) :
    there = false ↔ fs.find? p.place = none := by
  rcases test_eq_ok h hp hfits (fun _ => true) with ⟨b, htest, hb⟩
  obtain rfl : b = there := Except.ok.inj (htest.symm.trans heq)
  rw [← Bool.not_eq_true, hb]
  constructor
  · intro hnot
    rcases hfind : fs.find? p.place with _ | e
    · rfl
    · exact absurd ⟨htree.reaches_parent hp hdots hfind, e, hfind, rfl⟩ hnot
  · intro hnone hthere
    rcases hthere with ⟨_, e, hfind, _⟩
    rw [hnone] at hfind
    exact absurd hfind (Option.some_ne_none e).symm

/-- A write stores an output. -/
theorem IsTree.stores_write (htree : fs.IsTree) (h : fs.LinkFree) (header : String)
    (hp : output.1.Spelled) (hdots : ".." ∉ output.1.parts) :
    Stores fs header output (fs.write header output.1 output.2).1
      (fs.write header output.1 output.2).2 := by
  have hfails : ∀ {done f}, fs.replace output.1 (outputBytes header output.2) = (done, .error f) →
      Stores fs header output done (.error f) :=
    fun heq => Stores.of_grows (grows_of_replace heq) header output _
  unfold write writeData
  rw [← outputBytes]
  rcases hthere : fs.exists? output.1 with f | there
  · exact Stores.of_grows (Grows.refl fs) header output f
  · cases there with
    | false =>
        rcases hreplace : fs.replace output.1 (outputBytes header output.2) with ⟨done, f | _⟩
        · exact hfails hreplace
        · have hnone := (htree.exists?_eq_ok h hp hdots (fits_of_replace h hp hreplace)
            hthere).mp rfl
          exact Stores.of_created h hp hnone hreplace
    | true =>
        simp only [holds]
        -- What stands there is compared before anything is written.
        rcases hread : fs.read output.1 with f | data
        · exact Stores.of_grows (Grows.refl fs) header output f
        · rcases (read_eq_ok_iff_of_linkFree h hp).mp hread with ⟨_, _, mode, hfind⟩
          by_cases hsame : data = outputBytes header output.2
          · rw [hsame] at hfind
            simp only [Except.map, (beq_bytes_iff _ _).mpr hsame]
            exact Stores.of_held hfind
          · have hbeq : (data == outputBytes header output.2) = false :=
              Bool.eq_false_iff.mpr (fun heq => hsame ((beq_bytes_iff _ _).mp heq))
            simp only [Except.map, hbeq]
            rcases hreplace : fs.replace output.1 (outputBytes header output.2) with ⟨done, f | _⟩
            · exact hfails hreplace
            · exact Stores.of_updated h hp hfind hsame hreplace

/-- A tree that a file is put into is a tree. -/
theorem IsTree.places (htree : fs.IsTree) {n : String} {dir : Location} {data : ByteArray}
    (hplaces : Places fs fs' (n :: dir) data) (hdir : fs.IsDirectoryAt dir) : fs'.IsTree := by
  have hkept : ∀ {loc}, fs.IsDirectoryAt loc → fs'.IsDirectoryAt loc := fun h =>
    hplaces.stays.directory _ h
  intro m d hfind
  by_cases heq : m :: d = n :: dir
  · rw [(List.cons.inj heq).2]
    exact hkept hdir
  · rw [hplaces.others _ heq] at hfind
    exact hkept (htree m d hfind)

theorem IsTree.of_find?_eq (htree : fs.IsTree) (h : ∀ loc, fs'.find? loc = fs.find? loc) :
    fs'.IsTree := by
  intro n dir hfind
  rw [h] at hfind
  rw [IsDirectoryAt, h]
  exact htree n dir hfind

/-- If a file in a directory cannot be replaced everything is as it was. -/
theorem find?_of_replaceIn_error {p : Path} {data : ByteArray} {f : Fault}
    (heq : fs.replaceIn p data = (fs', .error f)) (loc : Location) :
    fs'.find? loc = fs.find? loc := by
  rcases replaceIn_cases fs p data with ⟨g, hcase⟩ | ⟨fresh, src, mode, hfree, _, hcase⟩
  · rw [hcase, Prod.mk.injEq] at heq
    rw [heq.1]
  · rcases hcase with ⟨g, hcase⟩ | ⟨done, hcase, _⟩
    · rw [hcase, Prod.mk.injEq] at heq
      rw [← heq.1]
      exact find?_put_delete hfree.find? _ loc
    · rw [hcase, Prod.mk.injEq] at heq
      exact absurd heq.2 (by simp only [reduceCtorEq, not_false_eq_true])

/-- Writing an output keeps trees. -/
theorem IsTree.write (htree : fs.IsTree) (h : fs.LinkFree) (header : String)
    (hp : output.1.Spelled) : (fs.write header output.1 output.2).1.IsTree := by
  have hmade := htree.makeDirectories h hp.parent
  rcases fs.write_cases header output.1 output.2 with ⟨f, heq⟩ | ⟨_, heq⟩ | ⟨status, heq⟩
  · rw [heq]
    exact htree
  · rw [heq]
    exact htree
  · rw [heq]
    rcases hreplace : fs.replace output.1 (outputBytes header output.2) with ⟨done, f | _⟩
    · rw [replace] at hreplace
      rcases hdirs : fs.makeDirectories output.1.parent with ⟨made, g | _⟩
      · rw [hdirs] at hreplace hmade
        rwa [← (Prod.mk.inj hreplace).1]
      · rw [hdirs] at hreplace hmade
        exact hmade.of_find?_eq (find?_of_replaceIn_error hreplace)
    · rcases places_of_replace h hp hreplace with ⟨_, hparent, _, hplaces⟩
      rw [place_eq_cons hparent hplaces.notDirectory] at hplaces
      exact hmade.places hplaces hparent.isDirectoryAt

theorem content?_eq_some_iff {loc : Location} {data : ByteArray} :
    fs.content? loc = some data ↔ ∃ mode, fs.find? loc = some (.file data mode) := by
  rw [content?]
  rcases fs.find? loc with _ | e
  · simp only [reduceCtorEq, exists_false]
  · cases e with
    | directory => simp only [reduceCtorEq, Option.some.injEq, exists_false]
    | file data' mode => simp only [Option.some.injEq, Entry.file.injEq, exists_and_left,
        exists_eq', and_true]
    | link target => simp only [reduceCtorEq, Option.some.injEq, exists_false]

theorem content?_congr {loc : Location} (h : ∀ data mode,
    fs'.find? loc = some (.file data mode) ↔ fs.find? loc = some (.file data mode)) :
    fs'.content? loc = fs.content? loc := by
  refine Option.ext (fun data => ?_)
  rw [content?_eq_some_iff, content?_eq_some_iff]
  exact exists_congr (h data)

/-- What was stored is there. -/
theorem Stores.content?_place {status : WriteStatus}
    (h : Stores fs header output fs' (.ok status)) :
    fs'.content? output.1.place = some (outputBytes header output.2) := by
  rw [content?_eq_some_iff]
  cases status with
  | created => exact ⟨_, h.created rfl⟩
  | updated =>
      rcases h.updated rfl with ⟨_, mode, _, hplaced⟩
      exact ⟨_, hplaced⟩
  | unchanged =>
      rw [h.unchanged rfl]
      exact (h.unchanged_iff _ rfl).mp rfl

end Stores

section Run

variable {fs : FileSystem} {header : String}

/-- The output, if it could be written. -/
def storedOf (output : Path × String) : Except Fault WriteStatus → List (Path × String)
  | .ok _ => [output]
  | .error _ => []

/-- The outputs that were stored when some were written in order: those that
    could be written. -/
def stored (fs : FileSystem) (header : String) : List (Path × String) → List (Path × String)
  | [] => []
  | output :: rest =>
    storedOf output (fs.write header output.1 output.2).2 ++
      (fs.write header output.1 output.2).1.stored header rest

/-- What was stored last at a location. -/
def lastAt (loc : Location) (outputs : List (Path × String)) : Option String :=
  ((outputs.filter (·.1.place = loc)).getLast?).map Prod.snd

theorem lastAt_append (loc : Location) (earlier later : List (Path × String)) :
    lastAt loc (earlier ++ later) = (lastAt loc later).or (lastAt loc earlier) := by
  rw [lastAt, List.filter_append, List.getLast?_append, lastAt, lastAt, Option.map_or]

/-- What a file holds after one write. -/
theorem Stores.content? {fs' : FileSystem} {output : Path × String}
    {outcome : Except Fault WriteStatus} (h : Stores fs header output fs' outcome)
    (loc : Location) : fs'.content? loc =
      ((lastAt loc (storedOf output outcome)).map (outputBytes header)).or (fs.content? loc) := by
  cases outcome with
  | error f => exact content?_congr (h.error f rfl loc)
  | ok status =>
      by_cases hloc : output.1.place = loc
      · rw [lastAt, storedOf, List.filter_singleton, decide_eq_true hloc, ← hloc, h.content?_place]
        rfl
      · rw [lastAt, storedOf, List.filter_singleton, decide_eq_false hloc,
          content?_congr (h.others loc (fun heq => hloc heq.symm))]
        rfl

/-- What a file holds after some writes: what was stored there last, or what it
    held before. -/
theorem content?_written (outputs : List (Path × String)) : ∀ {fs : FileSystem}, fs.IsTree →
    fs.LinkFree → (∀ output ∈ outputs, output.1.Spelled ∧ ".." ∉ output.1.parts) →
      ∀ loc, (fs.written header outputs).content? loc =
        ((lastAt loc (fs.stored header outputs)).map (outputBytes header)).or
          (fs.content? loc) := by
  induction outputs with
  | nil => intro fs _ _ _ loc; rfl
  | cons output rest ih =>
      intro fs htree h hpaths loc
      rcases hpaths output List.mem_cons_self with ⟨hp, hdots⟩
      have hstores := htree.stores_write h header hp hdots
      have hfiles : fs.written header (output :: rest) =
          (fs.write header output.1 output.2).1.written header rest := rfl
      rw [hfiles, ih (htree.write h header hp) ((steps_write fs header _ _).linkFree h)
        (fun o ho => hpaths o (List.mem_cons_of_mem _ ho)) loc, hstores.content? loc, stored,
        lastAt_append, Option.map_or, Option.or_assoc]

/-- What writes of some outputs in order do and report, one after another. -/
inductive StoresAll (header : String) :
    FileSystem → List (Path × String) → List Attempt → FileSystem → Prop where
  /-- There is no output. -/
  | nil (fs : FileSystem) : StoresAll header fs [] [] fs
  /-- The others are written after the first, whatever came of it. -/
  | cons {fs middle fs' : FileSystem} {output : Path × String} {outputs : List (Path × String)}
    {outcome : Except Fault WriteStatus} {as : List Attempt}
    (first : Stores fs header output middle outcome)
    (rest : StoresAll header middle outputs as fs') :
    StoresAll header fs (output :: outputs) ((output.1, outcome) :: as) fs'

/-- Writes store outputs one after another. -/
theorem IsTree.storesAll_written (outputs : List (Path × String)) : ∀ {fs : FileSystem},
    fs.IsTree → fs.LinkFree → (∀ output ∈ outputs, output.1.Spelled ∧ ".." ∉ output.1.parts) →
      StoresAll header fs outputs (fs.attempts header outputs) (fs.written header outputs) := by
  induction outputs with
  | nil => intro fs _ _ _; exact StoresAll.nil fs
  | cons output rest ih =>
      intro fs htree h hpaths
      rcases hpaths output List.mem_cons_self with ⟨hp, hdots⟩
      exact StoresAll.cons (htree.stores_write h header hp hdots)
        (ih (htree.write h header hp) ((steps_write fs header _ _).linkFree h)
          (fun o ho => hpaths o (List.mem_cons_of_mem _ ho)))

theorem IsTree.written (outputs : List (Path × String)) : ∀ {fs : FileSystem},
    fs.IsTree → fs.LinkFree → (∀ output ∈ outputs, output.1.Spelled) →
      (fs.written header outputs).IsTree := by
  induction outputs with
  | nil => intro fs htree _ _; exact htree
  | cons output rest ih =>
      intro fs htree h hspelled
      exact ih (htree.write h header (hspelled output List.mem_cons_self))
        ((steps_write fs header _ _).linkFree h)
        (fun o ho => hspelled o (List.mem_cons_of_mem _ ho))

end Run

end FileSystem

/-- The lists of a summary are those of the attempts, in their order, and every
    attempt is in exactly one of them. -/
structure WriteSummary.Reports (w : WriteSummary) (as : List Attempt) : Prop where
  /-- The outputs whose files did not exist. -/
  created : w.created = as.filterMap (Attempt.pathIf .created)
  /-- The outputs whose files had another content. -/
  updated : w.updated = as.filterMap (Attempt.pathIf .updated)
  /-- The outputs whose files had their content. -/
  unchanged : w.unchanged = as.filterMap (Attempt.pathIf .unchanged)
  /-- The outputs that could not be written. -/
  errors : w.errors = as.filterMap Attempt.error?
  /-- Every attempt is in exactly one of the lists. -/
  each : (w.created ++ w.updated ++ w.unchanged ++ w.errors.map WriteError.path).Perm
    (as.map Prod.fst)

/-- Writing several outputs tries all of them and has a summary. -/
theorem FileSystem.exists_writeAll (fs : FileSystem) (header : String)
    {outputs : List (Path × String)}
    (hpaths : ∀ output ∈ outputs, output.1.Spelled ∧ output.1.NullFree) :
    ∃ w, fs.writeAll header outputs = (fs.written header outputs, .ok w) ∧
      w.Reports (fs.attempts header outputs) := by
  have hattempts := Attempt.perm_paths (fs.attempts header outputs)
  have hunrefused := @unrefused_attempts header outputs fs
    (fun o ho => ⟨(hpaths o ho).1.isAbsolute, (hpaths o ho).2⟩)
  refine ⟨_, writeFrom_eq_ok_iff.mpr ⟨hunrefused, rfl, rfl⟩, ?_⟩
  rw [WriteSummary.foldl_note]
  exact ⟨rfl, rfl, rfl, rfl, hattempts⟩

/-- A call of the writer. -/
inductive WriterCall where
  /-- Writes one output. -/
  | write (output : Path × String)
  /-- Writes several. -/
  | writeAll (outputs : List (Path × String))

namespace WriterCall

/-- The outputs of a call. -/
def outputs : WriterCall → List (Path × String)
  | .write output => [output]
  | .writeAll outputs => outputs

/-- The files after a call. -/
def files (fs : FileSystem) (header : String) : WriterCall → FileSystem
  | .write output => (fs.write header output.1 output.2).1
  | .writeAll outputs => (fs.writeAll header outputs).1

/-- What a call does and what it reports: of one output, what came of it, and of
    several, a summary of what came of each. -/
def Answers (fs : FileSystem) (header : String) : WriterCall → Prop
  | .write output => FileSystem.Stores fs header output (fs.write header output.1 output.2).1
      (fs.write header output.1 output.2).2 ∧ Unrefused (fs.write header output.1 output.2).2
  | .writeAll outputs => ∃ as w, (fs.writeAll header outputs).2 = .ok w ∧
      FileSystem.StoresAll header fs outputs as (fs.writeAll header outputs).1 ∧ w.Reports as

/-- The paths of a call are absolute, they have no null character, and they have
    no double dot. -/
def Plain (call : WriterCall) : Prop :=
  ∀ output ∈ call.outputs, output.1.Spelled ∧ output.1.NullFree ∧ ".." ∉ output.1.parts

section Call

variable {fs : FileSystem} {call : WriterCall}

theorem files_eq (h : call.Plain) (fs : FileSystem) (header : String) :
    call.files fs header = fs.written header call.outputs := by
  cases call with
  | write output => rfl
  | writeAll outputs =>
      have hpaths : ∀ output ∈ outputs, output.1.Spelled ∧ output.1.NullFree :=
        fun output houtput => ⟨(h output houtput).1, (h output houtput).2.1⟩
      rcases fs.exists_writeAll header hpaths with ⟨w, hw, _⟩
      rw [files, hw]
      rfl

/-- What a call does and reports. -/
theorem answers (htree : fs.IsTree) (hlinks : fs.LinkFree) (header : String) (h : call.Plain) :
    call.Answers fs header := by
  cases call with
  | write output =>
      rcases h output List.mem_cons_self with ⟨hp, hnull, hdots⟩
      exact ⟨htree.stores_write hlinks header hp hdots,
        FileSystem.unrefused_write fs hp.isAbsolute hnull header output.2⟩
  | writeAll outputs =>
      have hnull : ∀ output ∈ outputs, output.1.Spelled ∧ output.1.NullFree :=
        fun output houtput => ⟨(h output houtput).1, (h output houtput).2.1⟩
      have hpaths : ∀ output ∈ outputs, output.1.Spelled ∧ ".." ∉ output.1.parts :=
        fun output houtput => ⟨(h output houtput).1, (h output houtput).2.2⟩
      rcases fs.exists_writeAll header hnull with ⟨w, hw, hreports⟩
      refine ⟨fs.attempts header outputs, w, ?_, ?_, hreports⟩
      · rw [hw]
      · rw [hw]
        exact FileSystem.IsTree.storesAll_written outputs htree hlinks hpaths

end Call

end WriterCall

namespace FileSystem

/-- The files after some calls. -/
def afterCalls (fs : FileSystem) (header : String) (calls : List WriterCall) : FileSystem :=
  calls.foldl (fun files call => call.files files header) fs

/-- What some calls have stored, in order. -/
def storedBy (fs : FileSystem) (header : String) : List WriterCall → List (Path × String)
  | [] => []
  | call :: rest =>
    fs.stored header call.outputs ++ (call.files fs header).storedBy header rest

section Calls

variable {header : String}

/-- Calls keep trees trees and make no links. What a file holds after them is
    what was stored there last, or what it held before. -/
theorem afterCalls_eq (calls : List WriterCall) : ∀ {fs : FileSystem}, fs.IsTree → fs.LinkFree →
    (∀ call ∈ calls, call.Plain) →
      (fs.afterCalls header calls).IsTree ∧ (fs.afterCalls header calls).LinkFree ∧
        ∀ loc, (fs.afterCalls header calls).content? loc =
          ((lastAt loc (fs.storedBy header calls)).map (outputBytes header)).or
            (fs.content? loc) := by
  induction calls with
  | nil => intro fs htree hlinks _; exact ⟨htree, hlinks, fun _ => rfl⟩
  | cons call rest ih =>
      intro fs htree hlinks hplain
      have hcall := hplain call List.mem_cons_self
      have hpaths : ∀ output ∈ call.outputs, output.1.Spelled ∧ ".." ∉ output.1.parts :=
        fun output houtput => ⟨(hcall output houtput).1, (hcall output houtput).2.2⟩
      have hfiles := WriterCall.files_eq hcall fs header
      have htree' : (call.files fs header).IsTree := by
        rw [hfiles]
        exact IsTree.written _ htree hlinks (fun output houtput => (hpaths output houtput).1)
      have hlinks' : (call.files fs header).LinkFree := by
        rw [hfiles]
        exact linkFree_written hlinks header _
      rcases ih htree' hlinks' (fun c hc => hplain c (List.mem_cons_of_mem _ hc)) with
        ⟨hdone, hdone', hcontent⟩
      refine ⟨hdone, hdone', fun loc => ?_⟩
      -- What the later calls do not store is what the first one left.
      have hfirst := @content?_written header call.outputs _ htree hlinks hpaths loc
      rw [← hfiles] at hfirst
      rw [storedBy, lastAt_append, Option.map_or, Option.or_assoc, ← hfirst]
      exact hcontent loc

/-- The writer is a store. Take a tree without links, and any calls of the
    writer, for absolute paths that have no null character and no double dot.
    Every call does what it should, and it reports that: a write creates the
    file if nothing stood there, it changes nothing if the file had its bytes,
    and otherwise it updates the file and keeps its permission bits; if it fails
    no file changes; and a write of several outputs tries all of them and puts
    each into exactly one list, in order. After every call, what a file holds is
    what the last write to its place stored, or what the file held to begin
    with. -/
theorem writer_stores {fs : FileSystem} (htree : fs.IsTree) (hlinks : fs.LinkFree) (header : String)
    {calls : List WriterCall} (hplain : ∀ call ∈ calls, call.Plain) :
    (∀ earlier call later, calls = earlier ++ call :: later →
      call.Answers (fs.afterCalls header earlier) header) ∧
    ∀ earlier later, calls = earlier ++ later → ∀ loc,
      (fs.afterCalls header earlier).content? loc =
        ((lastAt loc (fs.storedBy header earlier)).map (outputBytes header)).or
          (fs.content? loc) := by
  constructor
  · intro earlier call later heq
    have hmem : ∀ c ∈ earlier ++ [call], c.Plain := by
      intro c hc
      refine hplain c ?_
      rw [heq, List.append_cons]
      exact List.mem_append_left _ hc
    rcases @afterCalls_eq header earlier fs htree hlinks
      (fun c hc => hmem c (List.mem_append_left _ hc)) with ⟨htree', hlinks', _⟩
    exact WriterCall.answers htree' hlinks' header
      (hmem call (List.mem_append_right _ List.mem_cons_self))
  · intro earlier later heq loc
    have hmem : ∀ c ∈ earlier, c.Plain := by
      intro c hc
      refine hplain c ?_
      rw [heq]
      exact List.mem_append_left _ hc
    exact (afterCalls_eq earlier htree hlinks hmem).2.2 loc

/-- A tree of one file. -/
def oneFile : FileSystem :=
  ⟨[(["a"], .file .empty 0o600)], []⟩

/-- The file is written, and then a second time, and so is a path below it,
    where nothing can be. -/
def threeWrites : List WriterCall :=
  [.write (⟨"/", ["a"]⟩, "x"), .writeAll [(⟨"/", ["a"]⟩, "y"), (⟨"/", ["a", "b"]⟩, "z")]]

theorem writer_stores_oneFile :
    (∀ earlier call later, threeWrites = earlier ++ call :: later →
      call.Answers (oneFile.afterCalls "" earlier) "") ∧
    ∀ earlier later, threeWrites = earlier ++ later → ∀ loc,
      (oneFile.afterCalls "" earlier).content? loc =
        ((lastAt loc (oneFile.storedBy "" earlier)).map (outputBytes "")).or
          (oneFile.content? loc) := by
  have htree : oneFile.IsTree := by
    refine isTree_of_entries (fun e he => ?_)
    rw [List.mem_singleton.mp he]
    exact find?_nil _
  have hlinks : oneFile.LinkFree := by
    refine linkFree_of_entries (fun e he target => ?_)
    rw [List.mem_singleton.mp he]
    simp only [ne_eq, reduceCtorEq, not_false_eq_true]
  have hpath : ∀ parts : List String, (∀ n ∈ parts, IsName n) →
      Path.Spelled ⟨"/", parts⟩ ∧ Path.NullFree ⟨"/", parts⟩ ∧ ".." ∉ parts := by
    intro parts hparts
    have hroot : nullChar ∉ ("/" : String).toList := by decide
    exact ⟨⟨Or.inl rfl, fun n hn => (hparts n hn).isPiece⟩,
      ⟨hroot, fun n hn => (hparts n hn).noNull⟩, fun hmem => (hparts ".." hmem).ne_dots rfl⟩
  have ha := hpath ["a"] (by decide)
  have hb := hpath ["a", "b"] (by decide)
  refine writer_stores htree hlinks "" (fun call hcall output houtput => ?_)
  rcases List.mem_cons.mp hcall with rfl | hcall
  · rw [List.mem_singleton.mp houtput]
    exact ha
  · rw [List.mem_singleton.mp hcall] at houtput
    rcases List.mem_cons.mp houtput with rfl | houtput
    · exact ha
    · rw [List.mem_singleton.mp houtput]
      exact hb

end Calls

end FileSystem

end Stencil
