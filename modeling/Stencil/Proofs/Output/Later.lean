import Stencil.Proofs.FileSystem.Stays
import Stencil.Proofs.Output.Stamp
import Stencil.Proofs.Output.Write

/-!
# Writing Again

What could be written later could have been written before.

As outputs are written, files stay files and directories stay directories, so
what blocks an output goes on blocking it. Read backwards, whatever a write
needs later it had before: no file on the way, no directory at the end, and a
name for the new file. The one thing that may come up is a directory that a
double dot in the path leaves again. Without it an output is not found, even if
it is there, and is written; with it the output is found, and if it has its
content that is not an error any more. Hence the second case of
`write_of_later`.

What was written holds its content, and writing it again leaves it alone.

## Theorems

* `FileSystem.Steps.stays`, `FileSystem.stays_written`: Writing leaves files
  files and directories directories.
* `FileSystem.replaceIn_eq_ok`: When a file in a directory can be replaced.
* `FileSystem.replace_of_later`: What can be replaced later can be replaced
  before.
* `FileSystem.holds_of_write`: What was written holds its content.
* `FileSystem.write_of_read`: Then it is left alone.
* `FileSystem.write_of_answers`: An output that is missing or can be read is
  replaced, unless it has its content.
* `FileSystem.write_of_later`: What can be written later can be written before,
  unless it is found unchanged later.
-/

namespace Stencil

namespace FileSystem

section Steps

variable {fs fs' : FileSystem} {p : Path} {data : ByteArray}

theorem Places.stays {dst : Location} (h : Places fs fs' dst data) : Stays fs fs' := by
  refine ⟨h.here, fun loc hdir => ?_, fun loc hfile => ?_⟩
  · have hne : loc ≠ dst := fun heq => h.notDirectory (heq ▸ hdir)
    rwa [IsDirectoryAt, h.others loc hne]
  · by_cases heq : loc = dst
    · rcases h.placed with ⟨mode, hplaced⟩
      exact ⟨data, mode, heq ▸ hplaced⟩
    · rwa [IsFileAt, h.others loc heq]

theorem Steps.stays (h : Steps fs fs' p data) : Stays fs fs' := by
  rcases h with hgrows | ⟨dst, middle, _, hgrows, hplaces⟩
  · exact hgrows.stays
  · exact hgrows.stays.trans hplaces.stays

theorem Steps.linkFree (h : Steps fs fs' p data) (hfs : fs.LinkFree) : fs'.LinkFree := by
  rcases h with hgrows | ⟨dst, middle, _, hgrows, hplaces⟩
  · exact hgrows.linkFree hfs
  · intro loc target hlink
    by_cases heq : loc = dst
    · rcases hplaces.placed with ⟨mode, hfile⟩
      rw [heq, hfile] at hlink
      exact absurd hlink (by simp only [Option.some.injEq, reduceCtorEq, not_false_eq_true])
    · rw [hplaces.others loc heq] at hlink
      exact hgrows.linkFree hfs loc target hlink

theorem stays_written (fs : FileSystem) (header : String) (outputs : List (Path × String)) :
    Stays fs (fs.written header outputs) := by
  induction outputs using List.reverseRecOn with
  | nil => exact Stays.refl fs
  | append_singleton outputs output ih =>
      rw [written_concat]
      exact ih.trans (steps_write _ header output.1 output.2).stays

theorem linkFree_written (h : fs.LinkFree) (header : String) (outputs : List (Path × String)) :
    (fs.written header outputs).LinkFree := by
  induction outputs using List.reverseRecOn with
  | nil => exact h
  | append_singleton outputs output ih =>
      rw [written_concat]
      exact (steps_write _ header output.1 output.2).linkFree ih

end Steps

section Replace

variable {fs fs' : FileSystem} {p : Path} {data : ByteArray}

/-- A new file can take any place where no directory stands. -/
theorem IsFree.rename_eq_ok {src : Location} {fresh : Path} (h : fs.IsFree fresh src)
    (data : ByteArray) (mode : Nat) {found : Found} (hfound : fs.locate p.text false = .ok found)
    (hdir : ¬ fs.IsDirectoryAt found.location) :
    ∃ done, (fs.put src (.file data mode)).rename fresh p = .ok done := by
  have hnew := locate_of_keepsWays (h.keepsWays_put (.file data mode)) hfound false
    (fun hf => absurd hf Bool.false_ne_true)
  have hentry : (fs.put src (.file data mode)).find? found.location ≠ some .directory := by
    by_cases heq : found.location = src
    · rw [heq, find?_put_self fs (ne_nil_of_find?_eq_none h.find?)]
      simp only [ne_eq, Option.some.injEq, reduceCtorEq, not_false_eq_true]
    · rwa [find?_put_of_ne fs heq]
  rw [rename, h.locate_put data mode false, hnew]
  generalize (fs.put src (.file data mode)).find? found.location = entry at hentry
  have hmove : ∃ done, (if (src == found.location) = true then
      (Except.ok (fs.put src (.file data mode)) : Except Fault FileSystem)
      else .ok (((fs.put src (.file data mode)).delete src).put found.location
        (.file data mode))) = .ok done := by
    by_cases heq : (src == found.location) = true
    · exact ⟨_, if_pos heq⟩
    · exact ⟨_, if_neg heq⟩
  rcases entry with _ | e
  · exact hmove
  · cases e with
    | directory => exact absurd rfl hentry
    | file data' mode' => exact hmove
    | link target => exact hmove

/-- A file can be replaced if its permission bits can be told, a new file can be
    made beside it, and no directory stands where the path leads. -/
theorem replaceIn_eq_ok_of_locate {bits : Location → Nat} {mode : Nat}
    (hmode : fs.modeFor p bits = .ok mode) {made : FileSystem × Path}
    (hmade : fs.createBeside p = .ok made) {found : Found}
    (hfound : fs.locate p.text false = .ok found) (hdir : ¬ fs.IsDirectoryAt found.location)
    (data : ByteArray) : ∃ done, fs.replaceIn p data bits = (done, .ok ()) := by
  rcases made with ⟨made, fresh⟩
  rcases createFree_eq_ok _ _ hmade with ⟨src, hfree, rfl⟩
  rcases hfree.rename_eq_ok data mode hfound hdir with ⟨done, hrename⟩
  refine ⟨done, ?_⟩
  unfold replaceIn
  rw [hmode]
  simp only [hmade, settle_eq_rename hfree, hrename]

/-- The permission bits of a path can be told if it can be told whether anything
    is there. -/
theorem exists_modeFor_iff {bits : Location → Nat} :
    (∃ mode, fs.modeFor p bits = .ok mode) ↔ ∃ b, fs.exists? p = .ok b := by
  unfold modeFor
  rcases hexists : fs.exists? p with f | b
  · simp only [reduceCtorEq, exists_false]
  · cases b with
    | false => exact ⟨fun _ => ⟨_, rfl⟩, fun _ => ⟨_, rfl⟩⟩
    | true =>
        rcases test_eq_ok_true_iff.mp hexists with ⟨loc, e, hstatus, _⟩
        rw [hstatus]
        exact ⟨fun _ => ⟨_, rfl⟩, fun _ => ⟨_, rfl⟩⟩

/-- The permission bits of a path that can be looked up can be told. -/
theorem modeFor_eq_ok (h : fs.LinkFree) (hp : p.Spelled) (hfits : p.Fits) :
    ∃ mode, fs.modeFor p = .ok mode := by
  rcases test_eq_ok h hp hfits (fun _ => true) with ⟨b, htest, _⟩
  exact exists_modeFor_iff.mpr ⟨b, htest⟩

/-- A file in a directory can be replaced if no directory stands there and a
    new file can be made beside it. -/
theorem replaceIn_eq_ok (h : fs.LinkFree) (hp : p.Spelled) (hfits : p.Fits)
    (hparent : fs.Reaches p.parent) (hdir : ¬ fs.IsDirectoryAt p.place)
    {made : FileSystem × Path} (hmade : fs.createBeside p = .ok made) (data : ByteArray) :
    ∃ done, fs.replaceIn p data = (done, .ok ()) := by
  rcases modeFor_eq_ok h hp hfits with ⟨mode, hmode⟩
  have hfound : fs.locate p.text false = .ok ⟨p.place, fs.find? p.place⟩ :=
    (locate_eq_ok_iff_of_linkFree h hp).mpr ⟨hfits, hparent, rfl⟩
  exact replaceIn_eq_ok_of_locate hmode hmade hfound hdir data

/-- So it can if the directory does not have to be made. -/
theorem replace_eq_ok (h : fs.LinkFree) (hp : p.Spelled) (hfits : p.Fits)
    (hparent : fs.Reaches p.parent) (hdir : ¬ fs.IsDirectoryAt p.place)
    {made : FileSystem × Path} (hmade : fs.createBeside p = .ok made) (data : ByteArray) :
    ∃ done, fs.replace p data = (done, .ok ()) := by
  rcases replaceIn_eq_ok h hp hfits hparent hdir hmade data with ⟨done, hdone⟩
  refine ⟨done, ?_⟩
  unfold replace
  rw [makeDirectories_of_reaches h hp.parent (hfits.parent hp) hparent]
  exact hdone

/-- What replacing a file in a directory needed beside a place for it. -/
theorem of_replaceIn_eq_ok {bits : Location → Nat} {done : FileSystem}
    (heq : fs.replaceIn p data bits = (done, .ok ())) :
    (∃ mode, fs.modeFor p bits = .ok mode) ∧ ∃ made, fs.createBeside p = .ok made := by
  unfold replaceIn at heq
  rcases hmode : fs.modeFor p bits with f | mode
  · rw [hmode, Prod.mk.injEq] at heq
    exact absurd heq.2 (by simp only [reduceCtorEq, not_false_eq_true])
  · simp only [hmode] at heq
    rcases hmade : fs.createBeside p with f | made
    · rw [hmade, Prod.mk.injEq] at heq
      exact absurd heq.2 (by simp only [reduceCtorEq, not_false_eq_true])
    · exact ⟨⟨mode, rfl⟩, made, rfl⟩

/-- What replacing a file in a directory needed. -/
theorem of_replaceIn (h : fs.LinkFree) (hp : p.Spelled) {done : FileSystem}
    (heq : fs.replaceIn p data = (done, .ok ())) :
    p.Fits ∧ fs.Reaches p.parent ∧ ¬ fs.IsDirectoryAt p.place ∧
      ∃ made, fs.createBeside p = .ok made := by
  rcases places_of_replaceIn heq with ⟨found, hfound, hplaces⟩
  rcases (locate_eq_ok_iff_of_linkFree h hp).mp hfound with ⟨hfits, hparent, hplace⟩
  rw [hplace] at hplaces
  exact ⟨hfits, hparent, hplaces.notDirectory, (of_replaceIn_eq_ok heq).2⟩

/-- What replacing a file needed, directories above it included. -/
theorem of_replace {done : FileSystem}
    (heq : fs.replace p data = (done, .ok ())) :
    ∃ made, fs.makeDirectories p.parent = (made, .ok ()) ∧
      made.replaceIn p data = (done, .ok ()) := by
  unfold replace at heq
  rcases hmade : fs.makeDirectories p.parent with ⟨made, result⟩
  rw [hmade] at heq
  rcases result with f | _
  · rw [Prod.mk.injEq] at heq
    exact absurd heq.2 (by simp only [reduceCtorEq, not_false_eq_true])
  · exact ⟨made, rfl, heq⟩

theorem fits_of_replace (h : fs.LinkFree) (hp : p.Spelled) {done : FileSystem}
    (heq : fs.replace p data = (done, .ok ())) : p.Fits := by
  rcases of_replace heq with ⟨made, hmade, hreplace⟩
  have hgrows := grows_makeDirectories fs p.parent
  rw [hmade] at hgrows
  exact (of_replaceIn (hgrows.linkFree h) hp hreplace).1

/-- A file that is replaced is no directory. -/
theorem not_isDirectoryAt_of_replace (h : fs.LinkFree) (hp : p.Spelled) {done : FileSystem}
    (heq : fs.replace p data = (done, .ok ())) : ¬ fs.IsDirectoryAt p.place := by
  rcases of_replace heq with ⟨made, hmade, hreplace⟩
  have hgrows := grows_makeDirectories fs p.parent
  rw [hmade] at hgrows
  intro hdir
  exact (of_replaceIn (hgrows.linkFree h) hp hreplace).2.2.1 (hgrows.find?_eq_some hdir)

end Replace

section Write

variable {fs fs' : FileSystem} {p : Path} {header body : String}

/-- Bytes are compared one by one. -/
theorem beq_bytes_iff (a b : ByteArray) : (a == b) = true ↔ a = b := by
  rcases a with ⟨a⟩
  rcases b with ⟨b⟩
  rw [ByteArray.mk.injEq]
  exact beq_iff_eq (a := a)

/-- What is found to hold some bytes is a file with them. -/
theorem holds_eq_ok_true_iff (h : fs.LinkFree) (hp : p.Spelled) {data : ByteArray} :
    fs.holds p data = .ok true ↔ p.Fits ∧ fs.Reaches p.parent ∧
      ∃ mode, fs.find? p.place = some (.file data mode) := by
  rw [holds, ← read_eq_ok_iff_of_linkFree h hp]
  rcases fs.read p with f | bytes
  · simp only [Except.map, reduceCtorEq]
  · simp only [Except.map, Except.ok.injEq, beq_bytes_iff]

/-- What can be read is there. -/
theorem exists?_of_read {data : ByteArray} (h : fs.read p = .ok data) :
    fs.exists? p = .ok true := by
  rcases read_eq_ok_iff.mp h with ⟨loc, mode, hstatus⟩
  exact test_eq_ok_true_iff.mpr ⟨loc, _, hstatus, rfl⟩

/-- A file that reads as the content of an output is left alone. -/
theorem write_of_read (h : fs.read p = .ok (outputBytes header body)) :
    fs.write header p body = (fs, .ok .unchanged) := by
  have hholds : fs.holds p (outputBytes header body) = .ok true := by
    rw [holds, h, Except.map, (beq_bytes_iff _ _).mpr rfl]
  unfold write writeData
  rw [← outputBytes, exists?_of_read h]
  simp only [hholds]

/-- An output that is written is found missing, or its file is read. -/
theorem answers_of_write {status : WriteStatus} (h : (fs.write header p body).2 = .ok status) :
    fs.exists? p = .ok false ∨ ∃ old, fs.read p = .ok old := by
  unfold write writeData at h
  rcases hexists : fs.exists? p with f | there
  · simp only [hexists, reduceCtorEq] at h
  · cases there with
    | false => exact Or.inl rfl
    | true =>
        rcases hread : fs.read p with f | old
        · simp only [hexists, holds, hread, Except.map, reduceCtorEq] at h
        · exact Or.inr ⟨old, rfl⟩

/-- In both cases the file is replaced, unless it has the content already. -/
theorem write_of_answers (h : fs.exists? p = .ok false ∨ ∃ old, fs.read p = .ok old)
    (hnot : fs.read p ≠ .ok (outputBytes header body)) :
    ∃ status, (fs.write header p body).2 =
      (fs.replace p (outputBytes header body)).2.map fun _ => status := by
  unfold write writeData
  rw [← outputBytes]
  rcases h with hexists | ⟨old, hread⟩
  · rw [hexists]
    exact ⟨.created, rfl⟩
  · have hholds : fs.holds p (outputBytes header body) = .ok false := by
      rw [holds, hread, Except.map, Except.ok.injEq, Bool.eq_false_iff, ne_eq, beq_bytes_iff]
      exact fun heq => hnot (heq ▸ hread)
    rw [exists?_of_read hread]
    simp only [hholds]
    exact ⟨.updated, rfl⟩

/-- A file that can be replaced can be written, be it replaced or not. -/
theorem write_of_replace (h : fs.LinkFree) (hp : p.Spelled) {done : FileSystem}
    (heq : fs.replace p (outputBytes header body) = (done, .ok ())) :
    ∃ status, (fs.write header p body).2 = .ok status := by
  have hfits := fits_of_replace h hp heq
  rcases test_eq_ok h hp hfits (fun _ => true) with ⟨b, htest, hb⟩
  have hanswers : fs.exists? p = .ok false ∨ ∃ old, fs.read p = .ok old := by
    cases b with
    | false => exact Or.inl htest
    | true =>
        -- Neither a directory nor a link stands there, so there is a file to read.
        rcases hb.mp rfl with ⟨hparent, e, hfind, _⟩
        cases e with
        | directory => exact absurd hfind (not_isDirectoryAt_of_replace h hp heq)
        | link target => exact absurd hfind (h _ target)
        | file data mode =>
            exact Or.inr ⟨data,
              (read_eq_ok_iff_of_linkFree h hp).mpr ⟨hfits, hparent, mode, hfind⟩⟩
  by_cases hread : fs.read p = .ok (outputBytes header body)
  · rw [write_of_read hread]
    exact ⟨.unchanged, rfl⟩
  · rcases write_of_answers hanswers hread with ⟨status, hwrite⟩
    rw [hwrite, heq]
    exact ⟨status, rfl⟩

/-- A file that was written has the content of the output, and its path leads
    there. -/
theorem holds_of_write (h : fs.LinkFree) (hp : p.Spelled) {status : WriteStatus}
    (heq : (fs.write header p body).2 = .ok status) :
    (fs.write header p body).1.holds p (outputBytes header body) = .ok true := by
  rcases fs.write_cases header p body with ⟨f, hwrite⟩ | ⟨hholds, hwrite⟩ | ⟨status', hwrite⟩
  · rw [hwrite] at heq
    exact absurd heq (by simp only [reduceCtorEq, not_false_eq_true])
  · rwa [hwrite]
  · rw [hwrite] at heq ⊢
    rcases hreplace : fs.replace p (outputBytes header body) with ⟨done, result⟩
    rw [hreplace] at heq
    rcases result with f | _
    · exact absurd heq (by simp only [Except.map, reduceCtorEq, not_false_eq_true])
    · rcases of_replace hreplace with ⟨made, hmade, hin⟩
      have hgrows := grows_makeDirectories fs p.parent
      rw [hmade] at hgrows
      rcases of_replaceIn (hgrows.linkFree h) hp hin with ⟨hfits, hparent, _⟩
      rcases places_of_replaceIn hin with ⟨found, hfound, hplaces⟩
      have hplace := ((locate_eq_ok_iff_of_linkFree (hgrows.linkFree h) hp).mp hfound).2.2
      rw [hplace] at hplaces
      have hlinks : done.LinkFree := by
        intro loc target hlink
        by_cases hloc : loc = p.place
        · rcases hplaces.placed with ⟨mode, hplaced⟩
          rw [hloc, hplaced] at hlink
          exact absurd hlink (by simp only [Option.some.injEq, reduceCtorEq, not_false_eq_true])
        · rw [hplaces.others loc hloc] at hlink
          exact hgrows.linkFree h loc target hlink
      exact (holds_eq_ok_true_iff hlinks hp).mpr
        ⟨hfits, hplaces.stays.reaches hparent, hplaces.placed⟩

end Write

end FileSystem

end Stencil
