import Mathlib.Data.List.Induction
import Stencil.Proofs.Output.Refusal

/-!
# Files After Writing

Which files writing touches, and what is in them then.

One write makes directories and puts one file in place, or it makes
directories and stops. So a step is one of two relations between file systems,
and what a run of writes does follows by going through the outputs from the
last to the first: a file that stands at the end was there before, or one of
the outputs was put there and no later one took its place.

Where an output goes is a matter of the files at the time of its write. A link
on the way may be replaced later, by another output, so the place is that to
which the path led when the directories above it had been made.

## Main definitions

* `FileSystem.destination?`: Where a path leads once there are directories above
  it.
* `FileSystem.Steps`: What one write can come to.
* `FileSystem.written`: The files after some writes.
* `FileSystem.WriteEnds`: How writing several outputs can end.

## Theorems

* `FileSystem.steps_write`, `FileSystem.grows_of_write`: What one write comes
  to, and what it comes to if it fails.
* `FileSystem.isFileAt_written`: No file vanishes.
* `FileSystem.find?_written`: A file is one that was there, or an output.
* `FileSystem.grows_written`: Nothing is written under paths that are refused.
* `FileSystem.writeEnds_writeFrom`: Writing ends in one of these ways.
-/

namespace Stencil

/-- The bytes of an output. -/
def outputBytes (header body : String) : ByteArray :=
  Text.Utf8.encode (Header.apply header body)

namespace FileSystem

/-- Where a path leads once the directories above it have been made. A link
    that stands there itself is not followed. -/
def destination? (fs : FileSystem) (p : Path) : Option Location :=
  match (fs.makeDirectories p.parent).1.locate p.text false with
  | .ok found => some found.location
  | .error _ => none

/-- What a write can come to: directories were made, and a file with the
    content may have been put where the path leads. -/
def Steps (fs fs' : FileSystem) (p : Path) (data : ByteArray) : Prop :=
  Grows fs fs' ∨ ∃ loc middle, fs.destination? p = some loc ∧ Grows fs middle ∧
    Places middle fs' loc data

section Step

variable {fs fs' : FileSystem} {p : Path} {data : ByteArray}

/-- No regular file vanishes in a step. -/
theorem Steps.isFileAt (h : Steps fs fs' p data) {loc : Location} (hfile : fs.IsFileAt loc) :
    fs'.IsFileAt loc := by
  rcases hfile with ⟨data', mode, hfind⟩
  rcases h with hgrows | ⟨dst, middle, _, hgrows, hplaces⟩
  · exact ⟨data', mode, hgrows.find?_eq_some hfind⟩
  · by_cases heq : loc = dst
    · rcases hplaces.placed with ⟨mode', hplaced⟩
      exact ⟨data, mode', heq ▸ hplaced⟩
    · refine ⟨data', mode, ?_⟩
      rw [hplaces.others loc heq]
      exact hgrows.find?_eq_some hfind

/-- After a step a regular file is one that was there, or it is where the path
    leads and has the content. -/
theorem Steps.find? (h : Steps fs fs' p data) {loc : Location} {data' : ByteArray} {mode : Nat}
    (hfind : fs'.find? loc = some (.file data' mode)) :
    fs.find? loc = some (.file data' mode) ∨ fs.destination? p = some loc ∧ data' = data := by
  rcases h with hgrows | ⟨dst, middle, hdst, hgrows, hplaces⟩
  · exact Or.inl ((hgrows.find?_eq_file_iff loc data' mode).mp hfind)
  · by_cases heq : loc = dst
    · rcases hplaces.placed with ⟨mode', hplaced⟩
      rw [heq, hplaced] at hfind
      cases hfind
      rw [heq]
      exact Or.inr ⟨hdst, rfl⟩
    · rw [hplaces.others loc heq] at hfind
      exact Or.inl ((hgrows.find?_eq_file_iff loc data' mode).mp hfind)

/-- Replacing a file puts it where its path leads once there are directories
    above it. -/
theorem steps_of_replace (h : fs.replace p data = (fs', .ok ())) : Steps fs fs' p data := by
  unfold replace at h
  have hgrows := grows_makeDirectories fs p.parent
  rcases hdirs : fs.makeDirectories p.parent with ⟨middle, result⟩
  rw [hdirs] at h hgrows
  rcases result with f | _
  · rw [Prod.mk.injEq] at h
    exact absurd h.2 (by simp only [reduceCtorEq, not_false_eq_true])
  · rcases places_of_replaceIn h with ⟨found, hfound, hplaces⟩
    refine Or.inr ⟨found.location, middle, ?_, hgrows, hplaces⟩
    rw [destination?, hdirs]
    simp only [hfound]

/-- If a file cannot be replaced no file has changed. -/
theorem grows_of_replace {f : Fault} (h : fs.replace p data = (fs', .error f)) :
    Grows fs fs' := by
  unfold replace at h
  have hgrows := grows_makeDirectories fs p.parent
  rcases hdirs : fs.makeDirectories p.parent with ⟨middle, result⟩
  rw [hdirs] at h hgrows
  rcases result with g | _
  · rw [Prod.mk.injEq] at h
    rwa [← h.1]
  · exact hgrows.trans (grows_of_replaceIn h)

end Step

variable (fs : FileSystem) (header : String)

/-- A write stops at a question it cannot answer, finds the file with its
    content, or replaces it. -/
theorem write_cases (p : Path) (body : String) :
    (∃ f, fs.write header p body = (fs, .error f)) ∨
      (fs.holds p (outputBytes header body) = .ok true ∧
        fs.write header p body = (fs, .ok .unchanged)) ∨
      ∃ status, fs.write header p body = ((fs.replace p (outputBytes header body)).1,
        (fs.replace p (outputBytes header body)).2.map fun _ => status) := by
  unfold write writeData
  rw [← outputBytes]
  rcases fs.exists? p with f | there
  · exact Or.inl ⟨f, rfl⟩
  · cases there with
    | false => exact Or.inr (Or.inr ⟨.created, rfl⟩)
    | true =>
        simp only []
        rcases hholds : fs.holds p (outputBytes header body) with f | same
        · exact Or.inl ⟨f, rfl⟩
        · cases same with
          | true => exact Or.inr (Or.inl ⟨rfl, rfl⟩)
          | false => exact Or.inr (Or.inr ⟨.updated, rfl⟩)

/-- What a write comes to, whether or not it succeeds. -/
theorem steps_write (p : Path) (body : String) :
    Steps fs (fs.write header p body).1 p (outputBytes header body) := by
  rcases fs.write_cases header p body with ⟨f, heq⟩ | ⟨_, heq⟩ | ⟨status, heq⟩
  · rw [heq]
    exact Or.inl (Grows.refl fs)
  · rw [heq]
    exact Or.inl (Grows.refl fs)
  · rw [heq]
    rcases hreplace : fs.replace p (outputBytes header body) with ⟨fs', result⟩
    rcases result with f | _
    · exact Or.inl (grows_of_replace hreplace)
    · exact steps_of_replace hreplace

/-- A write that fails changes no file. -/
theorem grows_of_write {p : Path} {body : String} {f : Fault}
    (h : (fs.write header p body).2 = .error f) : Grows fs (fs.write header p body).1 := by
  rcases fs.write_cases header p body with ⟨g, heq⟩ | ⟨_, heq⟩ | ⟨status, heq⟩
  · rw [heq]
    exact Grows.refl fs
  · rw [heq]
    exact Grows.refl fs
  · rw [heq] at h ⊢
    rcases hreplace : fs.replace p (outputBytes header body) with ⟨fs', result⟩
    rcases result with g | _
    · exact grows_of_replace hreplace
    · rw [hreplace] at h
      exact absurd h (by simp only [Except.map, reduceCtorEq, not_false_eq_true])

/-- A path that was written has no null character. -/
theorem nullFree_of_write {p : Path} {body : String} {status : WriteStatus}
    (h : (fs.write header p body).2 = .ok status) : p.NullFree := by
  rcases fs.write_cases header p body with ⟨f, heq⟩ | ⟨hholds, _⟩ | ⟨status', heq⟩
  · rw [heq] at h
    exact absurd h (by simp only [reduceCtorEq, not_false_eq_true])
  · rw [holds] at hholds
    rcases hread : fs.read p with f | data
    · rw [hread] at hholds
      exact absurd hholds (by simp only [Except.map, reduceCtorEq, not_false_eq_true])
    · exact nullFree_of_read hread
  · rw [heq] at h
    rcases hreplace : (fs.replace p (outputBytes header body)).2 with f | _
    · rw [hreplace] at h
      exact absurd h (by simp only [Except.map, reduceCtorEq, not_false_eq_true])
    · exact nullFree_of_replace hreplace

/-- The files after some outputs were written in order. -/
def written (fs : FileSystem) (header : String) (outputs : List (Path × String)) : FileSystem :=
  outputs.foldl (fun files output => (files.write header output.1 output.2).1) fs

theorem written_concat (outputs : List (Path × String)) (output : Path × String) :
    fs.written header (outputs ++ [output]) =
      ((fs.written header outputs).write header output.1 output.2).1 := by
  rw [written, written, List.foldl_append, List.foldl_cons, List.foldl_nil]

/-- No regular file vanishes when outputs are written. -/
theorem isFileAt_written {loc : Location} (h : fs.IsFileAt loc)
    (outputs : List (Path × String)) : (fs.written header outputs).IsFileAt loc := by
  induction outputs using List.reverseRecOn with
  | nil => exact h
  | append_singleton outputs output ih =>
      rw [written_concat]
      exact (steps_write _ header output.1 output.2).isFileAt ih

/-- A regular file that stands there after outputs were written is one that
    stood there before, or an output led there when it was written and the
    file has the content of that output. -/
theorem find?_written {loc : Location} {data : ByteArray} {mode : Nat}
    (outputs : List (Path × String))
    (h : (fs.written header outputs).find? loc = some (.file data mode)) :
    fs.find? loc = some (.file data mode) ∨ ∃ earlier output later,
      outputs = earlier ++ output :: later ∧
        (fs.written header earlier).destination? output.1 = some loc ∧
        data = outputBytes header output.2 := by
  induction outputs using List.reverseRecOn with
  | nil => exact Or.inl h
  | append_singleton outputs output ih =>
      rw [written_concat] at h
      rcases (steps_write _ header output.1 output.2).find? h with hbefore | ⟨hdst, hdata⟩
      · rcases ih hbefore with hfirst | ⟨earlier, output', later, heq, hdst, hdata⟩
        · exact Or.inl hfirst
        · refine Or.inr ⟨earlier, output', later ++ [output], ?_, hdst, hdata⟩
          rw [heq, List.append_assoc, List.cons_append]
      · exact Or.inr ⟨outputs, output, [], rfl, hdst, hdata⟩

/-- Under paths that have null characters nothing is written. -/
theorem grows_written (outputs : List (Path × String))
    (h : ∀ output ∈ outputs, ¬ output.1.NullFree) : Grows fs (fs.written header outputs) := by
  induction outputs using List.reverseRecOn with
  | nil => exact Grows.refl fs
  | append_singleton outputs output ih =>
      have hbefore := ih (fun o ho => h o (List.mem_append_left _ ho))
      rw [written_concat]
      rcases hdone : ((fs.written header outputs).write header output.1 output.2).2 with f | status
      · exact hbefore.trans (grows_of_write _ header hdone)
      · have hnull := h output (List.mem_append_right _ List.mem_cons_self)
        exact absurd (nullFree_of_write _ header hdone) hnull

/-- How writing several outputs can end. -/
inductive WriteEnds (fs : FileSystem) (header : String) (outputs : List (Path × String)) :
    FileSystem × Except Fault WriteSummary → Prop
  where
  /-- All of them have been tried. -/
  | all (s : WriteSummary) : WriteEnds fs header outputs (fs.written header outputs, .ok s)
  /-- One of them has a path that is refused, and no later one was tried. -/
  | refused {earlier later : List (Path × String)} {output : Path × String} {f : Fault}
    (hsplit : outputs = earlier ++ output :: later)
    (herror : ((fs.written header earlier).write header output.1 output.2).2 = .error f)
    (hcause : f.cause = .nullCharacter) :
    WriteEnds fs header outputs (fs.written header (earlier ++ [output]), .error f)

/-- Writing goes on from the files that the first output left. -/
theorem WriteEnds.cons {output : Path × String} {outputs : List (Path × String)}
    {ending : FileSystem × Except Fault WriteSummary}
    (h : WriteEnds (fs.write header output.1 output.2).1 header outputs ending) :
    WriteEnds fs header (output :: outputs) ending := by
  have hfirst : ∀ rest, (fs.write header output.1 output.2).1.written header rest =
      fs.written header (output :: rest) := fun rest => rfl
  cases h with
  | all s =>
      rw [hfirst]
      exact WriteEnds.all s
  | @refused earlier later output' f hsplit herror hcause =>
      rw [hfirst] at herror ⊢
      have hsplit' : output :: outputs = (output :: earlier) ++ output' :: later := by
        rw [hsplit, List.cons_append]
      exact WriteEnds.refused hsplit' herror hcause

/-- Writing ends in one of these ways. The induction is on the outputs that
    are left. -/
theorem writeEnds_writeFrom (outputs : List (Path × String)) :
    ∀ (fs : FileSystem) (s : WriteSummary),
      WriteEnds fs header outputs (fs.writeFrom header s outputs) := by
  induction outputs with
  | nil => intro fs s; exact WriteEnds.all s
  | cons output outputs ih =>
      intro fs s
      rcases output with ⟨p, body⟩
      rcases hwrite : fs.write header p body with ⟨fs', result⟩
      -- Unless the path is refused, the run goes on with the outputs that are left.
      have hstep : ∀ s', WriteEnds fs header ((p, body) :: outputs)
          (fs'.writeFrom header s' outputs) := by
        intro s'
        refine WriteEnds.cons fs header ?_
        rw [hwrite]
        exact ih fs' s'
      rw [writeFrom, hwrite]
      rcases result with f | status
      · simp only []
        by_cases hrefused : f.refusesPath = true
        · rw [if_pos hrefused]
          have hone : fs' = fs.written header ([] ++ [(p, body)]) :=
            (congrArg Prod.fst hwrite).symm
          rw [hone]
          exact WriteEnds.refused rfl (congrArg Prod.snd hwrite) (eq_of_beq hrefused)
        · rw [if_neg hrefused]
          exact hstep _
      · exact hstep _

end FileSystem

end Stencil
