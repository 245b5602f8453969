import Stencil.Proofs.Sorted
import Stencil.Render.Task

/-!
# Render Reports

What a report says if every task ended as it does alone.

A report sorts what it was handed by paths. If no two tasks have one path, the
order before the sorting does not show, and a path stands in one of the two
lists and there once. `Settled` puts this together: what is in either list,
that both ascend, that each task has one entry, and that its status says
which. Rendering tasks one after the other gives a report that is settled.

## Main definitions

* `keyBefore`: The order of keys, as sorting asks for it.
* `RenderReport.statusOf`: The status of a task that ended.
* `RenderReport.Settled`: The report is about some tasks, each rendered alone.

## Theorems

* `mergeSort_eq_of_perm`: Where no two keys are equal, sorting does not show
  the order before.
* `RenderReport.perm_paths`: A path that finished is in one of two lists.
* `RenderReport.statusIn_map_run`: A status says how its task ended.
* `Graph.settled_runTasks`: Rendering one after the other is settled.
-/

namespace Stencil

section Order

variable {α : Type} {key : α → String}

/-- The order of keys, as sorting asks for it. -/
def keyBefore (key : α → String) (a b : α) : Bool :=
  !decide (key b < key a)

theorem keyBefore_iff {a b : α} : keyBefore key a b = true ↔ key a ≤ key b := by
  rw [keyBefore, Bool.not_eq_true', decide_eq_false_iff_not, String.not_lt]

/-- Sorting by a key leaves the keys in order. -/
theorem pairwise_mergeSort_key (as : List α) :
    (as.mergeSort (keyBefore key)).Pairwise fun a b => key a ≤ key b := by
  have hsorted : (as.mergeSort (keyBefore key)).Pairwise fun a b => keyBefore key a b = true := by
    refine List.pairwise_mergeSort (fun a b c hab hbc => ?_) (fun a b => ?_) as
    · rw [keyBefore_iff] at hab hbc ⊢
      exact String.le_trans hab hbc
    · rw [Bool.or_eq_true, keyBefore_iff, keyBefore_iff]
      exact String.le_total _ _
  exact hsorted.imp keyBefore_iff.mp

/-- Where no two keys are equal, sorted keys ascend strictly. -/
theorem pairwise_lt_mergeSort_key {as : List α} (hnodup : (as.map key).Nodup) :
    (as.mergeSort (keyBefore key)).Pairwise fun a b => key a < key b := by
  have hne : (as.mergeSort (keyBefore key)).Pairwise fun a b => key a ≠ key b :=
    List.pairwise_map.mp ((((List.mergeSort_perm as _).map key).nodup_iff).mpr hnodup)
  refine ((pairwise_mergeSort_key as).and hne).imp (fun {a b} hab => ?_)
  by_contra hlt
  exact hab.2 (String.le_antisymm hab.1 (String.not_lt.mp hlt))

end Order

theorem RenderTask.pathOf_run (g : Graph) (context : List (String × Datum)) (t : RenderTask) :
    RenderReport.pathOf (t.run g context) = t.path := by
  rw [RenderTask.run]
  cases g.render context t.path t.closure <;> rfl

namespace RenderReport

/-- The status of a task that ended. -/
def statusOf : Except RenderError Rendered → TaskStatus
  | .ok _ => .done
  | .error _ => .failed

theorem statusOf_eq_done_iff {x : Except RenderError Rendered} :
    statusOf x = .done ↔ ∃ r, x = .ok r := by
  cases x <;> simp only [statusOf, reduceCtorEq, Except.ok.injEq, exists_false, exists_eq']

theorem statusOf_eq_failed_iff {x : Except RenderError Rendered} :
    statusOf x = .failed ↔ ∃ e, x = .error e := by
  cases x <;> simp only [statusOf, reduceCtorEq, Except.error.injEq, exists_false, exists_eq']

theorem statusOf_over (x : Except RenderError Rendered) :
    statusOf x = .done ∨ statusOf x = .failed := by
  cases x with
  | ok r => exact Or.inl rfl
  | error e => exact Or.inr rfl

theorem results_ofFinished (ts : List RenderTask) (finished : List (Except RenderError Rendered)) :
    (ofFinished ts finished).results =
      (finished.filterMap resultOf?).mergeSort (keyBefore Rendered.source) := rfl

theorem errors_ofFinished (ts : List RenderTask) (finished : List (Except RenderError Rendered)) :
    (ofFinished ts finished).errors =
      (finished.filterMap errorOf?).mergeSort (keyBefore RenderError.path) := rfl

/-- A path that finished is in one of the two lists. -/
theorem perm_paths (finished : List (Except RenderError Rendered)) :
    ((finished.filterMap resultOf?).map Rendered.source ++
      (finished.filterMap errorOf?).map RenderError.path).Perm (finished.map pathOf) := by
  induction finished with
  | nil => exact List.Perm.nil
  | cons x xs ih =>
      cases x with
      | ok r => exact ih.cons r.source
      | error e => exact List.perm_middle.trans (ih.cons e.path)

/-- Where no path finished twice, the two lists have no path twice. -/
theorem nodup_keys {finished : List (Except RenderError Rendered)}
    (h : (finished.map pathOf).Nodup) :
    ((finished.filterMap resultOf?).map Rendered.source).Nodup ∧
      ((finished.filterMap errorOf?).map RenderError.path).Nodup := by
  have hall := (perm_paths finished).nodup_iff.mpr h
  exact ⟨hall.of_append_left, hall.of_append_right⟩

/-- What finished under a path decides the status. -/
theorem statusIn_eq {finished : List (Except RenderError Rendered)} {t : RenderTask}
    {x : Except RenderError Rendered} (hx : x ∈ finished) (hpath : pathOf x = t.path)
    (honly : ∀ y ∈ finished, pathOf y = t.path → y = x) : statusIn finished t = statusOf x := by
  rw [statusIn]
  rcases hfind : finished.find? (pathOf · == t.path) with _ | y
  · exact absurd (beq_iff_eq.mpr hpath) (List.find?_eq_none.mp hfind x hx)
  · have hy := List.find?_some hfind
    rw [beq_iff_eq] at hy
    rw [honly y (List.mem_of_find?_eq_some hfind) hy]
    cases x <;> rfl

/-- A status says how its task ended. -/
theorem statusIn_map_run (g : Graph) (context : List (String × Datum)) {ts : List RenderTask}
    (hnodup : (ts.map RenderTask.path).Nodup) {t : RenderTask} (ht : t ∈ ts) :
    statusIn (ts.map (RenderTask.run g context)) t = statusOf (t.run g context) := by
  refine statusIn_eq (List.mem_map_of_mem ht) (t.pathOf_run g context) (fun y hy hpath => ?_)
  rcases List.mem_map.mp hy with ⟨u, hu, rfl⟩
  rw [u.pathOf_run] at hpath
  rw [List.inj_on_of_nodup_map hnodup hu ht hpath]

/-- The report is about some tasks, each of which was rendered alone. -/
structure Settled (g : Graph) (context : List (String × Datum)) (ts : List RenderTask)
    (r : RenderReport) : Prop where
  /-- The tasks, in their order. -/
  tasks : r.tasks.map Prod.fst = ts
  /-- Results are texts, with the output and the files of their task. -/
  mem_results : ∀ d, d ∈ r.results ↔ ∃ t ∈ ts, ∃ text,
    g.render context t.path t.closure = .ok text ∧
      d = ⟨t.path, t.output, text, t.path :: t.closure⟩
  /-- Errors are failures. -/
  mem_errors : ∀ e, e ∈ r.errors ↔ ∃ t ∈ ts, ∃ why,
    g.render context t.path t.closure = .error why ∧ e = ⟨t.path, why⟩
  /-- Results ascend. -/
  results_ascending : r.results.Pairwise fun d d' => d.source < d'.source
  /-- Errors ascend. -/
  errors_ascending : r.errors.Pairwise fun e e' => e.path < e'.path
  /-- Every path is in one of the two lists, and there once. -/
  once : (r.results.map Rendered.source ++ r.errors.map RenderError.path).Perm
    (ts.map RenderTask.path)
  /-- A task is done if it has a result. -/
  done_iff : ∀ x ∈ r.tasks, x.2 = .done ↔ ∃ d ∈ r.results, d.source = x.1.path
  /-- A task has failed if it has an error. -/
  failed_iff : ∀ x ∈ r.tasks, x.2 = .failed ↔ ∃ e ∈ r.errors, e.path = x.1.path
  /-- No task is left waiting or in the middle. -/
  ended : ∀ x ∈ r.tasks, x.2 = .done ∨ x.2 = .failed

end RenderReport

namespace Graph

variable {g : Graph} {context : List (String × Datum)} {ts : List RenderTask}

/-- A result of some tasks is what came of one of them. -/
theorem mem_results_runTasks {r : Rendered} :
    r ∈ (g.runTasks context ts).results ↔ ∃ t ∈ ts, t.run g context = .ok r := by
  rw [runTasks, RenderReport.results_ofFinished, List.mem_mergeSort, List.filterMap_map,
    List.mem_filterMap]
  refine exists_congr (fun t => and_congr_right (fun _ => ?_))
  rw [Function.comp_apply]
  rcases t.run g context with why | r'
  · simp only [RenderReport.resultOf?, reduceCtorEq]
  · simp only [RenderReport.resultOf?, Option.some.injEq, Except.ok.injEq]

theorem mem_errors_runTasks {e : RenderError} :
    e ∈ (g.runTasks context ts).errors ↔ ∃ t ∈ ts, t.run g context = .error e := by
  rw [runTasks, RenderReport.errors_ofFinished, List.mem_mergeSort, List.filterMap_map,
    List.mem_filterMap]
  refine exists_congr (fun t => and_congr_right (fun _ => ?_))
  rw [Function.comp_apply]
  rcases t.run g context with why | r'
  · simp only [RenderReport.errorOf?, Option.some.injEq, Except.error.injEq]
  · simp only [RenderReport.errorOf?, reduceCtorEq]

theorem run_eq_ok_iff {t : RenderTask} {r : Rendered} :
    t.run g context = .ok r ↔ ∃ text, g.render context t.path t.closure = .ok text ∧
      r = ⟨t.path, t.output, text, t.path :: t.closure⟩ := by
  rw [RenderTask.run]
  rcases g.render context t.path t.closure with why | text
  · simp only [reduceCtorEq, false_and, exists_false]
  · simp only [Except.ok.injEq, exists_eq_left', RenderTask.dependencies]
    exact eq_comm

theorem run_eq_error_iff {t : RenderTask} {e : RenderError} :
    t.run g context = .error e ↔ ∃ why, g.render context t.path t.closure = .error why ∧
      e = ⟨t.path, why⟩ := by
  rw [RenderTask.run]
  rcases g.render context t.path t.closure with why | text
  · simp only [Except.error.injEq, exists_eq_left']
    exact eq_comm
  · simp only [reduceCtorEq, false_and, exists_false]

theorem map_pathOf_run : (ts.map (RenderTask.run g context)).map RenderReport.pathOf =
    ts.map RenderTask.path := by
  rw [List.map_map]
  exact List.map_congr_left (fun t _ => t.pathOf_run g context)

/-- A path has one task, so what stands under it came of that task. -/
theorem exists_result_iff (hnodup : (ts.map RenderTask.path).Nodup) {t : RenderTask}
    (ht : t ∈ ts) : (∃ d ∈ (g.runTasks context ts).results, d.source = t.path) ↔
      ∃ r, t.run g context = .ok r := by
  constructor
  · intro h
    rcases h with ⟨d, hd, hpath⟩
    rcases mem_results_runTasks.mp hd with ⟨u, hu, hrun⟩
    have hsame := u.pathOf_run g context
    rw [hrun] at hsame
    rw [List.inj_on_of_nodup_map hnodup ht hu (hpath.symm.trans hsame)]
    exact ⟨d, hrun⟩
  · intro h
    rcases h with ⟨r, hrun⟩
    have hsame := t.pathOf_run g context
    rw [hrun] at hsame
    exact ⟨r, mem_results_runTasks.mpr ⟨t, ht, hrun⟩, hsame⟩

theorem exists_error_iff (hnodup : (ts.map RenderTask.path).Nodup) {t : RenderTask}
    (ht : t ∈ ts) : (∃ e ∈ (g.runTasks context ts).errors, e.path = t.path) ↔
      ∃ e, t.run g context = .error e := by
  constructor
  · intro h
    rcases h with ⟨e, he, hpath⟩
    rcases mem_errors_runTasks.mp he with ⟨u, hu, hrun⟩
    have hsame := u.pathOf_run g context
    rw [hrun] at hsame
    rw [List.inj_on_of_nodup_map hnodup ht hu (hpath.symm.trans hsame)]
    exact ⟨e, hrun⟩
  · intro h
    rcases h with ⟨e, hrun⟩
    have hsame := t.pathOf_run g context
    rw [hrun] at hsame
    exact ⟨e, mem_errors_runTasks.mpr ⟨t, ht, hrun⟩, hsame⟩

/-- Rendering one after the other gives a report that is settled. -/
theorem settled_runTasks (g : Graph) (context : List (String × Datum))
    (hnodup : (ts.map RenderTask.path).Nodup) :
    (g.runTasks context ts).Settled g context ts := by
  have hpaths : ((ts.map (RenderTask.run g context)).map RenderReport.pathOf).Nodup := by
    rwa [map_pathOf_run]
  -- A status is looked up by the path of its task, and paths are different.
  have htask : ∀ x ∈ (g.runTasks context ts).tasks,
      x.1 ∈ ts ∧ x.2 = RenderReport.statusOf (x.1.run g context) := by
    intro x hx
    rcases List.mem_map.mp hx with ⟨t, ht, rfl⟩
    exact ⟨ht, RenderReport.statusIn_map_run g context hnodup ht⟩
  refine ⟨?_, fun d => ?_, fun e => ?_, ?_, ?_, ?_, fun x hx => ?_, fun x hx => ?_, fun x hx => ?_⟩
  · rw [runTasks, RenderReport.ofFinished, List.map_map]
    exact List.map_id ts
  · rw [mem_results_runTasks]
    exact exists_congr (fun t => and_congr_right (fun _ => run_eq_ok_iff))
  · rw [mem_errors_runTasks]
    exact exists_congr (fun t => and_congr_right (fun _ => run_eq_error_iff))
  · exact pairwise_lt_mergeSort_key (RenderReport.nodup_keys hpaths).1
  · exact pairwise_lt_mergeSort_key (RenderReport.nodup_keys hpaths).2
  · rw [← @map_pathOf_run g context ts]
    exact (((List.mergeSort_perm _ _).map _).append ((List.mergeSort_perm _ _).map _)).trans
      (RenderReport.perm_paths _)
  · rw [(htask x hx).2, RenderReport.statusOf_eq_done_iff, exists_result_iff hnodup (htask x hx).1]
  · rw [(htask x hx).2, RenderReport.statusOf_eq_failed_iff,
      exists_error_iff hnodup (htask x hx).1]
  · rw [(htask x hx).2]
    exact RenderReport.statusOf_over _

end Graph

end Stencil
