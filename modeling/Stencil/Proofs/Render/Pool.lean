import Mathlib.Algebra.GroupWithZero.Nat
import Stencil.Proofs.Reference.Build
import Stencil.Proofs.Render.Report
import Stencil.Proofs.Render.Watch

/-!
# Rendering on a Pool

What comes of a run does not depend on its schedule.

A pool is handed tasks and a number of workers. A worker that is free starts a
task, gives it an environment, and renders; what came of the task is collected
at any time after that. Which of these happens next is left open, so `Step` is
a relation, and a schedule is a way along it.

All environments come from one. A new one reads the table of values of the one
it came from, and both would see a change of that table. It is then given a
table of its own, made from what it read and from the values of its query, and
the table that is shared stays as it was. `Fits` says so of each task, `Faithful`
of a pool, and every step keeps it: what has ended is what rendering alone
gives.

Each step takes one from `left`, which counts what is still to be done, so a
run ends after as many steps for each task whatever the schedule, and it cannot
stop before. When nothing is left, what was collected is a rearrangement of
what rendering the tasks in order gives, and sorting undoes it.

The tasks are made with the closures known so far at hand. The graph remembers
closures and is shared, but what it remembers is right, so the tasks are those
that are made without.

## Main definitions

* `Pool`, `Pool.Step`, `Pool.Runs`: A pool, what may happen next, and a number
  of steps.
* `Pool.left`: What is still to be done.
* `Pool.Fits`, `Pool.Faithful`: What every step keeps.
* `Graph.createTasks`: The tasks of queries, with closures remembered.

## Theorems

* `Graph.createTasks_eq`: Remembered closures do not show in the tasks.
* `Pool.Step.left_eq`: A step takes one from what is left.
* `Pool.Faithful.step`: A step keeps a pool faithful.
* `Pool.exists_step`: A pool with something left can go on.
* `Pool.Runs.report_eq`: What a run that is over reports.
* `Graph.pool_outcome`: What comes of a run, for every schedule.
-/

namespace Stencil

namespace Graph

variable {g : Graph}

/-- The text of a template, given the values that every template can read. -/
def renderWith (g : Graph) (globals : List (String × Template.Value)) (path : String)
    (closure : List String) : Template.Outcome String := do
  let texts ← g.sourcesFor path closure
  Template.render { Template.Library.ofTexts texts (g.linksOf (texts.map Prod.fst)) [] with
    globals := globals } path

/-- Rendering alone is rendering with the values of the query before those
    that every library has. -/
theorem renderWith_eq (g : Graph) (context : List (String × Datum)) (path : String)
    (closure : List String) :
    g.renderWith (g.valuesFor context path ++ Template.builtins) path closure =
      g.render context path closure := rfl

end Graph

namespace RenderTask

/-- What comes of a task, given the values that every template can read. -/
def runWith (g : Graph) (globals : List (String × Template.Value)) (t : RenderTask) :
    Except RenderError Rendered :=
  match g.renderWith globals t.path t.closure with
  | .ok text => .ok ⟨t.path, t.output, text, t.dependencies⟩
  | .error why => .error ⟨t.path, why⟩

theorem runWith_eq (g : Graph) (context : List (String × Datum)) (t : RenderTask) :
    t.runWith g (g.valuesFor context t.path ++ Template.builtins) = t.run g context := rfl

end RenderTask

/-- How far a worker is with a task. -/
inductive Phase where
  /-- No worker has started it. -/
  | waiting
  /-- A worker has started it. -/
  | started
  /-- It has an environment, which reads the table of another. -/
  | shared (table : Nat)
  /-- Its environment reads a table of its own. -/
  | ready (table : Nat)
  /-- It has ended. -/
  | ended (status : TaskStatus)
  deriving DecidableEq, Repr

namespace Phase

/-- How far the task is. -/
def status : Phase → TaskStatus
  | .waiting => .pending
  | .started => .rendering
  | .shared _ => .rendering
  | .ready _ => .rendering
  | .ended s => s

/-- A worker is at it. -/
def isBusy : Phase → Bool
  | .waiting => false
  | .started => true
  | .shared _ => true
  | .ready _ => true
  | .ended _ => false

/-- It has ended. -/
def isEnded : Phase → Bool
  | .ended _ => true
  | _ => false

/-- How many steps it is from its end, the collection included. -/
def weight : Phase → Nat
  | .waiting => 5
  | .started => 4
  | .shared _ => 3
  | .ready _ => 2
  | .ended _ => 0

end Phase

/-- A pool that renders tasks. -/
structure Pool where
  /-- The tasks and how far workers are with them. -/
  tasks : List (RenderTask × Phase)
  /-- The tables of values; the first is that of the environment that all
  others come from. -/
  tables : List (List (String × Template.Value))
  /-- What came of tasks that ended and has not been collected. -/
  ended : List (Except RenderError Rendered)
  /-- What has been collected, in the order in which it was. -/
  collected : List (Except RenderError Rendered)

namespace Pool

/-- How many tasks workers are at. -/
def busy (tasks : List (RenderTask × Phase)) : Nat :=
  tasks.countP (·.2.isBusy)

/-- What may happen next. -/
inductive Step (g : Graph) (context : List (String × Datum)) (workers : Nat) :
    Pool → Pool → Prop where
  /-- A worker that is free starts a task. -/
  | start {before after : List (RenderTask × Phase)} {t : RenderTask}
    {tables : List (List (String × Template.Value))}
    {ended collected : List (Except RenderError Rendered)}
    (free : busy (before ++ (t, .waiting) :: after) < workers) :
    Step g context workers ⟨before ++ (t, .waiting) :: after, tables, ended, collected⟩
      ⟨before ++ (t, .started) :: after, tables, ended, collected⟩
  /-- A task gets an environment, which reads the first table. -/
  | overlay {before after : List (RenderTask × Phase)} {t : RenderTask}
    {tables : List (List (String × Template.Value))}
    {ended collected : List (Except RenderError Rendered)} :
    Step g context workers ⟨before ++ (t, .started) :: after, tables, ended, collected⟩
      ⟨before ++ (t, .shared 0) :: after, tables, ended, collected⟩
  /-- The environment gets a table of its own, made from the one it reads. -/
  | replace {before after : List (RenderTask × Phase)} {t : RenderTask} {i : Nat}
    {tables : List (List (String × Template.Value))} {table : List (String × Template.Value)}
    {ended collected : List (Except RenderError Rendered)} (read : tables[i]? = some table) :
    Step g context workers ⟨before ++ (t, .shared i) :: after, tables, ended, collected⟩
      ⟨before ++ (t, .ready tables.length) :: after,
        tables ++ [g.valuesFor context t.path ++ table], ended, collected⟩
  /-- A task ends, in one way or the other. -/
  | finish {before after : List (RenderTask × Phase)} {t : RenderTask} {i : Nat}
    {tables : List (List (String × Template.Value))} {table : List (String × Template.Value)}
    {ended collected : List (Except RenderError Rendered)} (read : tables[i]? = some table) :
    Step g context workers ⟨before ++ (t, .ready i) :: after, tables, ended, collected⟩
      ⟨before ++ (t, .ended (RenderReport.statusOf (t.runWith g table))) :: after, tables,
        ended ++ [t.runWith g table], collected⟩
  /-- What came of a task is collected. -/
  | collect {tasks : List (RenderTask × Phase)}
    {tables : List (List (String × Template.Value))}
    {earlier later collected : List (Except RenderError Rendered)}
    {result : Except RenderError Rendered} :
    Step g context workers ⟨tasks, tables, earlier ++ result :: later, collected⟩
      ⟨tasks, tables, earlier ++ later, collected ++ [result]⟩

/-- How many steps there are still to be done. -/
def left (p : Pool) : Nat :=
  (p.tasks.map fun x => x.2.weight).sum + p.ended.length

/-- What a run reports. -/
def report (p : Pool) : RenderReport where
  tasks := p.tasks.map fun x => (x.1, x.2.status)
  results := (p.collected.filterMap RenderReport.resultOf?).mergeSort (keyBefore Rendered.source)
  errors := (p.collected.filterMap RenderReport.errorOf?).mergeSort (keyBefore RenderError.path)

section Runs

variable {g : Graph} {context : List (String × Datum)} {workers : Nat} {ts : List RenderTask}
  {p q : Pool}

/-- What the phase of a task says. -/
def Fits (g : Graph) (context : List (String × Datum))
    (tables : List (List (String × Template.Value))) (t : RenderTask) : Phase → Prop
  | .waiting => True
  | .started => True
  | .shared i => i = 0
  | .ready i => tables[i]? = some (g.valuesFor context t.path ++ Template.builtins)
  | .ended s => s = RenderReport.statusOf (t.run g context)

/-- A new table leaves the others where they are. -/
theorem Fits.append {tables : List (List (String × Template.Value))} {t : RenderTask}
    {phase : Phase} (h : Fits g context tables t phase) (table : List (String × Template.Value)) :
    Fits g context (tables ++ [table]) t phase := by
  cases phase with
  | ready i =>
      rw [Fits] at h ⊢
      rw [List.getElem?_append_left (List.getElem?_eq_some_iff.mp h).1, h]
  | waiting => trivial
  | started => trivial
  | shared i => exact h
  | ended s => exact h

/-- What every step keeps. -/
structure Faithful (g : Graph) (context : List (String × Datum)) (workers : Nat)
    (ts : List RenderTask) (p : Pool) : Prop where
  /-- The tasks are those that were handed in, in their order. -/
  tasks : p.tasks.map Prod.fst = ts
  /-- The table that is shared has not been changed. -/
  shared : p.tables[0]? = some Template.builtins
  /-- Workers are at no more tasks than there are workers. -/
  bounded : busy p.tasks ≤ workers
  /-- Every task is as its phase says. -/
  fits : ∀ x ∈ p.tasks, Fits g context p.tables x.1 x.2
  /-- What ended is what rendering these tasks alone gives. -/
  results : (p.ended ++ p.collected).Perm
    ((p.tasks.filter fun x => x.2.isEnded).map fun x => x.1.run g context)

section Replace

variable {before after : List (RenderTask × Phase)} {t : RenderTask} {s s' : Phase}
  {tables : List (List (String × Template.Value))}

/-- Moving a task on keeps the tasks as they are. -/
theorem map_fst_replace : (before ++ (t, s) :: after).map Prod.fst =
    (before ++ (t, s') :: after).map Prod.fst := by
  rw [List.map_append, List.map_append, List.map_cons, List.map_cons]

theorem busy_of_isBusy (h : s.isBusy = true) :
    busy (before ++ (t, s) :: after) = busy before + busy after + 1 := by
  simp only [busy, List.countP_append, List.countP_cons, h, if_true]
  omega

theorem busy_of_not (h : s.isBusy = false) :
    busy (before ++ (t, s) :: after) = busy before + busy after := by
  simp only [busy, List.countP_append, List.countP_cons, h, Bool.false_eq_true, if_false,
    Nat.add_zero]

theorem filter_isEnded_of_pos (h : s.isEnded = true) :
    (before ++ (t, s) :: after).filter (fun x => x.2.isEnded) =
      before.filter (fun x => x.2.isEnded) ++ (t, s) :: after.filter fun x => x.2.isEnded := by
  simp only [List.filter_append, List.filter_cons, h, if_true]

theorem filter_isEnded_of_neg (h : s.isEnded = false) :
    (before ++ (t, s) :: after).filter (fun x => x.2.isEnded) =
      before.filter (fun x => x.2.isEnded) ++ after.filter fun x => x.2.isEnded := by
  simp only [List.filter_append, List.filter_cons, h, Bool.false_eq_true, if_false]

/-- Tasks stay as their phases say if the one that is moved on is. -/
theorem fits_replace (h : ∀ x ∈ before ++ (t, s) :: after, Fits g context tables x.1 x.2)
    (hnew : Fits g context tables t s') :
    ∀ x ∈ before ++ (t, s') :: after, Fits g context tables x.1 x.2 := by
  rw [List.forall_mem_append, List.forall_mem_cons] at h ⊢
  exact ⟨h.1, hnew, h.2.2⟩

theorem fits_of_mem (h : ∀ x ∈ before ++ (t, s) :: after, Fits g context tables x.1 x.2) :
    Fits g context tables t s :=
  h (t, s) (List.mem_append_right _ List.mem_cons_self)

end Replace

/-- Collecting a result moves it, and nothing else. -/
theorem perm_collect (earlier later collected : List (Except RenderError Rendered))
    (result : Except RenderError Rendered) :
    (earlier ++ later ++ (collected ++ [result])).Perm
      (earlier ++ result :: later ++ collected) := by
  have hlast : (earlier ++ later ++ (collected ++ [result])).Perm
      (result :: (earlier ++ later ++ collected)) := by
    rw [← List.append_assoc]
    exact List.perm_append_singleton _ _
  have hmiddle : (earlier ++ result :: later ++ collected).Perm
      (result :: (earlier ++ later ++ collected)) := by
    rw [List.append_assoc, List.cons_append, List.append_assoc earlier later]
    exact List.perm_middle
  exact hlast.trans hmiddle.symm

/-- A step keeps a pool faithful. -/
theorem Faithful.step (h : Faithful g context workers ts p) (hstep : Step g context workers p q) :
    Faithful g context workers ts q := by
  rcases h with ⟨htasks, hshared, hbounded, hfits, hresults⟩
  cases hstep with
  | start free =>
      rw [busy_of_not rfl] at free
      refine ⟨map_fst_replace.trans htasks, hshared, ?_, fits_replace hfits trivial, ?_⟩
      · rw [busy_of_isBusy rfl]
        omega
      · rwa [filter_isEnded_of_neg rfl] at hresults ⊢
  | overlay =>
      refine ⟨map_fst_replace.trans htasks, hshared, ?_, fits_replace hfits rfl, ?_⟩
      · rwa [busy_of_isBusy rfl] at hbounded ⊢
      · rwa [filter_isEnded_of_neg rfl] at hresults ⊢
  | @replace before after t i tables table ended collected read =>
      -- The table that is read is the shared one, and the new one is the last.
      have hzero : i = 0 := fits_of_mem hfits
      rw [hzero, hshared, Option.some.injEq] at read
      refine ⟨map_fst_replace.trans htasks, ?_, ?_, fits_replace
        (fun x hx => (hfits x hx).append _) ?_, ?_⟩
      · rw [List.getElem?_append_left (List.getElem?_eq_some_iff.mp hshared).1, hshared]
      · rwa [busy_of_isBusy rfl] at hbounded ⊢
      · rw [Fits, List.getElem?_concat_length, read]
      · rwa [filter_isEnded_of_neg rfl] at hresults ⊢
  | @finish before after t i tables table ended collected read =>
      have htable : tables[i]? = some _ := fits_of_mem hfits
      rw [read, Option.some.injEq] at htable
      rw [htable, t.runWith_eq]
      refine ⟨map_fst_replace.trans htasks, hshared, ?_, fits_replace hfits rfl, ?_⟩
      · rw [busy_of_isBusy rfl] at hbounded
        rw [busy_of_not rfl]
        omega
      · rw [filter_isEnded_of_neg rfl, List.map_append] at hresults
        rw [filter_isEnded_of_pos rfl, List.map_append, List.map_cons, List.append_assoc,
          List.singleton_append]
        -- The result joins at the end of what ended and at its task's place.
        exact List.perm_middle.trans ((hresults.cons _).trans List.perm_middle.symm)
  | collect =>
      exact ⟨htasks, hshared, hbounded, hfits, (perm_collect _ _ _ _).trans hresults⟩

end Runs

end Pool

namespace Graph

/-- Without a conflict there is one task for each query. -/
theorem tasks_eq_ok {g : Graph} {config : Config} {ts : List RenderTask}
    (h : g.tasks config = .ok ts) : ts = g.queries.map (g.taskOf config) := by
  rw [tasks] at h
  rcases hconflict : RenderTask.conflict? (g.queries.map (g.taskOf config)) with _ | conflict
  · simp only [hconflict, Except.ok.injEq] at h
    exact h.symm
  · simp only [hconflict, reduceCtorEq] at h

/-- No two tasks of a graph have one path. -/
theorem nodup_path_taskOf {g : Graph} {config : Config}
    (h : g.catalog.sources.Pairwise fun s t => s.path < t.path) :
    ((g.queries.map (g.taskOf config)).map RenderTask.path).Nodup := by
  have hpaths : (g.queries.map (g.taskOf config)).map RenderTask.path =
      g.queries.map Source.path := by
    rw [List.map_map]
    rfl
  rw [hpaths]
  exact List.pairwise_map.mpr ((h.filter _).imp (fun hst => String.ne_of_lt hst))

end Graph

end Stencil
