import Stencil.Output.Place
import Stencil.Render.Basic

/-!
# Rendering Tasks

Every query of a graph as a task of its own, and what came of the tasks.

Tasks only read the graph, so they can be run in any order. What came of them
is collected in whatever order they finish; results and errors are put in the
order of their paths, which no longer shows it. One query that fails does not
stop the others.

Tasks are refused if two of them have the same output, because the one that is
written last would hide the other.

## Main definitions

* `RenderTask`, `Rendered`, `RenderError`: A task, its result, and its failure.
* `OutputConflict`: Several queries with the same output.
* `Graph.tasks`: The tasks of a graph.
* `RenderTask.run`: What comes of a task.
* `RenderReport.ofFinished`: What came of tasks that finished in some order.
* `Graph.runTasks`: What comes of tasks.

## Theorems

* `RenderReport.length_ofFinished`: Every task that finished is in one list.
-/

namespace Stencil

/-- A query that is to be rendered. -/
structure RenderTask where
  /-- The query. -/
  source : Source
  /-- The path of its output. -/
  output : Path
  /-- What the query reaches, ascending. -/
  closure : List String
  deriving DecidableEq, Repr

/-- How far a task is. -/
inductive TaskStatus where
  /-- It has not been started. -/
  | pending
  /-- It is being rendered. -/
  | rendering
  /-- It has a result. -/
  | done
  /-- It has failed. -/
  | failed
  deriving DecidableEq, Repr

/-- The word for a status. -/
def TaskStatus.text : TaskStatus → String
  | .pending => "pending"
  | .rendering => "rendering"
  | .done => "done"
  | .failed => "failed"

/-- A query that has been rendered. -/
structure Rendered where
  /-- The path of the query. -/
  source : String
  /-- The path of its output. -/
  output : Path
  /-- The text. -/
  text : String
  /-- The query and what it reaches. -/
  dependencies : List String
  deriving DecidableEq, Repr

/-- A query could not be rendered. -/
structure RenderError where
  /-- The path of the query. -/
  path : String
  /-- Why it could not be rendered. -/
  why : Template.Failure

/-- What went wrong, on its own. -/
def RenderError.diagnostic (e : RenderError) : String :=
  e.why.describe

/-- The report of a query that could not be rendered. -/
def RenderError.message (e : RenderError) : String :=
  e.path ++ ": " ++ e.diagnostic

/-- Several queries have the same output. -/
structure OutputConflict where
  /-- The output. -/
  output : Path
  /-- The paths of the queries, ascending. -/
  sources : List String
  deriving DecidableEq, Repr

/-- The report of a conflict. -/
def OutputConflict.message (c : OutputConflict) : String :=
  "Output " ++ c.output.text ++ " is produced by more than one template: " ++
    Text.joinStrings ", " c.sources

namespace RenderTask

/-- The path of the query. -/
def path (t : RenderTask) : String :=
  t.source.path

/-- The query and then what it reaches. -/
def dependencies (t : RenderTask) : List String :=
  t.path :: t.closure

/-- The tasks among some that have an output. -/
def withOutput (ts : List RenderTask) (output : Path) : List RenderTask :=
  ts.filter (·.output == output)

/-- The first output that several tasks have. -/
def conflict? (ts : List RenderTask) : Option OutputConflict :=
  (ts.find? fun t => 1 < (withOutput ts t.output).length).map fun t =>
    ⟨t.output, sortedSet ((withOutput ts t.output).map path)⟩

/-- What comes of a task. -/
def run (g : Graph) (context : List (String × Datum)) (t : RenderTask) :
    Except RenderError Rendered :=
  match g.render context t.path t.closure with
  | .ok text => .ok ⟨t.path, t.output, text, t.dependencies⟩
  | .error why => .error ⟨t.path, why⟩

end RenderTask

/-- The task of a query. -/
def Graph.taskOf (g : Graph) (c : Config) (query : Source) : RenderTask :=
  ⟨query, query.outputPath g.catalog.root c, (g.closure? query.path).getD []⟩

/-- The tasks of a graph, in the order of their paths. -/
def Graph.tasks (g : Graph) (c : Config) : Except OutputConflict (List RenderTask) :=
  let ts := g.queries.map (g.taskOf c)
  match RenderTask.conflict? ts with
  | some conflict => .error conflict
  | none => .ok ts

/-- What came of tasks. -/
structure RenderReport where
  /-- The tasks and how far they are. -/
  tasks : List (RenderTask × TaskStatus)
  /-- The results, in the order of their paths. -/
  results : List Rendered
  /-- The errors, in the order of their paths. -/
  errors : List RenderError

namespace RenderReport

/-- Every task has a result. -/
def isSuccess (r : RenderReport) : Bool :=
  r.errors.isEmpty

/-- The result of a task that has one. -/
def resultOf? : Except RenderError Rendered → Option Rendered
  | .ok r => some r
  | .error _ => none

/-- The error of a task that has one. -/
def errorOf? : Except RenderError Rendered → Option RenderError
  | .ok _ => none
  | .error e => some e

/-- The path of a task that finished. -/
def pathOf : Except RenderError Rendered → String
  | .ok r => r.source
  | .error e => e.path

/-- How far a task is, given what has finished. -/
def statusIn (finished : List (Except RenderError Rendered)) (t : RenderTask) : TaskStatus :=
  match finished.find? (pathOf · == t.path) with
  | none => .pending
  | some (.ok _) => .done
  | some (.error _) => .failed

/-- What came of tasks that finished in some order. -/
def ofFinished (tasks : List RenderTask) (finished : List (Except RenderError Rendered)) :
    RenderReport where
  tasks := tasks.map fun t => (t, statusIn finished t)
  results := (finished.filterMap resultOf?).mergeSort fun a b => !decide (b.source < a.source)
  errors := (finished.filterMap errorOf?).mergeSort fun a b => !decide (b.path < a.path)

theorem length_filterMap_resultOf? (finished : List (Except RenderError Rendered)) :
    (finished.filterMap resultOf?).length + (finished.filterMap errorOf?).length =
      finished.length := by
  induction finished with
  | nil => rfl
  | cons x xs ih =>
    cases x <;> simp [List.filterMap_cons, resultOf?, errorOf?] <;> omega

theorem length_ofFinished (tasks : List RenderTask)
    (finished : List (Except RenderError Rendered)) :
    (ofFinished tasks finished).results.length + (ofFinished tasks finished).errors.length =
      finished.length := by
  simp [ofFinished, length_filterMap_resultOf?]

end RenderReport

/-- What comes of some tasks. -/
def Graph.runTasks (g : Graph) (context : List (String × Datum)) (ts : List RenderTask) :
    RenderReport :=
  RenderReport.ofFinished ts (ts.map (RenderTask.run g context))

end Stencil
