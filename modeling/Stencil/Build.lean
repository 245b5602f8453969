import Stencil.Config.Load
import Stencil.Output.Watch
import Stencil.Output.Write
import Stencil.Reference.Collect
import Stencil.Render.Task

/-!
# Builds

From a tree of templates to its outputs.

A build reads the configuration, catalogs the tree, builds the graph, renders
every query and writes the outputs, one step after the other. What goes wrong
before anything is rendered ends the build, and no file has been changed then.
What goes wrong with one query or one output is part of the report.

## Main definitions

* `BuildError`: Why there is no report.
* `BuildReport`: What a build did.
* `loadGraph`: The graph of a tree.
* `build`: Builds a tree.

## Theorems

* `BuildReport.isOk_iff`: A build is fine exactly if no query and no output
  failed.
-/

namespace Stencil

/-- Why there is no graph of a tree. -/
inductive TreeError where
  /-- The tree cannot be cataloged. -/
  | catalog (why : CatalogError)
  /-- The graph is refused. -/
  | graph (why : GraphError)
  deriving DecidableEq, Repr

/-- Why a build has no report. -/
inductive BuildError where
  /-- There is no configuration. -/
  | config (why : LoadError)
  /-- There is no graph. -/
  | tree (why : TreeError)
  /-- Two queries have the same output. -/
  | conflict (why : OutputConflict)
  /-- An output has a path that no file can have. -/
  | path (why : Fault)
  deriving DecidableEq, Repr

/-- What a build did. -/
structure BuildReport where
  /-- The root of the tree. -/
  root : Path
  /-- The queries that were rendered. -/
  results : List Rendered
  /-- The queries that could not be rendered. -/
  renderErrors : List RenderError
  /-- What became of the outputs. -/
  writes : WriteSummary
  /-- What every query depends on. -/
  watch : List (String × List String)

namespace BuildReport

/-- How many queries and outputs failed. -/
def errorCount (r : BuildReport) : Nat :=
  r.renderErrors.length + r.writes.errors.length

/-- No query and no output failed. -/
def isOk (r : BuildReport) : Bool :=
  r.renderErrors.isEmpty && r.writes.errors.isEmpty

theorem isOk_iff (r : BuildReport) : r.isOk = true ↔ r.errorCount = 0 := by
  simp [isOk, errorCount]

/-- The output could not be written. -/
def hasFailed (r : BuildReport) (output : Path) : Bool :=
  r.writes.errors.any (·.path == output)

/-- The outputs that were rendered and written. -/
def succeeded (r : BuildReport) : List Path :=
  (r.results.map (·.output)).filter fun p => !r.hasFailed p

/-- All templates that outputs depend on, ascending. -/
def watched (r : BuildReport) : List String :=
  sortedSet (r.watch.flatMap Prod.snd)

end BuildReport

/-- The graph of a tree, with the warnings of its walk. -/
def loadGraph (fs : FileSystem) (root : Path) (c : Config) :
    Catalog.Notes × Except TreeError Graph :=
  match Catalog.build fs root c with
  | (notes, .error why) => (notes, .error (.catalog why))
  | (notes, .ok catalog) => (notes, (Graph.build catalog c).mapError .graph)

/-- Renders the queries of a graph and writes their outputs. -/
def buildGraph (fs : FileSystem) (g : Graph) (c : Config) :
    FileSystem × Except BuildError BuildReport :=
  match g.tasks c with
  | .error why => (fs, .error (.conflict why))
  | .ok tasks =>
    let report := g.runTasks c.context tasks
    match fs.writeAll c.header (report.results.map fun r => (r.output, r.text)) with
    | (fs', .error why) => (fs', .error (.path why))
    | (fs', .ok writes) =>
      (fs', .ok ⟨g.catalog.root, report.results, report.errors, writes, g.watchSets⟩)

/-- What a step leaves behind: the warnings, the files, and the outcome. -/
structure BuildOutcome where
  /-- The warnings of the walk. -/
  notes : Catalog.Notes
  /-- The files after the build. -/
  files : FileSystem
  /-- The report, or why there is none. -/
  report : Except BuildError BuildReport

/-- Builds a tree with a configuration. -/
def buildWith (fs : FileSystem) (root : Path) (c : Config) : BuildOutcome :=
  match loadGraph fs root c with
  | (notes, .error why) => ⟨notes, fs, .error (.tree why)⟩
  | (notes, .ok g) =>
    let (fs', report) := buildGraph fs g c
    ⟨notes, fs', report⟩

/-- Builds a tree, with the configuration found there if none is given. -/
def build (fs : FileSystem) (root : Path) (c : Option Config) : BuildOutcome :=
  match c.elim (Config.load fs root none) .ok with
  | .error why => ⟨[], fs, .error (.config why)⟩
  | .ok c => buildWith fs root c

end Stencil
