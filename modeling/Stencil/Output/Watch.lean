import Stencil.FileSystem.Lookup
import Stencil.Output.Place
import Stencil.Reference.Graph

/-!
# What Outputs Depend On

The templates that a build tool has to watch.

An output depends on its query and on what the query reaches. The answer needs
the graph alone: nothing is rendered. An output is asked for by its path,
absolute or relative to the root of the tree, with or without links in it.

## Main definitions

* `Graph.watchSets`: What every query depends on.
* `Graph.outputIndex`: Outputs and their queries.
* `Graph.queryForOutput`: The query of an output.
* `Graph.watchPaths`: What an output, or all of them, depend on.
* `rerunLines`: Paths as lines for a build tool.

## Theorems

* `length_rerunLines`: There is one line for each path.
-/

namespace Stencil

/-- Why the query of an output is not found. -/
inductive LookupError where
  /-- No query has the output. -/
  | unknown (output : Path)
  /-- The links of the path form a loop. -/
  | linkLoop
  /-- The path is one that no file can have. -/
  | badPath
  deriving DecidableEq, Repr

/-- The report of an output that no query has. -/
def unknownOutputMessage (output : Path) : String :=
  "No template produces output '" ++ output.text ++ "'"

namespace Graph

/-- What a query depends on, ascending. -/
def watchSet (g : Graph) (query : String) : List String :=
  (g.watchSet? query).getD [query]

/-- What every query depends on. -/
def watchSets (g : Graph) : List (String × List String) :=
  g.queries.map fun q => (q.path, g.watchSet q.path)

/-- Outputs and their queries; of several queries with the same output the last
one is listed. -/
def outputIndex (g : Graph) (c : Config) : List (Path × String) :=
  g.queries.foldl (fun index q =>
    let output := q.outputPath g.catalog.root c
    index.filter (·.1 != output) ++ [(output, q.path)]) []

/-- The query of an output that is named by a path. -/
def queryForOutput (g : Graph) (fs : FileSystem) (c : Config) (output : String) :
    Except LookupError String :=
  let path := g.catalog.root.child output
  let index := g.outputIndex c
  if output.toList.contains (Char.ofNat 0) then .error .badPath
  else
    match fs.canonical? path with
    | none => .error .linkLoop
    | some real =>
      -- The path without links comes first, and then the path as it is given.
      match index.lookup real, index.lookup path with
      | some query, _ => .ok query
      | none, some query => .ok query
      | none, none => .error (.unknown path)

/-- What all queries depend on, ascending. -/
def watched (g : Graph) : List String :=
  sortedSet (g.watchSets.flatMap Prod.snd)

/-- What one output depends on, or all of them do, ascending. -/
def watchPaths (g : Graph) (fs : FileSystem) (c : Config) :
    Option String → Except LookupError (List String)
  | none => .ok g.watched
  | some output => (g.queryForOutput fs c output).map g.watchSet

/-- Paths relative to the root as absolute ones, ascending. -/
def absolutePaths (g : Graph) (paths : List String) : List String :=
  sortedSet (paths.map fun p => (g.catalog.root.child p).text)

end Graph

/-- What a line for a build tool starts with. -/
def rerunMark : String :=
  "cargo:rerun-if-changed="

/-- Paths as lines for a build tool. -/
def rerunLines (mark : String) (paths : List String) : List String :=
  paths.map (mark ++ ·)

theorem length_rerunLines (mark : String) (paths : List String) :
    (rerunLines mark paths).length = paths.length := by
  simp [rerunLines]

end Stencil
