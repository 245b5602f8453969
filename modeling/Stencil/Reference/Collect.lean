import Stencil.Reference.Graph

/-!
# Building the Graph

From a catalog to its reference graph.

Every template is scanned and every reference resolved before anything is
decided, so that all failures are reported at once. An include that forgives
a missing target makes no edge and no failure. The graph is refused if some
reference is not resolved, or if a query reaches a cycle.

## Main definitions

* `Collected`: The edges, the table and the failures of a catalog.
* `collectEdges`: What scanning and resolving a catalog gives.
* `Graph.build`: The graph of a catalog.
-/

namespace Stencil

/-- What scanning and resolving gives. -/
structure Collected where
  /-- The edges, in the order in which they were found. -/
  edges : List Edge
  /-- What the names in the templates refer to. -/
  references : References
  /-- The references that were not resolved. -/
  failures : List ResolutionError

/-- Why a graph is refused. -/
inductive GraphError where
  /-- Some references were not resolved. -/
  | unresolved (failures : List ResolutionError)
  /-- An end of an edge is no template. -/
  | notTemplate (e : ResolutionError)
  /-- A query reaches a cycle. -/
  | cycle (nodes : List String)
  deriving DecidableEq, Repr

/-- The report of a cycle. -/
def cycleMessage (nodes : List String) : String :=
  "Import cycle detected: " ++ Text.joinStrings " -> " nodes

/-- The report of references that were not resolved. -/
def failuresMessage (failures : List ResolutionError) : String :=
  s!"{failures.length} import(s) could not be resolved:\n" ++
    Text.joinStrings "\n" (failures.map fun f => "  - " ++ f.message)

/-- The report of a graph that is refused. -/
def GraphError.message : GraphError → String
  | .unresolved failures => failuresMessage failures
  | .notTemplate e => e.message
  | .cycle nodes => cycleMessage nodes

/-- The templates that hold references that were not resolved, ascending. -/
def failingFiles (failures : List ResolutionError) : List String :=
  sortedSet (failures.map (·.importer))

/-- Adds an entry to the table, in place of an older one. -/
def References.set (refs : References) (key : String × String) (target : String) : References :=
  (key, target) :: refs.filter (·.1 != key)

/-- One reference of a template, resolved and recorded. -/
def collectDirective (source : Source) (state : Collected × Resolver) (d : Directive) :
    Collected × Resolver :=
  let (found, resolver) := state
  match resolver.resolve source d.name with
  | (.ok target, resolver') =>
    let edge : Edge := ⟨source.path, target, d.tag.kind⟩
    ({ found with
        edges := (found.edges ++ [edge]).eraseDups
        references := References.set found.references (source.path, d.name) target }, resolver')
  | (.error (.unresolved importer name), resolver') =>
    if d.optional then (found, resolver')
    else ({ found with failures := found.failures ++ [.unresolved importer name] }, resolver')
  | (.error e, resolver') => ({ found with failures := found.failures ++ [e] }, resolver')

/-- All references of a template, resolved and recorded. -/
def collectSource (state : Collected × Resolver) (source : Source) : Collected × Resolver :=
  (Reference.scan source.content).foldl (collectDirective source) state

/-- The edges, the table and the failures of a catalog. -/
def collectEdges (c : Catalog) (resolver : Resolver) : Collected :=
  (c.sources.foldl collectSource ({ edges := [], references := [], failures := [] }, resolver)).1

/-- The graph of a catalog. -/
def Graph.build (c : Catalog) (config : Config) : Except GraphError Graph :=
  let found := collectEdges c (Resolver.ofCatalog c config.partialsDir)
  if found.failures.isEmpty then
    match Graph.ofEdges c found.edges found.references with
    | .error e => .error (.notTemplate e)
    | .ok g =>
      match g.findCycle with
      | some nodes => .error (.cycle nodes)
      | none => .ok g
  else .error (.unresolved found.failures)

end Stencil
