import Stencil.Reference.Directive
import Stencil.Reference.Resolver

/-!
# The Reference Graph

Which template needs which, along edges found by scanning.

The graph holds edges between templates of a catalog and a table of what each
name in each template refers to. `Reaches` is reachability along edges, the
measure of everything that is computed here: `findCycle` looks for a node that
a query reaches and that reaches itself, and `closure` collects what a node
reaches.

Closures are remembered, so that a template shared by many is visited once. A
node from which a cycle can be reached has no closure: the walk along the
edges would not end, and the attempt fails after more steps than there are
edges.

## Main definitions

* `Graph`: A catalog, its edges and its table of references.
* `Graph.Reaches`: Reachability by one edge or more.
* `Graph.findCycle`: A cycle that a query reaches.
* `Graph.closure`: What a node reaches, with the closures found on the way.
* `Graph.dependencies`, `Graph.watchSet`: A query's files, as lists.
-/

namespace Stencil

/-- One template needs another. -/
structure Edge where
  /-- The template that needs. -/
  source : String
  /-- The template that is needed. -/
  target : String
  /-- Why it is needed. -/
  kind : EdgeKind
  deriving DecidableEq, Repr

/-- What a name in a template refers to. -/
abbrev References := List ((String × String) × String)

/-- Templates, the edges between them, and what their references mean. -/
structure Graph where
  /-- The templates. -/
  catalog : Catalog
  /-- The edges, each once. -/
  edges : List Edge
  /-- What a name in a template refers to. -/
  references : References

/-- Closures found so far. -/
abbrev Closures := List (String × List String)

namespace Graph

/-- The graph with given edges, unless an end of an edge is no template. -/
def ofEdges (c : Catalog) (edges : List Edge) (references : References) :
    Except ResolutionError Graph :=
  let bad := edges.findSome? fun e =>
    ([e.source, e.target].find? fun p => !c.has p).map fun p => (e.source, p)
  match bad with
  | some (source, missing) => .error (.unresolved source missing)
  | none => .ok ⟨c, edges.eraseDups, references⟩

/-- The templates that are rendered. -/
def queries (g : Graph) : List Source :=
  g.catalog.queries

/-- What a template needs directly, ascending. -/
def importsOf (g : Graph) (path : String) : List String :=
  sortedSet ((g.edges.filter (·.source == path)).map (·.target))

/-- What a name in a template refers to, if the table says so. -/
def resolve (g : Graph) (importer name : String) : Option String :=
  g.references.lookup (importer, name)

/-- One template reaches another by one edge or more. -/
inductive Reaches (g : Graph) : String → String → Prop where
  /-- Along one edge. -/
  | edge {e : Edge} (h : e ∈ g.edges) : Reaches g e.source e.target
  /-- Along one edge and then further. -/
  | step {e : Edge} {target : String} (h : e ∈ g.edges) (rest : Reaches g e.target target) :
    Reaches g e.source target

/-- How a visit ended: with a cycle, or with more nodes that are done. -/
abbrev Visit := Except (List String) (List String)

/-- Visits nodes one after the other, each with the nodes done before it. -/
def visitAll (visit : String → List String → Visit) (active : List String) :
    List String → List String → Visit
  | [], done => .ok done
  | t :: ts, done =>
    -- The cycle is the way from the node back to it, without what leads there.
    if active.contains t then .error (active.dropWhile (· != t) ++ [t])
    else if done.contains t then visitAll visit active ts done
    else
      match visit t done with
      | .error cycle => .error cycle
      | .ok done' => visitAll visit active ts done'

/-- Visits a node and what it needs. `active` lists the nodes on the way to
it, from the query on; the count bounds how many more there can be. -/
def visit (g : Graph) : Nat → List String → String → List String → Visit
  | 0, active, node, _ => .error (active ++ [node])
  | fuel + 1, active, node, done =>
    let here := active ++ [node]
    match visitAll (g.visit fuel here) here (g.importsOf node) done with
    | .error cycle => .error cycle
    | .ok done' => .ok (node :: done')

/-- A cycle that a query reaches, its first node repeated at the end. -/
def findCycle (g : Graph) : Option (List String) :=
  match visitAll (g.visit (g.edges.length + 1) []) [] (g.queries.map (·.path)) [] with
  | .error cycle => some cycle
  | .ok _ => none

/-- Collects the closures of several nodes and the nodes themselves. -/
def collect (close : Closures → String → Option (List String) × Closures) :
    List String → List String → Closures → Option (List String) × Closures
  | [], found, known => (some found, known)
  | t :: ts, found, known =>
    match close known t with
    | (none, known') => (none, known')
    | (some more, known') => collect close ts (found ++ t :: more) known'

/-- What a node reaches, ascending, and the closures found on the way. The
count bounds the length of a way; nothing is found if it is used up. -/
def closeFrom (g : Graph) : Nat → Closures → String → Option (List String) × Closures
  | 0, known, _ => (none, known)
  | fuel + 1, known, path =>
    match known.lookup path with
    | some found => (some found, known)
    | none =>
      match collect (g.closeFrom fuel) (g.importsOf path) [] known with
      | (none, known') => (none, known')
      | (some found, known') =>
        let closure := sortedSet found
        (some closure, (path, closure) :: known')

/-- What a node reaches, given the closures known so far. -/
def closure (g : Graph) (known : Closures) (path : String) : Option (List String) × Closures :=
  g.closeFrom (g.edges.length + 2) known path

/-- What a node reaches, if it reaches no cycle. -/
def closure? (g : Graph) (path : String) : Option (List String) :=
  (g.closure [] path).1

/-- A node and then what it reaches. -/
def dependencies? (g : Graph) (path : String) : Option (List String) :=
  (g.closure? path).map (path :: ·)

/-- A node and what it reaches, ascending. -/
def watchSet? (g : Graph) (path : String) : Option (List String) :=
  (g.closure? path).map fun found => sortedSet (path :: found)

end Graph

end Stencil
