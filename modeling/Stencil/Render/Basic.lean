import Stencil.Reference.Graph
import Stencil.Template.Render

/-!
# Rendering Queries

The text of a template of a graph.

While a template is rendered it sees itself and the templates of a closure,
and names in them stand for what the graph says they refer to. Every template
can read the context and its logical name under `this`, which wins over an
entry of the context.

## Main definitions

* `Graph.sourcesFor`: The texts that a render sees.
* `Graph.library`: The library of a render.
* `Graph.render`: The text of a template.

## Theorems

* `Graph.paths_sourcesFor`: A render sees the template and the closure, and
  nothing else.
-/

namespace Stencil

namespace Graph

/-- The text of a template; a path that the catalog does not have is a bad
key. -/
def contentOf (g : Graph) (path : String) : Template.Outcome (String × String) :=
  match g.catalog.find? path with
  | some s => .ok (path, s.content)
  | none => .error ⟨.badKey, Text.quoted path⟩

/-- The texts that a render of a template sees, given a closure. -/
def sourcesFor (g : Graph) (path : String) (closure : List String) :
    Template.Outcome (List (String × String)) :=
  (path :: sortedSet closure).mapM g.contentOf

theorem contentOf_fst (g : Graph) {path : String} {t : String × String}
    (h : g.contentOf path = .ok t) : t.1 = path := by
  unfold contentOf at h
  split at h
  · cases h
    rfl
  · cases h

theorem paths_mapM_contentOf (g : Graph) (paths : List String) (ts : List (String × String))
    (h : paths.mapM g.contentOf = .ok ts) : ts.map Prod.fst = paths := by
  induction paths generalizing ts with
  | nil =>
    cases h
    rfl
  | cons p ps ih =>
    rw [List.mapM_cons] at h
    cases hc : g.contentOf p with
    | error e => simp [hc, bind, Except.bind] at h
    | ok t =>
      cases hr : ps.mapM g.contentOf with
      | error e => simp [hc, hr, bind, Except.bind] at h
      | ok us =>
        simp [hc, hr, bind, Except.bind, pure, Except.pure] at h
        rw [← h, List.map_cons, contentOf_fst g hc, ih us hr]

theorem paths_sourcesFor (g : Graph) (path : String) (closure : List String)
    (ts : List (String × String)) (h : g.sourcesFor path closure = .ok ts) :
    ts.map Prod.fst = path :: sortedSet closure :=
  paths_mapM_contentOf g _ ts h

/-- The table of references in some templates. -/
def linksOf (g : Graph) (paths : List String) : References :=
  g.references.filter fun r => paths.contains r.1.1

/-- What every template can read while a template is rendered. -/
def valuesFor (g : Graph) (context : List (String × Datum)) (path : String) :
    List (String × Template.Value) :=
  let name := ((g.catalog.find? path).map Source.logicalName).getD path
  ("this", .text name) :: context.map fun e => (e.1, .ofDatum e.2)

/-- The library of a render that sees some texts. -/
def library (g : Graph) (context : List (String × Datum)) (path : String)
    (texts : List (String × String)) : Template.Library :=
  .ofTexts texts (g.linksOf (texts.map Prod.fst)) (g.valuesFor context path)

/-- The text of a template of a graph, given a closure. -/
def render (g : Graph) (context : List (String × Datum)) (path : String)
    (closure : List String) : Template.Outcome String := do
  let texts ← g.sourcesFor path closure
  Template.render (g.library context path texts) path

end Graph

end Stencil
