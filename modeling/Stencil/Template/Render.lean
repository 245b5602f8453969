import Stencil.Template.Check

/-!
# Rendering

The text of a template.

A library is made from texts, each under its path, from a table of what the
names in them stand for, and from values that all of them can read. Rendering
is a function of the library and of a path in it, and of nothing else.

## Main definitions

* `Library.ofTexts`: The library of some texts.
* `render`: The text of a template of a library.

## Theorems

* `Library.load_ofTexts_none`: A path without a text does not load.
-/

namespace Stencil

namespace Template

/-- The values that every template can read, whatever the library. -/
def builtins : List (String × Value) :=
  [("range", .builtin .range), ("dict", .builtin .dict), ("lipsum", .builtin .lorem),
    ("cycler", .builtin .cycler), ("joiner", .builtin .joiner),
    ("namespace", .builtin .space)]

namespace Library

/-- The library of some texts. -/
def ofTexts (texts : List (String × String)) (links : List ((String × String) × String))
    (values : List (String × Value)) : Library where
  pages := texts.map fun t => (t.1, Page.read t.1 t.2)
  links := links
  globals := values ++ builtins

theorem lookup_read (path : String) (texts : List (String × String)) :
    (texts.map fun t => (t.1, Page.read t.1 t.2)).lookup path =
      (texts.lookup path).map (Page.read path) := by
  induction texts with
  | nil => rfl
  | cons t texts ih =>
    rw [List.map_cons, List.lookup_cons, List.lookup_cons, ih]
    cases h : path == t.1 with
    | true => simp [eq_of_beq h]
    | false => rfl

theorem load_ofTexts_none (texts : List (String × String))
    (links : List ((String × String) × String)) (values : List (String × Value)) (path : String)
    (h : texts.lookup path = none) :
    (ofTexts texts links values).load path = .error ⟨.notFound, path⟩ := by
  simp [load, ofTexts, lookup_read, h]

end Library

/-- How many jobs may run one in another. -/
def jobDepth : Nat := 195

/-- The text of a template of a library. -/
def render (lib : Library) (path : String) : Outcome String := do
  let page ← lib.load path
  let act : Run String := do
    let ctx ← Run.newContext (Engine.contextFor page lib.globals)
    runJob lib jobDepth (.root path ctx)
  return (← act.run {}).1

end Template

end Stencil
