import Stencil.Template.Mention
import Stencil.Template.Value.Basic

/-!
# Libraries

What a render can load.

A library holds the templates that a render may see, each under its path, and
says what the names in a template stand for. A name without an entry stands
for itself, so a name that a template computes can only be a path of the
library. Templates that cannot be read are held as the failure that loading
them is.

## Main definitions

* `Page`: A template that was read.
* `Library`: The templates, what names stand for, and the values that every
  template can read.
* `Library.join`: What a name in a template stands for.
* `Library.load`: The template under a path.

## Theorems

* `Library.load_ok_mem`: What loads is a template of the library.
-/

namespace Stencil

namespace Template

/-- A template that was read. -/
structure Page where
  /-- Its path. -/
  path : String
  /-- Its statements. -/
  body : List Stmt
  /-- Its blocks. -/
  blocks : List Block
  deriving Inhabited

/-- The block with a name. -/
def Page.block? (s : Page) (name : String) : Option Block :=
  s.blocks.find? (·.name == name)

/-- What a render can load. -/
structure Library where
  /-- The templates by path. -/
  pages : List (String × Outcome Page)
  /-- What names in templates stand for, by the path of the template. -/
  links : List ((String × String) × String)
  /-- The values that every template can read. -/
  globals : List (String × Value)

namespace Library

/-- A library without templates. -/
def empty : Library :=
  ⟨[], [], []⟩

/-- What a name in a template stands for. -/
def join (lib : Library) (current name : String) : String :=
  (lib.links.lookup (current, name)).getD name

/-- The template under a path. -/
def load (lib : Library) (path : String) : Outcome Page :=
  match lib.pages.lookup path with
  | some s => s
  | none => .error ⟨.notFound, path⟩

theorem load_ok_mem (lib : Library) (path : String) (s : Page)
    (h : lib.load path = .ok s) : (path, .ok s) ∈ lib.pages := by
  unfold load at h
  split at h
  · next s' hs =>
    obtain ⟨l₁, l₂, heq, _⟩ := List.lookup_eq_some_iff.1 hs
    rw [heq, h]
    simp
  · simp at h

end Library

end Template

end Stencil
