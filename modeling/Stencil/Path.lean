import Stencil.Text.Search

/-!
# Paths

File paths as text denotes them, before any file system is asked.

A path is a root and components. Empty components and single dots are dropped
when a path is read, so equal paths are equal values; a double dot stays,
because only a file system knows where it leads. A text that starts with
exactly two slashes has a root of its own.

`normalize` is the textual treatment of double dots, for references that never
meet a file system.

## Main definitions

* `Path`: A root and components.
* `Path.ofString`, `Path.text`: Reading and writing a path.
* `Path.join`: A path relative to another; an absolute one stands alone.
* `Path.normalize`: A text with its double dots resolved textually.

## Theorems

* `Path.ofString_parts`: No component of a path is empty or a dot.
* `Path.join_of_isAbsolute`: An absolute path ignores what it is joined to.
-/

namespace Stencil

/-- A file path. -/
structure Path where
  /-- Nothing, a slash, or two slashes. -/
  root : String
  /-- The components. -/
  parts : List String
  deriving DecidableEq, Repr, Inhabited

namespace Path

/-- The component says something: it is neither empty nor a single dot. -/
def isProper (part : String) : Bool :=
  part != "" && part != "."

/-- The root of a text: two slashes count as a root of their own, any other
number as one slash. -/
def rootOf (s : String) : String :=
  match s.toList with
  | '/' :: '/' :: '/' :: _ => "/"
  | '/' :: '/' :: _ => "//"
  | '/' :: _ => "/"
  | _ => ""

/-- Reads a path. -/
def ofString (s : String) : Path :=
  ⟨rootOf s, (Text.splitOnChar '/' s).filter isProper⟩

theorem ofString_parts (s : String) : ∀ p ∈ (ofString s).parts, p ≠ "" ∧ p ≠ "." := by
  intro p hp
  have := (List.mem_filter.1 hp).2
  simpa [isProper] using this

/-- Writes a path. The path without root and components is a dot. -/
def text (p : Path) : String :=
  if p.root.isEmpty && p.parts.isEmpty then "."
  else p.root ++ Text.joinStrings "/" p.parts

/-- The path starts at a root. -/
def isAbsolute (p : Path) : Bool :=
  p.root != ""

/-- The path `q`, taken relative to `p`. -/
def join (p q : Path) : Path :=
  if q.isAbsolute then q else ⟨p.root, p.parts ++ q.parts⟩

theorem join_of_isAbsolute {p q : Path} (h : q.isAbsolute = true) : p.join q = q := by
  simp [join, h]

/-- The path that a text names, relative to `p`. -/
def child (p : Path) (s : String) : Path :=
  p.join (ofString s)

/-- The last component. -/
def name (p : Path) : String :=
  p.parts.getLastD ""

/-- The path without its last component. -/
def parent (p : Path) : Path :=
  ⟨p.root, p.parts.dropLast⟩

/-- Order of paths: by their components, the root first. -/
def le (p q : Path) : Bool :=
  let key (p : Path) := (if p.root.isEmpty then [] else [p.root]) ++ p.parts
  !decide (key q < key p)

/-- Components with each double dot resolved against the component before it.
`stack` holds the components so far, last first; at a root a double dot leads
nowhere, elsewhere it is kept where nothing precedes it. -/
def resolveDots (rooted : Bool) (stack : List String) : List String → List String
  | [] => stack.reverse
  | p :: ps =>
    if p == ".." then
      match stack with
      | [] => if rooted then resolveDots rooted [] ps else resolveDots rooted [".."] ps
      | top :: rest =>
        if top == ".." then resolveDots rooted (".." :: stack) ps
        else resolveDots rooted rest ps
    else resolveDots rooted (p :: stack) ps

/-- The path with double dots resolved textually. -/
def withoutDots (p : Path) : Path :=
  ⟨p.root, resolveDots p.isAbsolute [] p.parts⟩

/-- A text read as a path, with double dots resolved, and written again. -/
def normalize (s : String) : String :=
  (ofString s).withoutDots.text

end Path

end Stencil
