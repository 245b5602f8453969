import Stencil.Catalog.Basic

/-!
# Resolving References

Which template a name refers to.

A name is looked up at one location after the other: the directory of the
template that refers to it, the directories above up to the root, and the
shared directory. At a location it matches a template whose path, with or
without its suffix, is the name joined to the location. The first location
with a match decides, and it has to match one template only. A name that
starts with a slash is looked up at the root alone.

Answers depend on the directory of the referring template and not on the
template itself, so a resolver remembers them by directory. `search` is the
answer without that memory.

## Main definitions

* `locations`: The locations that are searched from a directory.
* `keyAt?`: A name joined to a location, unless it leaves the root.
* `Resolver`: The names of the templates, and the answers so far.
* `Resolver.search`: The templates that a name can refer to.
* `Resolver.resolve`: The template that a name refers to, remembered.
-/

namespace Stencil

/-- Why a reference is not resolved. -/
inductive ResolutionError where
  /-- No template matches. -/
  | unresolved (importer name : String)
  /-- Several templates match at the location that decides. -/
  | ambiguous (importer name : String) (matched : List String)
  deriving DecidableEq, Repr

/-- The template that holds the reference. -/
def ResolutionError.importer : ResolutionError → String
  | .unresolved importer _ => importer
  | .ambiguous importer _ _ => importer

/-- The name that is not resolved. -/
def ResolutionError.name : ResolutionError → String
  | .unresolved _ name => name
  | .ambiguous _ name _ => name

/-- The report of a reference that is not resolved. -/
def ResolutionError.message : ResolutionError → String
  | .unresolved importer name => s!"{importer}: unresolved import '{name}'"
  | .ambiguous importer name matched =>
    s!"{importer}: ambiguous import '{name}' matches " ++ Text.joinStrings ", " matched

/-- Texts in ascending order. -/
def sortTexts (ss : List String) : List String :=
  ss.mergeSort fun a b => !decide (b < a)

/-- Texts in ascending order, each once. -/
def sortedSet (ss : List String) : List String :=
  sortTexts ss.eraseDups

namespace Reference

/-- A directory and those above it up to the root, the empty text. The count
bounds how many there are. -/
def ancestors : Nat → String → List String
  | 0, dir => [dir]
  | n + 1, dir =>
    if dir.isEmpty then [dir]
    else dir :: ancestors n (((Text.cutLast '/' dir).map Prod.fst).getD "")

/-- The locations that are searched from a directory, in order. -/
def locations (directory : String) (partialsDir : Option String) : List String :=
  let own := ancestors directory.length directory
  match partialsDir with
  | none => own
  | some dir => if dir.isEmpty || own.contains dir then own else own ++ [dir]

/-- The name joined to a location. -/
def joinName (location name : String) : String :=
  if location.isEmpty then name
  else if Text.startsWith ['/'] name.toList then name
  else if Text.endsWith ['/'] location.toList then location ++ name
  else location ++ "/" ++ name

/-- The key of a name at a location, unless it leaves the root there. -/
def keyAt? (location name : String) : Option String :=
  let key := Path.normalize (joinName location name)
  if key == "." || key == ".." || Text.startsWith "../".toList key.toList then none else some key

/-- The locations of a reference, and the name that is joined to them. -/
def searchPlan (directory : String) (partialsDir : Option String) (name : String) :
    List String × String :=
  let slashed := Text.replaceAll "\\" "/" name
  if Text.startsWith ['/'] slashed.toList then
    ([""], Text.trimLeft slashed (· == '/'))
  else (locations directory partialsDir, slashed)

end Reference

/-- The templates that can be referred to under their names, the shared
directory, and the answers so far by directory and name. -/
structure Resolver where
  /-- Names and the paths of the templates that have them. -/
  index : List (String × String)
  /-- The shared directory. -/
  partialsDir : Option String
  /-- Answers so far. -/
  answers : List ((String × String) × String)

namespace Resolver

open Reference

/-- The resolver of a catalog. -/
def ofCatalog (c : Catalog) (partialsDir : Option String) : Resolver :=
  ⟨c.importables.flatMap fun s => [(s.path, s.path), (s.logicalName, s.path)], partialsDir, []⟩

/-- The paths of the templates with a name, ascending. -/
def pathsOf (r : Resolver) (key : String) : List String :=
  sortedSet ((r.index.filter (·.1 == key)).map Prod.snd)

/-- The templates matched at the first location with a match. -/
def search (r : Resolver) (directory name : String) : List String :=
  let (places, key) := searchPlan directory r.partialsDir name
  (places.findSome? fun place =>
    -- A name that leaves the root has no match here, and the search goes on.
    match keyAt? place key with
    | none => none
    | some k =>
      match r.pathsOf k with
      | [] => none
      | found => some found).getD []

/-- The answer to a reference, from the templates matched. -/
def answer (importer name : String) : List String → Except ResolutionError String
  | [] => .error (.unresolved importer name)
  | [target] => .ok target
  | several => .error (.ambiguous importer name several)

/-- The template that a name refers to, and the resolver that remembers it. -/
def resolve (r : Resolver) (importer : Source) (name : String) :
    Except ResolutionError String × Resolver :=
  match r.answers.lookup (importer.directory, name) with
  | some target => (.ok target, r)
  | none =>
    match answer importer.path name (r.search importer.directory name) with
    | .ok target =>
      (.ok target, { r with answers := ((importer.directory, name), target) :: r.answers })
    -- A failure names the template that refers, so it is not remembered by directory.
    | .error e => (.error e, r)

end Resolver

end Stencil
