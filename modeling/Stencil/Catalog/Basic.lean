import Stencil.Catalog.Kind
import Stencil.Catalog.Walk
import Stencil.Digest.Sha256

/-!
# Catalogs

The templates of a tree, with their contents.

A template is named by its path relative to the root. The catalog keeps the
templates in the order of their paths, whatever order the walk found them in.
It can be built only if every template can be read as text; the first one that
cannot ends the walk.

## Main definitions

* `Source`: A template: what it is, where it is, and its content.
* `Catalog`: The templates of a tree, in the order of their paths.
* `Catalog.build`: The catalog of a tree.
* `Source.logicalName`, `Source.directory`: Parts of a template's path.

## Theorems

* `Catalog.ofSources_sorted`: The paths of a catalog are in ascending order.
-/

namespace Stencil

/-- A template of a tree. -/
structure Source where
  /-- Its path relative to the root. -/
  path : String
  /-- Its path. -/
  file : Path
  /-- The part that it takes. -/
  kind : Kind
  /-- The suffix that says so. -/
  suffix : String
  /-- Its text. -/
  content : String
  /-- The digest of its bytes. -/
  digest : String
  deriving DecidableEq, Repr

/-- The path without the suffix. -/
def Source.logicalName (s : Source) : String :=
  String.ofList (s.path.toList.take (s.path.length - s.suffix.length))

/-- The directory that holds the template; the root is the empty text. -/
def Source.directory (s : Source) : String :=
  ((Text.cutLast '/' s.path).map Prod.fst).getD ""

/-- The templates of a tree. -/
structure Catalog where
  /-- The root of the tree. -/
  root : Path
  /-- The templates, in the order of their paths. -/
  sources : List Source
  deriving DecidableEq, Repr

/-- Why a catalog cannot be built. -/
inductive CatalogError where
  /-- The root is no directory. -/
  | notDirectory (root : String)
  /-- A template cannot be read. -/
  | unreadable (path : String) (why : Fault)
  /-- A template is not UTF-8. -/
  | notText (path : String) (why : Text.Utf8.Fault)
  /-- A pattern of an ignore file cannot be compiled. -/
  | badPattern (why : Ignore.Invalid)
  /-- The links of the root's path form a loop. -/
  | linkLoop
  /-- Whether the root is a directory cannot be told. -/
  | fault (f : Fault)
  deriving DecidableEq, Repr

/-- The report of a catalog that cannot be built. -/
def CatalogError.message : CatalogError → String
  | .notDirectory root => s!"Failed to read {root}: not a directory"
  | .unreadable path why => s!"Failed to read {path}: {why.message}"
  | .notText path why => s!"{path} is not valid UTF-8: {why.message}"
  | .badPattern _ => "Invalid git pattern"
  | .linkLoop => "Symlink loop"
  | .fault f => f.message

namespace Catalog

/-- The order of templates. -/
def before (a b : Source) : Bool :=
  !decide (b.path < a.path)

/-- The catalog of some templates. -/
def ofSources (root : Path) (sources : List Source) : Catalog :=
  ⟨root, sources.mergeSort before⟩

theorem before_trans (a b c : Source) (h₁ : before a b = true) (h₂ : before b c = true) :
    before a c = true := by
  simp only [before, Bool.not_eq_true', decide_eq_false_iff_not, String.not_lt] at *
  exact String.le_trans h₁ h₂

theorem before_total (a b : Source) : (before a b || before b a) = true := by
  simp only [before, Bool.or_eq_true, Bool.not_eq_true', decide_eq_false_iff_not, String.not_lt]
  exact String.le_total _ _

theorem ofSources_sorted (root : Path) (sources : List Source) :
    (ofSources root sources).sources.Pairwise fun a b => before a b = true :=
  List.pairwise_mergeSort before_trans before_total sources

/-- The template with a path. -/
def find? (c : Catalog) (path : String) : Option Source :=
  c.sources.find? (·.path == path)

/-- The catalog holds a path. -/
def has (c : Catalog) (path : String) : Bool :=
  (c.find? path).isSome

/-- The paths of the templates. -/
def paths (c : Catalog) : List String :=
  c.sources.map (·.path)

/-- The templates that are rendered. -/
def queries (c : Catalog) : List Source :=
  c.sources.filter (·.kind == .query)

/-- The templates that others can refer to. -/
def importables (c : Catalog) : List Source :=
  c.sources.filter (·.kind.isImportable)

/-- Reads a file that a walk came across, if its name is a template's. -/
def readSource (fs : FileSystem) (config : Config) (relative : String) (path : Path) :
    Except CatalogError (Option Source) :=
  match classify path.name config with
  | none => .ok none
  | some (kind, suffix) =>
    match fs.read path with
    | .error f => .error (.unreadable path.text f)
    | .ok bytes =>
      match Text.Utf8.decode bytes with
      | .error why => .error (.notText path.text why)
      | .ok content =>
        .ok (some ⟨relative, path, kind, suffix, content, Sha256.hexDigest bytes⟩)

/-- Reads the templates of a walk in its order, until one cannot be read. The
ignore files passed over on the way are noted. -/
def readSightings (fs : FileSystem) (config : Config) :
    List Sighting → List (Path × Text.Utf8.Fault) × Except CatalogError (List Source)
  | [] => ([], .ok [])
  | .broken why :: _ => ([], .error (.badPattern why))
  | .skipped path why :: rest =>
    let (notes, found) := readSightings fs config rest
    ((path, why) :: notes, found)
  | .file relative path :: rest =>
    match readSource fs config relative path with
    | .error e => ([], .error e)
    | .ok source =>
      let (notes, found) := readSightings fs config rest
      (notes, found.map (source.toList ++ ·))

/-- The warnings of a walk: ignore files that are no text. -/
abbrev Notes := List (Path × Text.Utf8.Fault)

/-- The catalog of a tree, with the warnings of its walk. -/
def build (fs : FileSystem) (root : Path) (config : Config) :
    Notes × Except CatalogError Catalog :=
  match fs.canonical? root with
  | none => ([], .error .linkLoop)
  | some root =>
    match walkTree fs root config.includeIgnored with
    | .error (.notDirectory r) => ([], .error (.notDirectory r))
    | .error (.fault f) => ([], .error (.fault f))
    | .ok sightings =>
      let (notes, found) := readSightings fs config sightings
      (notes, found.map (ofSources root))

end Catalog

end Stencil
