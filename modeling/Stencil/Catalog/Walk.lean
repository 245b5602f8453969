import Stencil.FileSystem.Lookup
import Stencil.FileSystem.Message
import Stencil.Ignore.Rules
import Stencil.Text.Lines
import Stencil.Text.Utf8

/-!
# Walking a Tree

The files of a directory tree, in a fixed order, without those that are hidden
or ignored.

A directory's files come first, sorted by name, and then its subdirectories in
the order of their names. Ignore files apply to the directory that holds them
and to everything below, so the walk hands each directory the rules of those
above it; a directory's own rules never decide about itself. Directories that
are links are not entered, and version-control data never is.

The walk is a list of sightings, in the order in which they are made, because
a file may be read as soon as it is seen: what comes later in the list has not
happened yet when a file turns out to be unreadable.

## Main definitions

* `Sighting`: A file, an ignore file that cannot be read, or a bad pattern.
* `walkTree`: The sightings below a root.
* `filesOf`: The files among them, or the pattern that cannot be compiled.
-/

namespace Stencil

/-- What a walk comes across. -/
inductive Sighting where
  /-- A file: its path relative to the root, and its path. -/
  | file (relative : String) (path : Path)
  /-- An ignore file that is no text, and why. -/
  | skipped (path : Path) (why : Text.Utf8.Fault)
  /-- A pattern that cannot be compiled; the walk ends here. -/
  | broken (why : Ignore.Invalid)
  deriving DecidableEq, Repr

/-- Why a walk cannot start. -/
inductive WalkError where
  /-- The root is no directory. -/
  | notDirectory (root : String)
  /-- Whether it is one cannot be told. -/
  | fault (f : Fault)
  deriving DecidableEq, Repr

/-- The names of ignore files, in the order in which they are read. -/
def ignoreFileNames : List String :=
  [".gitignore", ".ignore"]

/-- A name below a directory, relative to the root. -/
def relativeName (dir name : String) : String :=
  if dir.isEmpty then name else dir ++ "/" ++ name

/-- The lines of one ignore file of a directory, if it is there and is text. -/
def readIgnoreFile (fs : FileSystem) (dir : Path) (name : String) :
    List Sighting × List String :=
  let path := dir.child name
  match fs.isFile path, fs.read path with
  | .ok true, .ok bytes =>
    match Text.Utf8.decode bytes with
    | .ok text => ([], Text.lines text)
    | .error why => ([.skipped path why], [])
  | _, _ => ([], [])

/-- The rules of a directory, if its ignore files have any lines. -/
def loadRules (fs : FileSystem) (dir : Path) (base : String) :
    List Sighting × Except Ignore.Invalid (Option Ignore.Rules) :=
  let found := ignoreFileNames.map (readIgnoreFile fs dir)
  let lines := found.flatMap Prod.snd
  (found.flatMap Prod.fst,
    if lines.isEmpty then .ok none else (Ignore.Rules.ofLines base lines).map some)

/-- The name is hidden. -/
def isHidden (name : String) : Bool :=
  Text.startsWith ['.'] name.toList

/-- How an entry of a directory takes part in a walk. -/
inductive EntryRole where
  /-- A directory to enter. -/
  | enter
  /-- A link to a directory, which is passed over. -/
  | pass
  /-- A file. -/
  | file
  deriving DecidableEq, Repr

/-- The role of an entry. -/
def entryRole (fs : FileSystem) (dir : Path) (loc : Location) (name : String) : EntryRole :=
  match fs.find? (name :: loc) with
  | some .directory => .enter
  | some (.link _) =>
    match fs.isDirectory (dir.child name) with
    | .ok true => .pass
    | _ => .file
  | _ => .file

/-- The sightings in and below a directory. `all` includes what is hidden or
ignored; the count bounds the depth. -/
def walkFrom (fs : FileSystem) (all : Bool) : Nat → Path → Location → String →
    List Ignore.Rules → List Sighting
  | 0, _, _, _, _ => []
  | depth + 1, dir, loc, rel, above =>
    let (notes, own) := if all then ([], .ok none) else loadRules fs dir rel
    match own with
    | .error why => notes ++ [.broken why]
    | .ok own =>
      let rules := above ++ own.toList
      let names := fs.names loc
      let visible (isDir : Bool) (name : String) : Bool :=
        all || !(isHidden name || Ignore.isIgnored rules (relativeName rel name) isDir)
      let files := names.filter fun n =>
        entryRole fs dir loc n == .file && visible false n
      -- The directory of version control is not entered, even if all is included.
      let dirs := names.filter fun n =>
        entryRole fs dir loc n == .enter && n != ".git" && visible true n
      notes ++ (files.map fun n => .file (relativeName rel n) (dir.child n)) ++
        dirs.flatMap fun n =>
          walkFrom fs all depth (dir.child n) (n :: loc) (relativeName rel n) rules

/-- The sightings up to the first pattern that cannot be compiled. -/
def untilBroken : List Sighting → List Sighting
  | [] => []
  | .broken why :: _ => [.broken why]
  | s :: rest => s :: untilBroken rest

/-- The sightings below a root. -/
def walkTree (fs : FileSystem) (root : Path) (all : Bool) :
    Except WalkError (List Sighting) :=
  match fs.isDirectory root with
  | .error f => .error (.fault f)
  | .ok false => .error (.notDirectory root.text)
  | .ok true =>
    match fs.status root with
    | .error f => .error (.fault f)
    | .ok (loc, _) => .ok (untilBroken (walkFrom fs all (fs.entries.length + 1) root loc "" []))

/-- The files of a walk, unless it ended at a bad pattern. -/
def filesOf : List Sighting → Except Ignore.Invalid (List (String × Path))
  | [] => .ok []
  | .file rel path :: rest => ((rel, path) :: ·) <$> filesOf rest
  | .skipped _ _ :: rest => filesOf rest
  | .broken why :: _ => .error why

end Stencil
