import Stencil.Path

/-!
# The File System

A file system as a value: directories, regular files with permission bits, and
symbolic links.

A location lists the names on the way to an entry from the innermost out, so
that the directory of `name :: dir` is `dir` and the root is the empty list.
Entries stand under their locations; the root needs no entry, and there are no
hard links, so a location is all that tells two files apart.

Whatever can go wrong is a `Fault`: a cause and the path that was given. Their
causes are those of the usual interface to file systems.

## Main definitions

* `Location`, `Entry`, `FileSystem`: Locations, what stands there, and all of it.
* `FileSystem.find?`: What stands at a location.
* `FileSystem.put`, `FileSystem.delete`: Changing one location.
* `Cause`, `Fault`: What went wrong.

## Theorems

* `find?_put_self`, `find?_put_of_ne`: Writing a location changes that one.
* `find?_delete_of_ne`: Deleting a location leaves the others.
-/

namespace Stencil

/-- Where an entry stands: names from the innermost out. -/
abbrev Location := List String

/-- What stands at a location. -/
inductive Entry where
  /-- A directory. -/
  | directory
  /-- A regular file: its bytes and its permission bits. -/
  | file (data : ByteArray) (mode : Nat)
  /-- A symbolic link and the path it holds. -/
  | link (target : String)
  deriving Inhabited

/-- A file system: its entries, and the directory that relative paths start
from. -/
structure FileSystem where
  /-- Entries under their locations. -/
  entries : List (Location × Entry)
  /-- The working directory. -/
  here : Location
  deriving Inhabited

/-- Why an operation failed. -/
inductive Cause where
  /-- There is no such entry. -/
  | noEntry
  /-- There is an entry already. -/
  | exists
  /-- A directory is needed and something else is there. -/
  | notDirectory
  /-- A directory is there and something else is needed. -/
  | isDirectory
  /-- A name has more than 255 bytes, or a path too many. -/
  | nameTooLong
  /-- More than forty links had to be followed. -/
  | tooManyLinks
  /-- The path holds a null character. -/
  | nullCharacter
  deriving DecidableEq, Repr

/-- The number of a cause. -/
def Cause.code : Cause → Nat
  | .noEntry => 2
  | .exists => 17
  | .notDirectory => 20
  | .isDirectory => 21
  | .nameTooLong => 36
  | .tooManyLinks => 40
  | .nullCharacter => 22

/-- The wording of a cause. -/
def Cause.message : Cause → String
  | .noEntry => "No such file or directory"
  | .exists => "File exists"
  | .notDirectory => "Not a directory"
  | .isDirectory => "Is a directory"
  | .nameTooLong => "File name too long"
  | .tooManyLinks => "Too many levels of symbolic links"
  | .nullCharacter => "embedded null byte"

/-- A failed operation: the cause, and the path that it was asked for. -/
structure Fault where
  /-- Why it failed. -/
  cause : Cause
  /-- The path as it was given. -/
  path : String
  /-- The second path, for an operation on two. -/
  other : Option String := none
  deriving DecidableEq, Repr

namespace FileSystem

/-- What stands at a location. -/
def find? (fs : FileSystem) (loc : Location) : Option Entry :=
  if loc.isEmpty then some .directory else fs.entries.lookup loc

/-- The file system with an entry at a location. -/
def put (fs : FileSystem) (loc : Location) (e : Entry) : FileSystem :=
  { fs with entries := (loc, e) :: fs.entries.filter (·.1 != loc) }

/-- The file system without the entry at a location. -/
def delete (fs : FileSystem) (loc : Location) : FileSystem :=
  { fs with entries := fs.entries.filter (·.1 != loc) }

theorem lookup_filter_of_ne {l l' : Location} (h : l' ≠ l) (es : List (Location × Entry)) :
    (es.filter (·.1 != l)).lookup l' = es.lookup l' := by
  induction es with
  | nil => rfl
  | cons e es ih =>
    obtain ⟨k, v⟩ := e
    by_cases hk : k = l
    · subst hk
      have : (l' == k) = false := by simpa using h
      simp [List.lookup_cons, this, ih]
    · simp [List.lookup_cons, hk, ih]

theorem lookup_filter_self (l : Location) (es : List (Location × Entry)) :
    (es.filter (·.1 != l)).lookup l = none := by
  induction es with
  | nil => rfl
  | cons e es ih =>
    obtain ⟨k, v⟩ := e
    by_cases hk : k = l
    · simp [hk, ih]
    · have : (l == k) = false := by simpa using fun h => hk h.symm
      simp [List.lookup_cons, hk, this, ih]

theorem find?_put_self (fs : FileSystem) {loc : Location} (h : loc ≠ []) (e : Entry) :
    (fs.put loc e).find? loc = some e := by
  simp [find?, put, h]

theorem find?_put_of_ne (fs : FileSystem) {loc l : Location} (h : l ≠ loc) (e : Entry) :
    (fs.put loc e).find? l = fs.find? l := by
  have : (l == loc) = false := by simpa using h
  simp [find?, put, List.lookup_cons, this, lookup_filter_of_ne h]

theorem find?_delete_of_ne (fs : FileSystem) {loc l : Location} (h : l ≠ loc) :
    (fs.delete loc).find? l = fs.find? l := by
  simp [find?, delete, lookup_filter_of_ne h]

theorem find?_delete_self (fs : FileSystem) {loc : Location} (h : loc ≠ []) :
    (fs.delete loc).find? loc = none := by
  simp [find?, delete, h, lookup_filter_self]

/-- The names of the entries of a directory, ascending. -/
def names (fs : FileSystem) (dir : Location) : List String :=
  let found := fs.entries.filterMap fun e =>
    match e.1 with
    | name :: d => if d == dir then some name else none
    | [] => none
  found.mergeSort fun a b => !decide (b < a)

end FileSystem

end Stencil
