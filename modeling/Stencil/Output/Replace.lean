import Stencil.FileSystem.Change
import Stencil.Number.Fixed

/-!
# Replacing Files

Giving a file new content at one stroke.

The content goes to a new file in the same directory, which then takes the name
of the old one, so that whoever reads the file finds all of the old content or
all of the new. A file that is replaced keeps its permission bits; a link gives
way to a file with the bits of what it led to. If something goes wrong the new
file is taken away again.

The name of the new file is that of the old one with a stamp. Stamps are tried
until one is free; there are more of them to try than there are entries, and
each makes a name of its own.

## Main definitions

* `Stamp.name`: The name of a new file.
* `FileSystem.createBeside`: A new file for a file that is to be replaced.
* `FileSystem.replace`: A file with new content.

## Theorems

* `FileSystem.createFree_zero`: Where no stamp may be tried no file is made.
-/

namespace Stencil

/-- The permission bits of a file that did not exist. -/
def newFileMode : Nat :=
  0o644

/-- The permission bits of a directory, where nothing is said about them. -/
def directoryMode : Nat :=
  0o755

/-- The permission bits proper. -/
def permissionBits (mode : Nat) : Nat :=
  mode % 0o1000

/-- The name of the new file for a file with a name, with the stamp of a
number. -/
def Stamp.name (name : String) (n : Nat) : String :=
  "." ++ name ++ "." ++ Layout.padZeros 8 n ++ ".tmp"

namespace FileSystem

/-- The path made absolute from the working directory, double dots resolved
textually. -/
def absolute (fs : FileSystem) (p : Path) : Path :=
  ((pathOf fs.here).join p).withoutDots

/-- Creates an empty file in a directory, with the first stamp that is free;
the count bounds how many are tried. -/
def createFree (fs : FileSystem) (dir : Path) (name : String) (stamp : Nat) :
    Nat → Except Fault (FileSystem × Path)
  | 0 => .error { cause := .exists, path := dir.text }
  | n + 1 =>
    let p := dir.child (Stamp.name name stamp)
    match fs.createNew p with
    | .ok fs' => .ok (fs', p)
    | .error f =>
      if f.cause == .exists then createFree fs dir name (stamp + 1) n else .error f

theorem createFree_zero (fs : FileSystem) (dir : Path) (name : String) (stamp : Nat) :
    fs.createFree dir name stamp 0 = .error { cause := .exists, path := dir.text } := rfl

/-- Creates the new file for a file that is to be replaced. -/
def createBeside (fs : FileSystem) (p : Path) : Except Fault (FileSystem × Path) :=
  fs.createFree (fs.absolute p.parent) p.name 0 (fs.entries.length + 1)

/-- The permission bits of an entry. What a directory's are is not part of a
file system, so they are given for each location. -/
def bitsOf (bits : Location → Nat) : Location × Entry → Nat
  | (loc, .directory) => permissionBits (bits loc)
  | (_, .file _ mode) => permissionBits mode
  | (_, .link _) => newFileMode

/-- The permission bits that a path has or will have. A path that leads to a
directory through a link has the directory's. -/
def modeFor (fs : FileSystem) (p : Path) (bits : Location → Nat := fun _ => directoryMode) :
    Except Fault Nat :=
  match fs.exists? p with
  | .error f => .error f
  | .ok false => .ok newFileMode
  | .ok true =>
    match fs.status p with
    | .ok found => .ok (bitsOf bits found)
    | .error f => .error f

/-- Fills a new file and gives it its place. -/
def settle (fs : FileSystem) (fresh p : Path) (mode : Nat) (data : ByteArray) :
    Except Fault FileSystem := do
  let fs ← fs.fill fresh data
  let fs ← fs.setMode fresh mode
  fs.rename fresh p

/-- Takes a new file away that could not be given its place. -/
def discard (fs : FileSystem) (fresh : Path) : FileSystem :=
  match fs.remove fresh with
  | .ok fs' => fs'
  | .error _ => fs

/-- Gives a file in an existing directory new content. -/
def replaceIn (fs : FileSystem) (p : Path) (data : ByteArray)
    (bits : Location → Nat := fun _ => directoryMode) : FileSystem × Except Fault Unit :=
  match fs.modeFor p bits with
  | .error f => (fs, .error f)
  | .ok mode =>
    match fs.createBeside p with
    | .error f => (fs, .error f)
    | .ok (made, fresh) =>
      match made.settle fresh p mode data with
      | .ok done => (done, .ok ())
      | .error f => (made.discard fresh, .error f)

/-- Gives a file new content. Directories above it that are missing are made. -/
def replace (fs : FileSystem) (p : Path) (data : ByteArray)
    (bits : Location → Nat := fun _ => directoryMode) : FileSystem × Except Fault Unit :=
  match fs.makeDirectories p.parent with
  | (fs', .error f) => (fs', .error f)
  | (fs', .ok ()) => fs'.replaceIn p data bits

end FileSystem

end Stencil
