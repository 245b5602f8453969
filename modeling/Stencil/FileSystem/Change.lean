import Stencil.FileSystem.Lookup

/-!
# Changing Files

The operations that change a file system, each a function from the file system
before to the one after.

An operation looks its path up first and changes at most one location, except
`rename`, which changes two. Nothing is changed when an operation fails. The
one operation that can leave part of its work behind is `makeDirectories`,
which makes one directory after another.

## Main definitions

* `FileSystem.makeDirectory`, `FileSystem.makeDirectories`: A directory, and
  one with those above it.
* `FileSystem.createNew`: A file that did not exist.
* `FileSystem.fill`, `FileSystem.setMode`: Content and permission bits.
* `FileSystem.rename`: An entry under another name, replacing what was there.
* `FileSystem.remove`: An entry taken away.

## Theorems

* `rename_find?`: After a rename the new name holds the old entry.
-/

namespace Stencil

namespace FileSystem

/-- A path's last component, without following a link there. -/
def locateHere (fs : FileSystem) (p : Path) : Except Fault Found :=
  match fs.locate p.text false with
  | .ok found => .ok found
  | .error c => .error { cause := c, path := p.text }

/-- Makes one directory. -/
def makeDirectory (fs : FileSystem) (p : Path) : Except Fault FileSystem :=
  match fs.locateHere p with
  | .error f => .error f
  | .ok ⟨_, some _⟩ => .error { cause := .exists, path := p.text }
  | .ok ⟨loc, none⟩ => .ok (fs.put loc .directory)

/-- Makes a directory that may exist already. -/
def ensureDirectory (fs : FileSystem) (p : Path) : Except Fault FileSystem :=
  match fs.makeDirectory p with
  | .ok fs' => .ok fs'
  | .error f =>
    if f.cause == .noEntry then .error f
    else
      match fs.isDirectory p with
      | .ok true => .ok fs
      | .ok false => .error f
      | .error g => .error g

/-- Makes a directory and those above it that are missing. The count bounds
how far up it goes. -/
def makeDirectoriesUp (fs : FileSystem) (p : Path) : Nat → FileSystem × Except Fault Unit
  | 0 => (fs, .error { cause := .noEntry, path := p.text })
  | n + 1 =>
    match fs.ensureDirectory p with
    | .ok fs' => (fs', .ok ())
    | .error f =>
      -- The root is its own parent, so going up ends there.
      if f.cause == .noEntry && p.parent != p then
        match fs.makeDirectoriesUp p.parent n with
        | (fs', .error g) => (fs', .error g)
        | (fs', .ok ()) =>
          match fs'.ensureDirectory p with
          | .ok fs'' => (fs'', .ok ())
          | .error g => (fs', .error g)
      else (fs, .error f)

/-- Makes a directory and those above it that are missing. -/
def makeDirectories (fs : FileSystem) (p : Path) : FileSystem × Except Fault Unit :=
  fs.makeDirectoriesUp p (p.parts.length + 1)

/-- Creates an empty file that only its owner can read and write. -/
def createNew (fs : FileSystem) (p : Path) : Except Fault FileSystem :=
  match fs.locateHere p with
  | .error f => .error f
  | .ok ⟨_, some _⟩ => .error { cause := .exists, path := p.text }
  | .ok ⟨loc, none⟩ => .ok (fs.put loc (.file .empty 0o600))

/-- Replaces the content of an existing file. -/
def fill (fs : FileSystem) (p : Path) (data : ByteArray) : Except Fault FileSystem :=
  match fs.status p with
  | .error f => .error f
  | .ok (loc, .file _ mode) => .ok (fs.put loc (.file data mode))
  | .ok (_, _) => .error { cause := .isDirectory, path := p.text }

/-- Replaces the permission bits of an existing file. -/
def setMode (fs : FileSystem) (p : Path) (mode : Nat) : Except Fault FileSystem :=
  match fs.status p with
  | .error f => .error f
  | .ok (loc, .file data _) => .ok (fs.put loc (.file data mode))
  | .ok (_, _) => .ok fs

/-- Gives an entry that is no directory another name. What stood under that
name is gone, unless it is a directory. -/
def rename (fs : FileSystem) (old new : Path) : Except Fault FileSystem :=
  let fail (c : Cause) : Except Fault FileSystem :=
    .error { cause := c, path := old.text, other := some new.text }
  match fs.locate old.text false, fs.locate new.text false with
  | .error c, _ => fail c
  | .ok ⟨_, none⟩, _ => fail .noEntry
  | _, .error c => fail c
  | .ok _, .ok ⟨_, some .directory⟩ => fail .isDirectory
  | .ok ⟨src, some e⟩, .ok ⟨dst, _⟩ =>
    if src == dst then .ok fs else .ok ((fs.delete src).put dst e)

/-- Takes an entry that is no directory away. -/
def remove (fs : FileSystem) (p : Path) : Except Fault FileSystem :=
  match fs.locateHere p with
  | .error f => .error f
  | .ok ⟨_, none⟩ => .error { cause := .noEntry, path := p.text }
  | .ok ⟨_, some .directory⟩ => .error { cause := .isDirectory, path := p.text }
  | .ok ⟨loc, some _⟩ => .ok (fs.delete loc)

theorem rename_find? {fs fs' : FileSystem} {old new : Path} {src dst : Location} {e : Entry}
    {o : Option Entry} (hs : fs.locate old.text false = .ok ⟨src, some e⟩)
    (hd : fs.locate new.text false = .ok ⟨dst, o⟩) (ho : o ≠ some .directory)
    (hne : src ≠ dst) (hroot : dst ≠ []) (h : fs.rename old new = .ok fs') :
    fs'.find? dst = some e := by
  unfold rename at h
  simp only [hs, hd] at h
  cases o with
  | none =>
    simp [hne] at h
    subst h
    exact find?_put_self _ hroot e
  | some x =>
    cases x with
    | directory => exact absurd rfl ho
    | file d m =>
      simp [hne] at h
      subst h
      exact find?_put_self _ hroot e
    | link t =>
      simp [hne] at h
      subst h
      exact find?_put_self _ hroot e

end FileSystem

end Stencil
