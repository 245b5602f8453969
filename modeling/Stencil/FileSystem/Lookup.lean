import Stencil.FileSystem.Basic

/-!
# Looking Up Paths

From a path to the location that it denotes.

A path is walked component by component. A dot stays, two dots go to the
directory above, a name enters. A link on the way is replaced by the path it
holds, and so is a link at the end if the operation follows links; after forty
links the walk gives up. A name after something that is no directory, a name
that is missing before the end, and a name of more than 255 bytes end the walk
with a fault.

`canonical?` does not fail on a missing entry: what does not exist is kept as
it is written. It is how a path is made absolute without links.

## Main definitions

* `FileSystem.walk`: The walk of a list of components from a directory.
* `FileSystem.locate`: The location of a path, and what stands there.
* `FileSystem.status`: The entry that a path denotes, links followed.
* `FileSystem.exists?`, `FileSystem.isFile`, `FileSystem.isDirectory`: Tests
  that take a broken path for a missing entry.
* `FileSystem.canonical?`: A path without links and dots.
-/

namespace Stencil

namespace FileSystem

/-- Where a walk ended: the location, and what stands there if anything. -/
structure Found where
  /-- The location. -/
  location : Location
  /-- What stands there. -/
  entry : Option Entry

/-- The components of a path text as a walk takes them. -/
def components (s : String) : List String :=
  (Text.splitOnChar '/' s).filter (· != "")

/-- The text starts at the root. -/
def isRooted (s : String) : Bool :=
  Text.startsWith ['/'] s.toList

/-- Walks components from a directory, with `links` links left to follow. The
last component's link is followed if `follow` is set. -/
def walk (fs : FileSystem) (follow : Bool) (links : Nat) (dir : Location)
    (parts : List String) : Except Cause Found :=
  match parts with
  | [] => .ok ⟨dir, fs.find? dir⟩
  | p :: ps =>
    if p == "." then fs.walk follow links dir ps
    else if p == ".." then fs.walk follow links dir.tail ps
    else if p.utf8ByteSize > 255 then .error .nameTooLong
    else
      let loc := p :: dir
      match fs.find? loc with
      | none => if ps.isEmpty then .ok ⟨loc, none⟩ else .error .noEntry
      | some .directory => fs.walk follow links loc ps
      | some (.file data mode) =>
        if ps.isEmpty then .ok ⟨loc, some (.file data mode)⟩ else .error .notDirectory
      | some (.link target) =>
        if ps.isEmpty && !follow then .ok ⟨loc, some (.link target)⟩
        else
          match links with
          | 0 => .error .tooManyLinks
          | n + 1 =>
            fs.walk follow n (if isRooted target then [] else dir) (components target ++ ps)
termination_by (links, parts.length)

/-- The location of a path text. -/
def locate (fs : FileSystem) (s : String) (follow : Bool) : Except Cause Found :=
  if s.toList.contains (Char.ofNat 0) then .error .nullCharacter
  else if s.isEmpty then .error .noEntry
  else if s.utf8ByteSize > 4095 then .error .nameTooLong
  else fs.walk follow 40 (if isRooted s then [] else fs.here) (components s)

/-- The entry that a path denotes, links followed. -/
def status (fs : FileSystem) (p : Path) : Except Fault (Location × Entry) :=
  match fs.locate p.text true with
  | .ok ⟨loc, some e⟩ => .ok (loc, e)
  | .ok ⟨_, none⟩ => .error { cause := .noEntry, path := p.text }
  | .error c => .error { cause := c, path := p.text }

/-- The cause says that the path denotes nothing, rather than that the
question cannot be answered. -/
def Cause.isAbsence (c : Cause) : Bool :=
  c != .nameTooLong

/-- The path denotes an entry that passes a test. A path that leads nowhere
does not; a name that is too long is a fault. -/
def test (fs : FileSystem) (p : Path) (ok : Entry → Bool) : Except Fault Bool :=
  match fs.status p with
  | .ok (_, e) => .ok (ok e)
  | .error f => if Cause.isAbsence f.cause then .ok false else .error f

/-- The path denotes an entry. -/
def exists? (fs : FileSystem) (p : Path) : Except Fault Bool :=
  fs.test p fun _ => true

/-- The entry is a directory. -/
def Entry.isDirectory : Entry → Bool
  | .directory => true
  | _ => false

/-- The entry is a regular file. -/
def Entry.isFile : Entry → Bool
  | .file _ _ => true
  | _ => false

/-- The path denotes a directory. -/
def isDirectory (fs : FileSystem) (p : Path) : Except Fault Bool :=
  fs.test p Entry.isDirectory

/-- The path denotes a regular file. -/
def isFile (fs : FileSystem) (p : Path) : Except Fault Bool :=
  fs.test p Entry.isFile

/-- The bytes of the regular file that a path denotes. -/
def read (fs : FileSystem) (p : Path) : Except Fault ByteArray :=
  match fs.status p with
  | .ok (_, .file data _) => .ok data
  | .ok (_, _) => .error { cause := .isDirectory, path := p.text }
  | .error f => .error f

/-- The path of a location. -/
def pathOf (loc : Location) : Path :=
  ⟨"/", loc.reverse⟩

/-- Where components lead from a directory if none of them is a link. -/
def descend (dir : Location) (parts : List String) : Location :=
  parts.foldl (fun d p => if p == "." then d else if p == ".." then d.tail else p :: d) dir

/-- Walks components for `canonical?`. `active` lists the links whose targets
are being walked: one that is met again ends the walk, and what is left is
kept as it stands. -/
def canonicalFrom (fs : FileSystem) (links : Nat) (active : List (Location × Nat))
    (dir : Location) (parts : List String) : Bool × Location :=
  match parts with
  | [] => (true, dir)
  | p :: ps =>
    -- A link is left behind when no more components remain than stood after it.
    let active := active.filter fun a => a.2 ≤ parts.length
    if p == "." then fs.canonicalFrom links active dir ps
    else if p == ".." then fs.canonicalFrom links active dir.tail ps
    else
      let loc := p :: dir
      match fs.find? loc with
      | some (.link target) =>
        match links with
        | 0 => (false, descend loc ps)
        | n + 1 =>
          if active.any (·.1 == loc) then (false, descend loc ps)
          else
            fs.canonicalFrom n ((loc, ps.length + 1) :: active)
              (if isRooted target then [] else dir) (components target ++ ps)
      | _ => fs.canonicalFrom links active loc ps
termination_by (links, parts.length)

/-- A path without links and dots, or nothing if its links form a loop. -/
def canonical? (fs : FileSystem) (p : Path) : Option Path :=
  let s := p.text
  let start := if p.isAbsolute then [] else fs.here
  let (fine, loc) := fs.canonicalFrom (fs.entries.length * 40 + 40) [] start (components s)
  let path := pathOf loc
  if fine then some path
  else
    -- A link was met again, which is a loop if looking it up says so.
    match fs.status path with
    | .error f => if f.cause == .tooManyLinks then none else some path
    | .ok _ => some path

end FileSystem

end Stencil
