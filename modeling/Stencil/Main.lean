import Stencil.Command.Run

/-!
# The Program

The command line on a real disk.

Everything that is decided is decided by `Command.run` on a file system that is
a value. What is left here is to make that value from the disk, to bring the
changes back, and to show the lines. A link is noted with the path that it
finally leads to.

## Main definitions

* `Disk.note`: Notes an entry of the disk and all below it.
* `Disk.store`: Brings changes back to the disk.
* `main`: The program.
-/

namespace Stencil

namespace Disk

/-- The location of a path text. -/
def locationOf (path : String) : Location :=
  (Path.ofString path).parts.reverse

/-- Notes an entry of the disk, and all below it. -/
partial def note (fs : FileSystem) (path : String) : IO FileSystem := do
  try
    let real ← IO.FS.realPath path
    let text := real.toString
    let loc := locationOf text
    if text != path && (fs.find? (locationOf path)).isNone then
      let fs := (fs.makeDirectories (Path.ofString path).parent).1
      let fs := fs.put (locationOf path) (.link text)
      return ← note fs text
    else if ← real.isDir then
      let mut files := (fs.makeDirectories (Path.ofString text)).1
      for e in ← real.readDir do
        let child := e.path.toString
        if (files.find? (locationOf child)).isNone then
          files ← note files child
      return files
    else
      let fs := (fs.makeDirectories (Path.ofString text).parent).1
      return fs.put loc (.file (← IO.FS.readBinFile text) newFileMode)
  catch _ => return fs

/-- Gives a file of the disk new content at one stroke. -/
def storeFile (path : String) (data : ByteArray) : IO Unit := do
  let fresh := path ++ ".tmp"
  IO.FS.writeBinFile fresh data
  IO.FS.rename fresh path

/-- Brings changes back to the disk. -/
def store (old new : FileSystem) : IO Unit := do
  for (loc, e) in new.entries.reverse do
    let path := (FileSystem.pathOf loc).text
    match e, old.find? loc with
    | .directory, _ => IO.FS.createDirAll path
    | .file data _, some (.file before _) =>
      unless before.data == data.data do storeFile path data
    | .file data _, _ => storeFile path data
    | .link _, _ => pure ()
  for (loc, _) in old.entries do
    if (new.find? loc).isNone then IO.FS.removeFile (FileSystem.pathOf loc).text

/-- The variables of the environment that mean something. -/
def environment : IO (List (String × String)) := do
  let names := ["SQLWELD_CONFIG", "SQLWELD_WORKERS", "SQLWELD_LOG_LEVEL"]
  let mut found := []
  for name in names do
    if let some value ← IO.getEnv name then found := found ++ [(name, value)]
  return found

/-- The paths that a command line and its environment name. -/
def named (words : List String) (environment : List (String × String)) : List String :=
  let given := match Command.readLine words with
    | .ok (.verb _ given) => given
    | _ => []
  let keys := ["--input", "--config", "--output"]
  (given.filter fun g => keys.contains g.1).map Prod.snd ++ environment.map Prod.snd

end Disk

end Stencil

section Program

open Stencil

/-- The program. -/
def main (words : List String) : IO UInt32 := do
  let here := (← IO.currentDir).toString
  let environment ← Disk.environment
  let mut files ← Disk.note ⟨[], Disk.locationOf here⟩ here
  for path in Disk.named words environment do
    files ← Disk.note files ((Path.ofString here).child path).text
  let outcome := Command.run files environment words
  Disk.store files outcome.files
  for line in outcome.out do IO.println line
  for line in outcome.err do IO.eprintln line
  match outcome.exit with
  | .status code => return code.toUInt32
  | .reported report =>
    IO.eprintln (Command.reportText report)
    return 1
  | .escaped why =>
    IO.eprintln why.message
    return 1

end Program
