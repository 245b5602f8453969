import Stencil.FileSystem.Message
import Stencil.Output.Header
import Stencil.Output.Replace
import Stencil.Text.Utf8

/-!
# Writing Outputs

Outputs on their way to files.

An output whose file has the right content already is left alone, so that
nothing that depends on the file is disturbed. Several outputs are written one
after the other, and one that cannot be written does not stop the others. Only
a path that no file can have stops them: it comes from a mistake in what was
asked for and not from the state of the files.

## Main definitions

* `WriteStatus`, `WriteError`, `WriteSummary`: What became of an output, why it
  was not written, and what became of several.
* `FileSystem.write`: Writes one output.
* `FileSystem.writeAll`: Writes several.

## Theorems

* `WriteSummary.attempts_note`: Every output that is attempted is in one list.
-/

namespace Stencil

/-- What became of an output that was written. -/
inductive WriteStatus where
  /-- Its file did not exist. -/
  | created
  /-- Its file had another content. -/
  | updated
  /-- Its file had the content already. -/
  | unchanged
  deriving DecidableEq, Repr

/-- The word for a status. -/
def WriteStatus.text : WriteStatus → String
  | .created => "created"
  | .updated => "updated"
  | .unchanged => "unchanged"

/-- An output could not be written. -/
structure WriteError where
  /-- The path of the output. -/
  path : Path
  /-- Why it could not be written. -/
  why : Fault
  deriving DecidableEq, Repr

/-- The report of an output that could not be written. -/
def WriteError.message (e : WriteError) : String :=
  "Failed to write " ++ e.path.text ++ ": " ++ e.why.message

/-- What became of several outputs. -/
structure WriteSummary where
  /-- Outputs whose files did not exist. -/
  created : List Path := []
  /-- Outputs whose files had another content. -/
  updated : List Path := []
  /-- Outputs whose files had their content already. -/
  unchanged : List Path := []
  /-- Outputs that could not be written. -/
  errors : List WriteError := []
  deriving DecidableEq, Repr

namespace WriteSummary

/-- How many outputs the summary is about. -/
def attempts (s : WriteSummary) : Nat :=
  s.created.length + s.updated.length + s.unchanged.length + s.errors.length

/-- Every output could be written. -/
def isSuccess (s : WriteSummary) : Bool :=
  s.errors.isEmpty

/-- The files that changed, in order. -/
def written (s : WriteSummary) : List Path :=
  (s.created ++ s.updated).mergeSort Path.le

/-- The summary with one more output. -/
def note (s : WriteSummary) (path : Path) : Except Fault WriteStatus → WriteSummary
  | .ok .created => { s with created := s.created ++ [path] }
  | .ok .updated => { s with updated := s.updated ++ [path] }
  | .ok .unchanged => { s with unchanged := s.unchanged ++ [path] }
  | .error why => { s with errors := s.errors ++ [⟨path, why⟩] }

theorem attempts_note (s : WriteSummary) (path : Path) (r : Except Fault WriteStatus) :
    (s.note path r).attempts = s.attempts + 1 := by
  cases r with
  | error why => simp [note, attempts]; omega
  | ok status => cases status <;> simp [note, attempts] <;> omega

end WriteSummary

/-- The path is one that no file can have. -/
def Fault.refusesPath (f : Fault) : Bool :=
  f.cause == .nullCharacter

namespace FileSystem

/-- The file holds exactly some bytes. -/
def holds (fs : FileSystem) (p : Path) (data : ByteArray) : Except Fault Bool :=
  (fs.read p).map (· == data)

/-- Gives a file some content, unless it has it. -/
def writeData (fs : FileSystem) (p : Path) (data : ByteArray) :
    FileSystem × Except Fault WriteStatus :=
  match fs.exists? p with
  | .error f => (fs, .error f)
  | .ok false =>
    let (fs', done) := fs.replace p data
    (fs', done.map fun _ => .created)
  | .ok true =>
    match fs.holds p data with
    | .error f => (fs, .error f)
    | .ok true => (fs, .ok .unchanged)
    | .ok false =>
      let (fs', done) := fs.replace p data
      (fs', done.map fun _ => .updated)

/-- Writes one output: the comment of a header and a body. -/
def write (fs : FileSystem) (header : String) (p : Path) (body : String) :
    FileSystem × Except Fault WriteStatus :=
  fs.writeData p (Text.Utf8.encode (Header.apply header body))

/-- Writes several outputs, in order, and adds them to a summary. -/
def writeFrom (fs : FileSystem) (header : String) (s : WriteSummary) :
    List (Path × String) → FileSystem × Except Fault WriteSummary
  | [] => (fs, .ok s)
  | (p, body) :: rest =>
    match fs.write header p body with
    | (fs', .ok status) => writeFrom fs' header (s.note p (.ok status)) rest
    | (fs', .error f) =>
      if f.refusesPath then (fs', .error f) else writeFrom fs' header (s.note p (.error f)) rest

/-- Writes several outputs, in order. -/
def writeAll (fs : FileSystem) (header : String) (outputs : List (Path × String)) :
    FileSystem × Except Fault WriteSummary :=
  fs.writeFrom header {} outputs

end FileSystem

end Stencil
