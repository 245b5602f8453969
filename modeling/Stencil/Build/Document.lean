import Stencil.Build
import Stencil.Document

/-!
# Build Reports as Documents

What a build did, for other programs.

Every failure is listed with what it is about, its kind and its report; those
of rendering come before those of writing.

## Main definitions

* `BuildFailure`: A failure with its kind.
* `BuildReport.failures`: All failures.
* `BuildReport.document`: The report as a document.

## Theorems

* `BuildReport.length_failures`: The failures are as many as are counted.
-/

namespace Stencil

/-- A failure in a report. -/
structure BuildFailure where
  /-- The query or the output. -/
  path : String
  /-- The kind of the failure. -/
  kind : String
  /-- The report of the failure. -/
  message : String
  deriving DecidableEq, Repr

namespace BuildReport

/-- All failures, those of rendering first. -/
def failures (r : BuildReport) : List BuildFailure :=
  (r.renderErrors.map fun e => ⟨e.path, "RenderError", e.message⟩) ++
    (r.writes.errors.map fun e => ⟨e.path.text, "WriteError", e.message⟩)

theorem length_failures (r : BuildReport) : r.failures.length = r.errorCount := by
  simp [failures, errorCount]

/-- Paths as a list. -/
def pathList (ps : List Path) : Document :=
  .texts (ps.map Path.text)

/-- The report as a document. -/
def document (r : BuildReport) : Document :=
  .record [("root", .text r.root.text), ("ok", .flag r.isOk),
    ("outputs", .list (r.results.map fun x => .record [("source", .text x.source),
      ("output", .text x.output.text), ("dependencies", .texts x.dependencies)])),
    ("created", pathList r.writes.created), ("updated", pathList r.writes.updated),
    ("unchanged", pathList r.writes.unchanged),
    ("errors", .list (r.failures.map fun e => .record [("path", .text e.path),
      ("kind", .text e.kind), ("message", .text e.message)]))]

end BuildReport

end Stencil
