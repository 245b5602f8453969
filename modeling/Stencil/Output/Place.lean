import Stencil.Catalog.Basic

/-!
# Where Outputs Stand

The path of the output of a template.

An output is named after its template, with the suffix replaced by an
extension. It stands beside the template, or at the same place below a
directory of outputs if there is one.

## Main definitions

* `Source.outputName`: The path of an output relative to where outputs stand.
* `Config.outputRoot`: Where outputs stand.
* `Source.outputPath`: The path of an output.

## Theorems

* `Config.outputRoot_of_none`: Without a directory of outputs they stand in the
  tree.
-/

namespace Stencil

/-- The path of an output relative to where outputs stand. -/
def Source.outputName (s : Source) (c : Config) : String :=
  s.logicalName ++ "." ++ c.extension

/-- Where the outputs of a tree stand. -/
def Config.outputRoot (c : Config) (root : Path) : Path :=
  match c.outputDir with
  | none => root
  | some dir => root.join dir

/-- The path of the output of a template. -/
def Source.outputPath (s : Source) (root : Path) (c : Config) : Path :=
  (c.outputRoot root).child (s.outputName c)

theorem Config.outputRoot_of_none {c : Config} (h : c.outputDir = none) (root : Path) :
    c.outputRoot root = root := by
  simp [outputRoot, h]

end Stencil
