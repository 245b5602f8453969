import Stencil.FileSystem.Basic
import Stencil.Text.Quoted

/-!
# The Wording of Faults

How a failed file operation is reported: the number and the wording of its
cause, then the path in quotes, and the second path of an operation on two.

## Main definitions

* `Fault.message`: The report of a fault.
-/

namespace Stencil

/-- The report of a fault. -/
def Fault.message (f : Fault) : String :=
  if f.cause == .nullCharacter then f.cause.message
  else
    let target := match f.other with
      | none => ""
      | some p => " -> " ++ Text.quoted p
    "[Errno " ++ toString f.cause.code ++ "] " ++ f.cause.message ++ ": " ++
      Text.quoted f.path ++ target

end Stencil
