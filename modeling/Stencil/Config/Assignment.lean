import Stencil.Report
import Stencil.Text.Blank
import Stencil.Yaml.Node.Value

/-!
# Assignments

Values for templates that are given one by one, as a name, an equals sign and a
value.

The first equals sign separates the two, so a value may hold more of them. The
value is read as a document of its own; nothing after the sign is the empty
text.

## Main definitions

* `AssignmentError`: Why assignments cannot be read.
* `readAssignments`: The values that assignments give.
-/

namespace Stencil

/-- Why assignments cannot be read. -/
inductive AssignmentError where
  /-- There is no equals sign, or nothing before it. -/
  | noName (assignment : String)
  /-- The value cannot be read. -/
  | badValue (why : Yaml.Fault)
  deriving DecidableEq, Repr

/-- The report of an assignment without a name. -/
def noNameReport (assignment : String) : Report :=
  { headline := "--var expects KEY=VALUE, got '" ++ assignment ++ "'" }

/-- The name and the value of an assignment. -/
def readAssignment (s : String) : Except AssignmentError (Datum × Datum) :=
  match Text.cutFirst '=' s with
  | none => .error (.noName s)
  | some (name, value) =>
    let name := Text.trim name
    if name.isEmpty then .error (.noName s)
    else if value.isEmpty then .ok (.text name, .text "")
    else
      match Yaml.load value with
      | .ok d => .ok (.text name, d)
      | .error why => .error (.badValue why)

/-- The values that assignments give; a later one replaces an earlier one. -/
def readAssignments (ss : List String) : Except AssignmentError Datum.Entries := do
  return Datum.Entries.update [] (← ss.mapM readAssignment)

end Stencil
