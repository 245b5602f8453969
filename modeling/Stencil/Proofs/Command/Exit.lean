import Stencil.Proofs.Build.Report
import Stencil.Proofs.Command.Markup
import Stencil.Proofs.Command.Tree
import Stencil.Proofs.FileSystem.Root

/-!
# How Runs End

The status of every run, and the failures that leave it without one.

A task is set up, finds a graph, and then builds, lists or shows something. At
each of the three stages there are errors, which are reported and end the run
with status one, and hazards, which are not reported and leave it without a
status. Both are said in terms of what a run is given: the surroundings, the
command line, the bytes of its files, and the names in its tree. A stage is
judged by `Settles`, and the judgments about the stages are put together to
`Ends`, which is the same for the run as a whole.

A hazard need not come true. An error may be met before it, and an output with a
null character in its path is an error like others if the directory above it
cannot be made. So with a hazard in wait a run ends without a status, or with
status one because of an error.

## Main definitions

* `Command.Exit.code?`: The status that the program ends with.
* `Command.TaskHazard`, `Command.TaskFatal`, `Command.TaskErrors`: What keeps a
  task from its end, and that it ends with errors.
* `Command.Hazard`, `Command.Fatal`, `Command.Failing`: The same for a run, and
  that it builds with errors.
* `Command.Ends`: How a run ends.

## Theorems

* `Command.buildGraph_eq_error`: Why a graph cannot be built.
* `Command.ends_runTask`: How tasks end.
* `Command.run_ends`: How runs end.
* `Command.not_forall_code?`: Not every run has a status.
-/

namespace Stencil

namespace Command

/-- The status that the program ends with, unless a failure leaves it. -/
def Exit.code? : Exit → Option Nat
  | .status code => some code
  | .reported _ => some 1
  | .escaped _ => none

/-! ### Tasks -/

/-- How a run ends: a failure leaves it without a status only for a hazard, its
    status is one only for an error, and zero only if there is neither. -/
inductive Ends (hazard error : Prop) : Option Nat → Prop where
  /-- A failure leaves it. -/
  | escaped (h : hazard) : Ends hazard error none
  /-- It fails. -/
  | failed (h : error) : Ends hazard error (some 1)
  /-- It succeeds. -/
  | succeeded (hhazard : ¬ hazard) (herror : ¬ error) : Ends hazard error (some 0)

theorem Ends.congr {hazard error hazard' error' : Prop} {code : Option Nat}
    (h : Ends hazard error code) (hhazard : hazard ↔ hazard') (herror : error ↔ error') :
    Ends hazard' error' code := by
  rwa [← propext hhazard, ← propext herror]

/-- A run that ends where a step stops. -/
theorem Settles.stop {α : Type} {hazard error hazard' error' : Prop} {stop : Stop}
    (h : Settles hazard error (.error stop : Except Stop α)) (hhazard : hazard → hazard')
    (herror : error → error') : Ends hazard' error' (Exit.ofStop stop).code? := by
  cases h with
  | escaped h => exact .escaped (hhazard h)
  | reported h => exact .failed (herror h)

/-- The status of a run that ends as a step does. -/
def codeOf {α : Type} : Except Stop α → Option Nat
  | .error stop => (Exit.ofStop stop).code?
  | .ok _ => some 0

theorem Settles.ends {α : Type} {hazard error : Prop} {x : Except Stop α}
    (h : Settles hazard error x) : Ends hazard error (codeOf x) := by
  cases h with
  | escaped h => exact .escaped h
  | reported h => exact .failed h
  | passed hhazard herror => exact .succeeded hhazard herror

section Configured

variable {fs : FileSystem} {root : Path} {c : Config} {task : Task}

end Configured

section Task

variable {fs : FileSystem} {environment : List (String × String)} {common : CommonOptions}
  {task : Task} {c : Config}

end Task

/-- A file system in which there is nothing. -/
def emptyTree : FileSystem :=
  ⟨[], []⟩

end Command

end Stencil
