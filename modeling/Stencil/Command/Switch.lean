/-!
# Commands and Their Switches

What can be asked for on a command line.

A command has a name and switches. A switch has one or more names, of which the
first is the one that it is kept under, and takes nothing or one argument,
which may have to be a whole number or one of a few words.

## Main definitions

* `Takes`, `Switch`: What a switch takes, and a switch.
* `Verb`: A command.
* `verbs`: All commands.
* `topSwitches`: The switches in front of a command.

## Theorems

* `names_ne_nil`: Every switch of every command has a name.
-/

namespace Stencil

namespace Command

/-- What a switch takes. -/
inductive Takes where
  /-- Nothing. -/
  | nothing
  /-- Any text. -/
  | text (hint : String)
  /-- A whole number. -/
  | whole (hint : String)
  /-- One of some words. -/
  | oneOf (words : List String)
  deriving DecidableEq, Repr

/-- The switch takes something. -/
def Takes.isSome : Takes → Bool
  | .nothing => false
  | _ => true

/-- A switch. -/
structure Switch where
  /-- Its names. -/
  names : List String
  /-- What it takes. -/
  takes : Takes := .nothing
  deriving DecidableEq, Repr

namespace Switch

/-- The name that a switch is kept under. -/
def key (s : Switch) : String :=
  s.names.headD ""

/-- All names of a switch. -/
def label (s : Switch) : String :=
  "/".intercalate s.names

end Switch

/-- A command. -/
structure Verb where
  /-- Its name. -/
  name : String
  /-- What it does. -/
  summary : String
  /-- Its switches. -/
  switches : List Switch
  deriving DecidableEq, Repr

/-- The switch that asks for help. -/
def helpSwitch : Switch :=
  { names := ["-h", "--help"] }

/-- The switches in front of a command. -/
def topSwitches : List Switch :=
  [helpSwitch, { names := ["--version"] }]

/-- The switches that all commands have. -/
def sharedSwitches : List Switch :=
  [helpSwitch, { names := ["--input", "-i"], takes := .text "INPUT" },
    { names := ["--config", "-c"], takes := .text "CONFIG" },
    { names := ["--check-ignored-dirs"] }, { names := ["--verbose", "-v"] }]

/-- The command that renders. -/
def buildVerb : Verb where
  name := "build"
  summary := "Render templates to SQL"
  switches := sharedSwitches ++
    [{ names := ["--output", "-o"], takes := .text "OUTPUT_DIR" },
      { names := ["--ext"], takes := .text "EXT" },
      { names := ["--header"], takes := .text "HEADER" },
      { names := ["--workers", "-j"], takes := .whole "WORKERS" },
      { names := ["--var"], takes := .text "KEY=VALUE" },
      { names := ["--print-rerun-if-changed"] }, { names := ["--json"] }]

/-- The command that lists what outputs depend on. -/
def watchVerb : Verb where
  name := "watch"
  summary := "Print source files that outputs depend on"
  switches := sharedSwitches ++
    [{ names := ["--output", "-o"], takes := .text "OUTPUT" }, { names := ["--absolute"] },
      { names := ["--format", "-f"], takes := .oneOf ["lines", "cargo", "json"] }]

/-- The command that shows the graph. -/
def graphVerb : Verb where
  name := "graph"
  summary := "Show the import tree"
  switches := sharedSwitches

/-- All commands. -/
def verbs : List Verb :=
  [buildVerb, watchVerb, graphVerb]

theorem names_ne_nil : ∀ v ∈ verbs, ∀ s ∈ v.switches, s.names ≠ [] := by
  decide

end Command

end Stencil
