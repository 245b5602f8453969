import Stencil.Command.Arguments
import Stencil.Path

/-!
# Requests

What a command line asks for, as values of the domain.

A switch that is given several times counts as given last, except for
assignments, all of which are kept in order.

## Main definitions

* `CommonOptions`, `BuildOptions`, `WatchOptions`: The options of commands.
* `Request`: A request.
* `Request.ofAsked`: The request of a command line.

## Theorems

* `last?_append`: What is given later counts.
-/

namespace Stencil

namespace Command

/-- The options that all commands have. -/
structure CommonOptions where
  /-- The root of the tree. -/
  input : Option Path
  /-- The file that configures the run. -/
  config : Option Path
  /-- Hidden and ignored files take part. -/
  includeIgnored : Bool
  /-- Every file is reported. -/
  verbose : Bool
  deriving DecidableEq, Repr

/-- The options of a build. -/
structure BuildOptions where
  /-- Where outputs go. -/
  outputDir : Option Path
  /-- The extension of outputs. -/
  extension : Option String
  /-- The header of outputs. -/
  header : Option String
  /-- How many renders may run at once. -/
  workers : Option Int
  /-- Assignments of values for templates. -/
  assignments : List String
  /-- Lines for a build tool are printed. -/
  printRerun : Bool
  /-- The report is printed as a document. -/
  asDocument : Bool
  deriving DecidableEq, Repr

/-- How a list of paths is printed. -/
inductive ListFormat where
  /-- A path on each line. -/
  | lines
  /-- A line for a build tool for each path. -/
  | cargo
  /-- A document. -/
  | json
  deriving DecidableEq, Repr

/-- The options of a listing of what outputs depend on. -/
structure WatchOptions where
  /-- The output that is asked for, if not all. -/
  output : Option String
  /-- Paths are absolute. -/
  absolute : Bool
  /-- How the list is printed. -/
  format : ListFormat
  deriving DecidableEq, Repr

/-- What a command does. -/
inductive Task where
  /-- Renders and writes. -/
  | build (options : BuildOptions)
  /-- Lists what outputs depend on. -/
  | watch (options : WatchOptions)
  /-- Shows the graph. -/
  | graph
  deriving DecidableEq, Repr

/-- A request. -/
inductive Request where
  /-- For the help of the program. -/
  | help
  /-- For the version of the program. -/
  | version
  /-- For the usage of a command. -/
  | usage (verb : Verb)
  /-- For a task. -/
  | task (common : CommonOptions) (task : Task)
  deriving DecidableEq, Repr

/-- The argument that a switch was last given with. -/
def last? (given : List Given) (key : String) : Option String :=
  given.reverse.lookup key

/-- All arguments that a switch was given with. -/
def all (given : List Given) (key : String) : List String :=
  (given.filter (·.1 == key)).map Prod.snd

/-- The switch was given. -/
def has (given : List Given) (key : String) : Bool :=
  (last? given key).isSome

theorem last?_append (given : List Given) (key value : String) :
    last? (given ++ [(key, value)]) key = some value := by
  simp [last?]

/-- The options that all commands have. -/
def CommonOptions.ofGiven (g : List Given) : CommonOptions where
  input := (last? g "--input").map Path.ofString
  config := (last? g "--config").map Path.ofString
  includeIgnored := has g "--check-ignored-dirs"
  verbose := has g "--verbose"

/-- The options of a build. -/
def BuildOptions.ofGiven (g : List Given) : BuildOptions where
  outputDir := (last? g "--output").map Path.ofString
  extension := last? g "--ext"
  header := last? g "--header"
  workers := (last? g "--workers").bind String.toInt?
  assignments := all g "--var"
  printRerun := has g "--print-rerun-if-changed"
  asDocument := has g "--json"

/-- The format that a word names. -/
def ListFormat.ofWord (word : String) : ListFormat :=
  if word == "cargo" then .cargo else if word == "json" then .json else .lines

/-- The options of a listing. -/
def WatchOptions.ofGiven (g : List Given) : WatchOptions where
  output := last? g "--output"
  absolute := has g "--absolute"
  format := .ofWord ((last? g "--format").getD "lines")

/-- The task of a command. -/
def Task.ofGiven (verb : Verb) (g : List Given) : Task :=
  if verb.name == "build" then .build (.ofGiven g)
  else if verb.name == "watch" then .watch (.ofGiven g)
  else .graph

/-- The request of a command line. -/
def Request.ofAsked : Asked → Request
  | .help => .help
  | .version => .version
  | .verbHelp verb => .usage verb
  | .verb verb given => .task (.ofGiven given) (.ofGiven verb given)

end Command

end Stencil
