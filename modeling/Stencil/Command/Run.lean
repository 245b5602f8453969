import Stencil.Command.Display
import Stencil.Command.Request
import Stencil.Command.Usage
import Stencil.Config.Assignment
import Stencil.Config.Settings

/-!
# Running Commands

From a command line to what is shown, what is written and how the run ends.

The configuration of a run is that of the file, overridden by what the command
line says. A failure that is one of the tree, of the configuration or of the
command line is reported, and the run ends with status one; a refused command
line ends it with status two. Anything else that goes wrong is left to whoever
started the run.

## Main definitions

* `Escape`: A failure that is not reported.
* `Exit`: How a run ends.
* `Outcome`: What a run shows, writes, and ends with.
* `run`: Runs a command line.

## Theorems

* `run_refused`: A refused command line changes no file.
-/

namespace Stencil

namespace Command

/-- A failure that is not reported. -/
inductive Escape where
  /-- The settings of the surroundings are no settings. -/
  | settings (complaints : List Config.Complaint)
  /-- How much is to be reported is none of the words for it. -/
  | severity
  /-- There is no configuration. -/
  | config (why : LoadError)
  /-- The value of an assignment cannot be read. -/
  | value (why : Yaml.Fault)
  /-- A path has a loop of links in it. -/
  | linkLoop
  /-- A path is one that no file can have. -/
  | badPath
  /-- An output has a path that no file can have. -/
  | output (why : Fault)
  /-- The tree cannot be cataloged. -/
  | catalog (why : CatalogError)
  /-- A name is not well marked up. -/
  | markup
  deriving DecidableEq, Repr

/-- The wording of a failure that is not reported. -/
def Escape.message : Escape → String
  | .settings cs => Config.Complaint.listing cs
  | .severity => "unknown log level"
  | .config (.notText why) => why.message
  | .config (.badValue why) => why.message
  | .config (.fault why) => why.message
  | .config _ => "a field is named by something that is no text"
  | .value why => why.message
  | .linkLoop => "the links of a path form a loop"
  | .badPath => Cause.nullCharacter.message
  | .output why => why.message
  | .catalog why => why.message
  | .markup => "a closing tag closes nothing"

/-- Why a task stops. -/
inductive Stop where
  /-- A failure that is reported. -/
  | reported (report : Report)
  /-- A failure that is not. -/
  | escaped (why : Escape)
  deriving DecidableEq, Repr

/-- How a run ends. -/
inductive Exit where
  /-- With a status. -/
  | status (code : Nat)
  /-- With a report, and status one. -/
  | reported (report : Report)
  /-- With a failure that is not reported. -/
  | escaped (why : Escape)
  deriving DecidableEq, Repr

/-- The exit of a task that stops. -/
def Exit.ofStop : Stop → Exit
  | .reported r => .reported r
  | .escaped why => .escaped why

/-- What a run shows, writes, and ends with. -/
structure Outcome where
  /-- The files after the run. -/
  files : FileSystem
  /-- The lines that are shown. -/
  out : List String := []
  /-- The lines about what went wrong. -/
  err : List String := []
  /-- How the run ends. -/
  exit : Exit := .status 0

/-- What stops a task when a failure has a report, or has none. -/
def stopWith (report : Option Report) (why : Escape) : Stop :=
  report.elim (.escaped why) .reported

/-- The settings of a run. -/
def settingsOf (environment : List (String × String)) : Except Stop Settings :=
  (Settings.ofEnvironment environment).mapError fun cs => .escaped (.settings cs)

/-- Whether warnings are shown. -/
def showsWarnings (environment : List (String × String)) (common : CommonOptions) :
    Except Stop Bool :=
  if common.verbose then .ok true
  else
    match settingsOf environment with
    | .error stop => .error stop
    | .ok s =>
      match s.warns? with
      | some shown => .ok shown
      | none => .error (.escaped .severity)

/-- A path without links in it, from the working directory. -/
def resolvePath (fs : FileSystem) (p : Path) : Except Stop Path :=
  if p.text.toList.contains (Char.ofNat 0) then .error (.escaped .badPath)
  else
    match fs.canonical? p with
    | some real => .ok real
    | none => .error (.escaped .linkLoop)

/-- A switch as the override of a field. -/
def flagOverride (name : String) (given : Bool) : String × Datum :=
  (name, if given then .bool true else .null)

/-- The overrides that all commands have. -/
def commonOverrides (common : CommonOptions) : Config.Fields :=
  [flagOverride "include_ignored" common.includeIgnored, flagOverride "verbose" common.verbose]

/-- How many renders may run at once: what the command line says, or else the
surroundings. None at all says nothing. -/
def workersOf (given fromSettings : Option Int) : Option Int :=
  match given with
  | some n => if n == 0 then fromSettings else some n
  | none => fromSettings

/-- The context that assignments make. -/
def contextOf (assignments : List String) : Except Stop Datum :=
  if assignments.isEmpty then .ok .null
  else
    match readAssignments assignments with
    | .ok es => .ok (.map es)
    | .error (.badValue why) => .error (.escaped (.value why))
    | .error (.noName assignment) => .error (.reported (noNameReport assignment))

/-- The overrides of a task. -/
def taskOverrides (fs : FileSystem) (s : Settings) : Task → Except Stop Config.Fields
  | .build o => do
    let dir ← match o.outputDir with
      | none => pure .null
      | some p => (fun real => Datum.text real.text) <$> resolvePath fs p
    let context ← contextOf o.assignments
    let text (t : Option String) : Datum := t.elim .null .text
    return [("output_dir", dir), ("extension", text o.extension), ("header", text o.header),
      ("workers", (workersOf o.workers s.workers).elim .null .int), ("context", context)]
  | _ => .ok [("workers", s.workers.elim .null .int)]

/-- The configuration of a run. -/
def configOf (fs : FileSystem) (environment : List (String × String)) (root : Path)
    (common : CommonOptions) (task : Task) : Except Stop Config := do
  let s ← settingsOf environment
  let file := match common.config with
    | some p => some p
    | none => s.config
  let c ← (Config.load fs root file).mapError fun e => stopWith e.report? (.config e)
  let overrides ← taskOverrides fs s task
  match c.override (overrides ++ commonOverrides common) with
  | .ok c => return c
  | .error (.invalid cs) =>
    throw (.reported { headline := "Invalid options", account := some (Config.Complaint.listing cs) })
  | .error .contextNotMap => throw (.reported { headline := "Invalid options" })

/-- The report of a tree that has no graph. -/
def treeStop : TreeError → Stop
  | .catalog (.notDirectory root) =>
    .reported { headline := (CatalogError.notDirectory root).message }
  | .catalog (.unreadable path why) =>
    .reported { headline := (CatalogError.unreadable path why).message }
  | .catalog (.notText path why) =>
    .reported { headline := (CatalogError.notText path why).message }
  | .catalog why => .escaped (.catalog why)
  | .graph why => .reported { headline := why.message }

/-- What stops a build. -/
def buildStop : BuildError → Stop
  | .config why => stopWith why.report? (.config why)
  | .tree why => treeStop why
  | .conflict why => .reported { headline := why.message }
  | .path why => .escaped (.output why)

/-- What stops the look-up of an output. -/
def lookupStop : LookupError → Stop
  | .unknown output => .reported { headline := unknownOutputMessage output }
  | .linkLoop => .escaped .linkLoop
  | .badPath => .escaped .badPath

/-- The lines of a warning. -/
def warningLines (message : String) : List String :=
  match cleanLines message with
  | [] => []
  | l :: ls => ("WARNING  " ++ l) :: ls.map ("         " ++ ·)

/-- The warnings of a walk. -/
def noteWarnings (notes : Catalog.Notes) : List String :=
  notes.map fun n => "Skipping unreadable ignore file " ++ n.1.text ++ ": " ++ n.2.message

/-- The lines of some warnings, if they are shown. -/
def warn (shown : Bool) (messages : List String) : List String :=
  if shown then messages.flatMap warningLines else []

/-- The lines that a finished build shows, and those about what went wrong; the
first part is what was shown if a name is not well marked up. -/
def showBuild (o : BuildOptions) (c : Config) (r : BuildReport) :
    List String × Option (List String × List String) :=
  let rerun :=
    if o.printRerun then
      (rerunLines rerunMark (r.watched.map fun p => (r.root.child p).text)).flatMap cleanLines
    else []
  if o.asDocument then (rerun, some (cleanLines r.document.write, []))
  else
    let table := if c.verbose && !r.results.isEmpty then r.table? else some []
    match table with
    | none => (rerun, none)
    | some rows =>
      let problems := (r.failures.flatMap BuildReport.failureLines).flatMap cleanLines
      if r.isOk then (rerun, some (rows.flatMap cleanLines ++ [r.summary], problems))
      else (rerun, some (rows.flatMap cleanLines, problems ++ [r.summary]))

/-- Runs a build. -/
def runBuild (fs : FileSystem) (shown : Bool) (root : Path) (o : BuildOptions) (c : Config) :
    Outcome :=
  let built := buildWith fs root c
  let notes := warn shown (noteWarnings built.notes)
  match built.report with
  | .error why => { files := built.files, err := notes, exit := .ofStop (buildStop why) }
  | .ok r =>
    let warnings := notes ++ warn shown (r.writes.errors.map WriteError.message)
    match showBuild o c r with
    -- By then the files are written.
    | (out, none) =>
      { files := built.files, out := out, err := warnings, exit := .escaped .markup }
    | (out, some (more, problems)) =>
      { files := built.files, out := out ++ more, err := warnings ++ problems
        exit := .status (if r.isOk then 0 else 1) }

/-- What a listing shows. -/
def showWatch (o : WatchOptions) (g : Graph) (paths : List String) : List String :=
  let paths := if o.absolute then g.absolutePaths paths else paths
  match o.format with
  | .json => cleanLines (Document.texts paths).write
  | .cargo => (rerunLines rerunMark paths).flatMap cleanLines
  | .lines => paths.flatMap cleanLines

/-- Runs a task that only shows something of the graph. -/
def runGraph (fs : FileSystem) (shown : Bool) (root : Path) (c : Config)
    (show_ : Graph → Except Stop (List String)) : Outcome :=
  let (notes, found) := loadGraph fs root c
  let err := warn shown (noteWarnings notes)
  match found.mapError treeStop >>= show_ with
  | .ok out => { files := fs, out := out, err := err }
  | .error stop => { files := fs, err := err, exit := .ofStop stop }

/-- Runs a task. -/
def runTask (fs : FileSystem) (environment : List (String × String)) (common : CommonOptions)
    (task : Task) : Outcome :=
  match showsWarnings environment common with
  | .error stop => { files := fs, exit := .ofStop stop }
  | .ok shown =>
    let root := common.input.getD (FileSystem.pathOf fs.here)
    match configOf fs environment root common task with
    | .error stop => { files := fs, exit := .ofStop stop }
    | .ok c =>
      match task with
      | .build o => runBuild fs shown root o c
      | .watch o => runGraph fs shown root c fun g =>
        ((g.watchPaths fs c o.output).mapError lookupStop).map (showWatch o g)
      | .graph => runGraph fs shown root c fun g =>
        match g.branch? with
        | some b => .ok b.lines
        | none => .error (.escaped .markup)

/-- Runs a request. -/
def runRequest (fs : FileSystem) (environment : List (String × String)) : Request → Outcome
  | .help => { files := fs, out := overview }
  | .version => { files := fs, out := [version] }
  | .usage verb => { files := fs, out := usage (some verb) }
  | .task common task => runTask fs environment common task

/-- Runs a command line. -/
def run (fs : FileSystem) (environment : List (String × String)) (words : List String) : Outcome :=
  match readLine words with
  | .error refusal => { files := fs, err := refusal.lines, exit := .status 2 }
  | .ok asked => runRequest fs environment (.ofAsked asked)

theorem run_refused (fs : FileSystem) (environment : List (String × String)) (words : List String)
    {refusal : Refusal} (h : readLine words = .error refusal) :
    (run fs environment words).files = fs := by
  simp [run, h]

/-- The text of a report as it is shown. -/
def reportText (r : Report) : String :=
  (Markup.plain? ("[red]Error:[/red] " ++ Markup.escape r.text)).getD r.text

end Command

end Stencil
