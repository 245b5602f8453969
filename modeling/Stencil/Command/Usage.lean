import Stencil.Command.Arguments

/-!
# Usage

What a user is told about a command line.

The usage of a command names its switches, as many to a line as fit. A refused
line is answered with the usage of whoever refuses it, and the reason.

## Main definitions

* `usage`: The usage of the program or of a command.
* `overview`: The help of the program.
* `Misuse.message`, `Refusal.lines`: The answer to a refused line.

## Theorems

* `fill_nil`: Without parts there are no lines.
-/

namespace Stencil

namespace Command

/-- The name of the program. -/
def program : String :=
  "sqlweld"

/-- The version of the program. -/
def version : String :=
  program ++ " 0.2.0"

/-- The name of the program and of a command. -/
def fullName : Option Verb → String
  | none => program
  | some v => program ++ " " ++ v.name

/-- What stands for the argument of a switch. -/
def Takes.hint? : Takes → Option String
  | .nothing => none
  | .text hint => some hint
  | .whole hint => some hint
  | .oneOf words => some ("\x7b" ++ ",".intercalate words ++ "\x7d")

/-- A switch as usages show it. -/
def Switch.part (s : Switch) : String :=
  "[" ++ s.key ++ (s.takes.hint?.elim "" (" " ++ ·)) ++ "]"

/-- How many characters a line of a usage may have. -/
def lineWidth : Nat := 78

/-- Parts put into lines, as many to a line as fit. `line` holds the current
line without what all lines start with, and `used` is its width. -/
def fill (start : Nat) (line : List String) (used : Nat) : List String → List String
  | [] => if line.isEmpty then [] else [" ".intercalate line]
  | p :: ps =>
    if used + 1 + p.length > lineWidth && !line.isEmpty then
      " ".intercalate line :: fill start [p] (start + p.length) ps
    else fill start (line ++ [p]) (used + 1 + p.length) ps

theorem fill_nil (start used : Nat) : fill start [] used [] = [] := rfl

/-- What a usage starts with. -/
def usageMark : String := "usage: "

/-- The usage of the program or of a command, in lines. -/
def usage : Option Verb → List String
  | none =>
    let names := ",".intercalate (verbs.map (·.name))
    let parts := topSwitches.map Switch.part ++ ["\x7b" ++ names ++ "\x7d", "..."]
    [usageMark ++ " ".intercalate (program :: parts)]
  | some v =>
    let name := fullName (some v)
    let start := usageMark.length + name.length
    let blanks := String.ofList (List.replicate (start + 1) ' ')
    match fill start [] start (v.switches.map Switch.part) with
    | [] => [usageMark ++ name]
    | l :: ls => (usageMark ++ name ++ " " ++ l) :: ls.map (blanks ++ ·)

/-- A text with blanks after it up to a width. -/
def padTo (width : Nat) (s : String) : String :=
  s ++ String.ofList (List.replicate (width - s.length) ' ')

/-- Examples of command lines, each with what it does. -/
def samples : List (String × String) :=
  [("build", "Render templates under the current directory"),
    ("build -i db/queries -o gen", "Write outputs under ./gen"),
    ("build --header \"\"", "Omit the generated-file header"),
    ("build --var schema=app", "Pass extra template variables"),
    ("build --print-rerun-if-changed", "Emit cargo rerun directives"),
    ("watch --format cargo", "Watch list without rendering"),
    ("watch --output get.sql", "Sources of a single output"),
    ("graph", "Show the import tree")]

/-- The help of the program. -/
def overview : List String :=
  let names := ",".intercalate (verbs.map (·.name))
  usage none ++ ["", "🔩 sqlweld - Create SQL files from templates and partials", "",
    "positional arguments:", padTo 23 ("  \x7b" ++ names ++ "\x7d") ++ "Commands"] ++
  verbs.map (fun v => padTo 23 ("    " ++ v.name) ++ v.summary) ++
  ["", "options:", padTo 23 "  -h, --help" ++ "show this help message and exit",
    padTo 23 "  --version" ++ "show program's version number and exit", "", "Examples:"] ++
  samples.map (fun s => "  " ++ program ++ " " ++ padTo 31 s.1 ++ s.2) ++ [""]

/-- The reason for refusing a line. -/
def Misuse.message : Misuse → String
  | .ambiguous word names =>
    "ambiguous option: " ++ word ++ " could match " ++ ", ".intercalate names
  | .extraArgument switch value =>
    "argument " ++ switch ++ ": ignored explicit argument " ++ Text.quoted value
  | .noArgument switch => "argument " ++ switch ++ ": expected one argument"
  | .notWhole switch value =>
    "argument " ++ switch ++ ": invalid int value: " ++ Text.quoted value
  | .notOneOf switch value words =>
    "argument " ++ switch ++ ": invalid choice: " ++ Text.quoted value ++ " (choose from " ++
      ", ".intercalate (words.map Text.quoted) ++ ")"
  | .unrecognized words => "unrecognized arguments: " ++ " ".intercalate words

/-- The answer to a refused line. -/
def Refusal.lines (r : Refusal) : List String :=
  usage r.verb ++ [fullName r.verb ++ ": error: " ++ r.why.message]

end Command

end Stencil
