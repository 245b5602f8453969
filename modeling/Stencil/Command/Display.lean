import Stencil.Build.Document
import Stencil.Command.Markup

/-!
# What Commands Show

Lines of text for a reader.

A line is cleaned before it is shown: characters that would move the cursor are
dropped, and a tab becomes blanks up to the next column that is a multiple of
eight. Names of templates in the table and in the tree are marked-up text, so a
bracket in a name may be taken for a tag.

## Main definitions

* `cleanLines`: A text as it is shown.
* `Branch`: A labelled tree, with `Branch.lines` to show it.
* `Graph.branch?`: The tree of a graph.
* `BuildReport.table?`, `BuildReport.summary`: What a build did.

## Theorems

* `Branch.lines_leaf`: A tree without branches is a single label.
-/

namespace Stencil

namespace Command

/-- The character would move the cursor, the one that starts a new line
excepted. -/
def movesCursor (c : Char) : Bool :=
  let n := c.toNat
  n == 7 || n == 8 || (11 ≤ n && n ≤ 13)

/-- A line with tabs replaced by blanks; `column` is where it continues. -/
def expandTabs (column : Nat) : List Char → List Char
  | [] => []
  | c :: cs =>
    if c == '\t' then
      let width := 8 - column % 8
      List.replicate width ' ' ++ expandTabs (column + width) cs
    else c :: expandTabs (column + 1) cs

/-- The lines of a text as they are shown. -/
def cleanLines (s : String) : List String :=
  (Text.splitChars '\n' [] (s.toList.filter (!movesCursor ·))).map fun line =>
    String.ofList (expandTabs 0 line)

/-- A labelled tree. -/
inductive Branch where
  /-- A label, and what hangs on it. -/
  | node (label : String) (branches : List Branch)

namespace Branch

/-- A label of several lines: what stands before the first line and before each
of the others. -/
def labelLines (first rest : String) (label : String) : List String :=
  match cleanLines label with
  | [] => [first]
  | l :: ls => (first ++ l) :: ls.map (rest ++ ·)

mutual
/-- The lines of a tree: what stands before its first line and before each of
the others. -/
def linesAt (first rest : String) : Branch → List String
  | .node label bs => labelLines first rest label ++ linesAll rest bs

/-- The lines of the branches of a tree. -/
def linesAll (before : String) : List Branch → List String
  | [] => []
  | [b] => linesAt (before ++ "└── ") (before ++ "    ") b
  | b :: c :: bs => linesAt (before ++ "├── ") (before ++ "│   ") b ++ linesAll before (c :: bs)
end

/-- The lines of a tree. -/
def lines (b : Branch) : List String :=
  linesAt "" "" b

theorem lines_leaf (label : String) : lines (.node label []) = labelLines "" "" label := by
  simp [lines, linesAt, linesAll]

end Branch

/-- A name that is marked up as one of some kind, as plain text. -/
def tagged? (look name : String) : Option String :=
  Markup.plain? ("[" ++ look ++ "]" ++ name ++ "[/" ++ look ++ "]")

end Command

open Command

namespace Graph

/-- The tree of what a template needs; the count bounds its height. -/
def branchOf? (g : Graph) : Nat → String → String → Option Branch
  | 0, look, path => (tagged? look path).map fun label => .node label []
  | n + 1, look, path => do
    let label ← tagged? look path
    return .node label (← (g.importsOf path).mapM (g.branchOf? n "green"))

/-- The tree of a graph: its queries, and what each of them needs. -/
def branch? (g : Graph) : Option Branch := do
  let label ← tagged? "bold" g.catalog.root.text
  let queries ← g.queries.mapM fun q => g.branchOf? (g.edges.length + 1) "cyan" q.path
  return .node ("🔩 " ++ label) queries

end Graph

namespace BuildReport

/-- What became of an output, in a word. -/
def statusWord (r : BuildReport) (output : Path) : String :=
  if r.writes.unchanged.contains output then "unchanged"
  else if r.writes.updated.contains output then "updated"
  else if r.writes.created.contains output then "created"
  else "failed"

/-- The cells of a row as one line. -/
def row (cells : List String) : String :=
  " | ".intercalate (cells.map Text.trim)

/-- The table of outputs, if every name in it is well marked up. -/
def table? (r : BuildReport) : Option (List String) := do
  let rows ← r.results.mapM fun x => do
    let source ← Markup.plain? x.source
    let output ← Markup.plain? x.output.text
    return row [source, output, r.statusWord x.output]
  return ["Outputs", row ["Template", "Output", "Status"]] ++ rows

/-- The lines about one failure. -/
def failureLines (e : BuildFailure) : List String :=
  let path := (tagged? "red" ("❌ " ++ Markup.escape e.path)).getD ""
  [path, "   " ++ e.kind ++ ": " ++ e.message]

/-- The line about all of a build. -/
def summary (r : BuildReport) : String :=
  if r.watch.isEmpty then "No templates found"
  else
    "📊 Summary: " ++ toString r.succeeded.length ++ "/" ++ toString r.watch.length ++
      " queries | " ++ toString r.writes.written.length ++ " written | " ++
      toString r.writes.unchanged.length ++ " unchanged | " ++ toString r.errorCount ++ " errors"

end BuildReport

end Stencil
