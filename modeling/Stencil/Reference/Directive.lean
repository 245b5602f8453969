import Stencil.Text.Blank
import Stencil.Text.Letter
import Stencil.Text.Lines
import Stencil.Text.Search

/-!
# Static References

The references of a template that can be read off its text without rendering
it.

A reference is a tag that includes, extends or imports a template whose name
is one literal in quotes. Comments and raw blocks are blanked out first, in
that order: each of their characters becomes a space, except line feeds, so
that what is left stands where it stood. A tag whose target is an expression
is passed over.

All matching is on lists of characters. A matcher answers how many characters
it takes; `blankMatches` and `scanTags` move through the text one character at
a time and count off what was taken, so both are recursions on the text.

## Main definitions

* `Tag`, `Directive`: The tags that refer to templates, and one reference.
* `blankMatches`: What a matcher takes, blanked out.
* `blanked`: A text without its comments and raw blocks.
* `scanTags`, `scan`: The references of a text.

## Theorems

* `length_blankMatches`: Blanking keeps the length.
-/

namespace Stencil

/-- A tag that refers to another template. -/
inductive Tag where
  /-- The other template's output is put here. -/
  | includes
  /-- The other template is the frame of this one. -/
  | inherits
  /-- The other template's macros get a name. -/
  | imports
  /-- Some of the other template's macros get names. -/
  | importsFrom
  deriving DecidableEq, Repr

/-- The keyword of a tag. -/
def Tag.keyword : Tag → String
  | .includes => "include"
  | .inherits => "extends"
  | .imports => "import"
  | .importsFrom => "from"

/-- Why one template needs another. -/
inductive EdgeKind where
  /-- Its output. -/
  | output
  /-- Its macros. -/
  | macros
  deriving DecidableEq, Repr

/-- The name of a kind of edge. -/
def EdgeKind.text : EdgeKind → String
  | .output => "import"
  | .macros => "macro-reference"

/-- The kind of edge with a name. -/
def EdgeKind.ofText? (s : String) : Option EdgeKind :=
  [EdgeKind.output, .macros].find? (·.text == s)

/-- Why a tag needs its target. -/
def Tag.kind : Tag → EdgeKind
  | .includes => .output
  | .inherits => .output
  | .imports => .macros
  | .importsFrom => .macros

/-- A static reference. -/
structure Directive where
  /-- The name in quotes. -/
  name : String
  /-- The tag. -/
  tag : Tag
  /-- The line of the tag, from one. -/
  line : Nat
  /-- A target that is not found is passed over. -/
  optional : Bool
  deriving DecidableEq, Repr

namespace Reference

open Text

/-- A line feed, or a space for any other character. -/
def blank (c : Char) : Char :=
  if c == '\n' then '\n' else ' '

/-- The text with everything that a matcher takes blanked out. `skip`
characters belong to a match that was found. -/
def blankMatches (taken? : List Char → Option Nat) (skip : Nat) : List Char → List Char
  | [] => []
  | c :: cs =>
    match skip with
    | k + 1 => blank c :: blankMatches taken? k cs
    | 0 =>
      match taken? (c :: cs) with
      | some (n + 1) => blank c :: blankMatches taken? n cs
      | _ => c :: blankMatches taken? 0 cs

theorem length_blankMatches (taken? : List Char → Option Nat) (skip : Nat) (cs : List Char) :
    (blankMatches taken? skip cs).length = cs.length := by
  induction cs generalizing skip with
  | nil => rfl
  | cons c cs ih =>
    cases skip with
    | succ k => simp [blankMatches, ih]
    | zero =>
      simp only [blankMatches]
      split <;> simp [ih]

/-- The rest after a sign of white-space control, if there is one. -/
def dropSign : List Char → List Char
  | '-' :: cs => cs
  | '+' :: cs => cs
  | cs => cs

/-- The rest after the end of a tag: blanks, a sign, and the delimiter. -/
def tagEnd? (cs : List Char) : Option (List Char) :=
  dropPrefix? ['%', '}'] (dropSign (dropBlanks cs))

/-- The rest after the start of a tag and a keyword. -/
def tagStart? (keyword : String) (cs : List Char) : Option (List Char) :=
  match dropPrefix? ['{', '%'] cs with
  | none => none
  | some rest => dropPrefix? keyword.toList (dropBlanks (dropSign rest))

/-- The rest after a tag that is only a keyword. -/
def bareTag? (keyword : String) (cs : List Char) : Option (List Char) :=
  (tagStart? keyword cs).bind tagEnd?

/-- The rest after the first place where a matcher succeeds. -/
def seek (next? : List Char → Option (List Char)) : List Char → Option (List Char)
  | [] => next? []
  | c :: cs =>
    match next? (c :: cs) with
    | some rest => some rest
    | none => seek next? cs

/-- How many characters a comment takes, up to the first end after its start. -/
def commentTaken? (cs : List Char) : Option Nat :=
  match dropPrefix? ['{', '#'] cs with
  | none => none
  | some rest => (seek (dropPrefix? ['#', '}']) rest).map fun r => cs.length - r.length

/-- How many characters a raw block takes, up to the first tag that ends it. -/
def rawTaken? (cs : List Char) : Option Nat :=
  match bareTag? "raw" cs with
  | none => none
  | some rest => (seek (bareTag? "endraw") rest).map fun r => cs.length - r.length

/-- The text without its comments, and then without its raw blocks. -/
def blanked (cs : List Char) : List Char :=
  blankMatches rawTaken? 0 (blankMatches commentTaken? 0 cs)

/-- The argument of a tag and the rest after the tag: the argument ends where
the first end of a tag can be read. -/
def argument? (arg : List Char) : List Char → Option (List Char × List Char)
  | [] => (tagEnd? []).map fun r => (arg.reverse, r)
  | c :: cs =>
    match tagEnd? (c :: cs) with
    | some rest => some (arg.reverse, rest)
    | none => argument? (c :: arg) cs

/-- The tags in the order in which their keywords are tried. -/
def allTags : List Tag :=
  [.includes, .inherits, .imports, .importsFrom]

/-- The tag at the start of a text, its argument, and the rest after it. -/
def tagAt? (cs : List Char) : Option (Tag × List Char × List Char) :=
  allTags.findSome? fun tag =>
    match tagStart? tag.keyword cs with
    | none => none
    | some rest =>
      if rest.head?.any isBlank then
        (argument? [] (dropBlanks rest)).map fun r => (tag, r.1, r.2)
      else none

/-- The rest after blanks, at least one, and a word. -/
def blankWord? (word : String) (cs : List Char) : Option (List Char) :=
  if cs.head?.any isBlank then dropPrefix? word.toList (dropBlanks cs) else none

/-- The rest after several words, each with blanks before it. -/
def blankWords? : List String → List Char → Option (List Char)
  | [], cs => some cs
  | w :: ws, cs => (blankWord? w cs).bind (blankWords? ws)

/-- The rest after words that may be missing as a whole. -/
def optionalWords (ws : List String) (cs : List Char) : List Char :=
  (blankWords? ws cs).getD cs

/-- The rest after the words about the context, if they are there. -/
def dropContextWords (cs : List Char) : List Char :=
  match blankWords? ["with", "context"] cs with
  | some rest => rest
  | none => optionalWords ["without", "context"] cs

/-- Nothing but blanks is left. -/
def isRestBlank (cs : List Char) : Bool :=
  cs.all isBlank

/-- What may follow the name in each tag: anything else makes the target an
expression. -/
def tailFits (tag : Tag) (cs : List Char) : Bool :=
  match tag with
  | .includes => isRestBlank (dropContextWords (optionalWords ["ignore", "missing"] cs))
  | .inherits => isRestBlank cs
  | .imports =>
    match blankWord? "as" cs with
    | none => false
    | some rest =>
      let name := (dropBlanks rest).takeWhile isWordChar
      rest.head?.any isBlank && !name.isEmpty &&
        isRestBlank (dropContextWords ((dropBlanks rest).drop name.length))
  | .importsFrom =>
    match blankWord? "import" cs with
    | none => false
    | some rest => rest.head?.any isBlank && !(dropBlanks rest).isEmpty

/-- The text in quotes at the start of an argument, and the rest after it. -/
def literal? : List Char → Option (List Char × List Char)
  | [] => none
  | q :: cs =>
    if q == '"' || q == '\'' then
      let name := cs.takeWhile (· != q)
      match cs.drop name.length with
      | [] => none
      | _ :: rest => some (name, rest)
    else none

/-- The reference that a tag's argument makes, if its target is a literal. -/
def directive? (tag : Tag) (line : Nat) (arg : List Char) : Option Directive :=
  match literal? arg with
  | none => none
  | some (name, rest) =>
    if tailFits tag rest then
      -- The words count wherever they stand, in the name as well, with one space between them.
      let forgiving := tag == .includes && contains "ignore missing".toList arg
      some ⟨String.ofList name, tag, line, forgiving⟩
    else none

/-- The references of a text whose first character is on a given line. `skip`
characters belong to a tag that was read. -/
def scanTags (line skip : Nat) : List Char → List Directive
  | [] => []
  | c :: cs =>
    let next := if c == '\n' then line + 1 else line
    match skip with
    | k + 1 => scanTags next k cs
    | 0 =>
      match tagAt? (c :: cs) with
      | none => scanTags next 0 cs
      | some (tag, arg, rest) =>
        (directive? tag line arg).toList ++ scanTags next (cs.length - rest.length) cs

/-- The references of a text, in order. -/
def scan (text : String) : List Directive :=
  scanTags 1 0 (blanked text.toList)

end Reference

end Stencil
