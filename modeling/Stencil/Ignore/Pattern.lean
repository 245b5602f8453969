import Stencil.Text.Blank
import Stencil.Text.Search

/-!
# Ignore Patterns

One line of an ignore file, compiled and matched.

A line is blank, a comment, or a pattern; a leading exclamation mark turns the
pattern into one that includes again. A pattern with a slash at its front or
inside is anchored at the directory of its ignore file, any other one may
start at every depth. A pattern that matches a directory matches whatever is
below it.

A pattern compiles to a list of steps. Each step takes the rest of a path to
all rests it can leave, so matching is one fold over the steps, and a pattern
matches if some rest is left at the end.

## Main definitions

* `Step`, `Step.after`: A step, and the rests that it leaves.
* `Pattern`: Whether a pattern ignores or includes, and its steps.
* `Pattern.compile`: Reads a line.
* `Pattern.matches`: The pattern matches a path.

## Theorems

* `compile_comment`: A line that starts with a hash is no pattern.
-/

namespace Stencil

namespace Ignore

/-- A set of characters in brackets: inclusive ranges, and whether it stands
for the characters outside them. -/
structure CharSet where
  /-- The set stands for the characters outside the ranges. -/
  outside : Bool
  /-- The ranges. -/
  ranges : List (Char × Char)
  deriving DecidableEq, Repr

/-- The set holds a character. -/
def CharSet.has (s : CharSet) (c : Char) : Bool :=
  s.outside != s.ranges.any fun r => r.1 ≤ c && c ≤ r.2

/-- One step of a compiled pattern. -/
inductive Step where
  /-- This character. -/
  | char (c : Char)
  /-- One character that is no slash. -/
  | one
  /-- Any number of characters that are no slashes. -/
  | run
  /-- At least one character, and none is a slash. -/
  | segment
  /-- One character of a set. -/
  | set (s : CharSet)
  /-- Nothing, or directories with the slash after them. -/
  | leading
  /-- Nothing, or a slash and directories. -/
  | inner
  /-- A slash that may stand anywhere in the rest. -/
  | anySlash
  /-- A character that may stand anywhere in the rest. -/
  | anything
  /-- A slash or the end. -/
  | close
  deriving DecidableEq, Repr

/-- The rests after any number of characters of a kind. -/
def afterRun (ok : Char → Bool) : List Char → List (List Char)
  | [] => [[]]
  | c :: cs => (c :: cs) :: (if ok c then afterRun ok cs else [])

/-- The character does not end the line of a path. -/
def isInline (c : Char) : Bool :=
  c != '\n'

/-- The rests that a step leaves of a path. -/
def Step.after (t : Step) (cs : List Char) : List (List Char) :=
  match t, cs with
  | .run, cs => afterRun (· != '/') cs
  | .leading, [] => [[]]
  | .leading, c :: rest =>
    cs :: (if isInline c then
      (afterRun isInline rest).filterMap fun r => if r.head? == some '/' then some r.tail else none
      else [])
  | .inner, '/' :: c :: rest =>
    cs :: (if isInline c then afterRun isInline rest else [])
  | .inner, cs => [cs]
  | .anySlash, cs => if cs.contains '/' then [[]] else []
  | .anything, cs => if cs.any isInline then [[]] else []
  | .close, [] => [[]]
  | .close, c :: rest => if c == '/' || (c == '\n' && rest.isEmpty) then [rest] else []
  | _, [] => []
  | .char d, c :: rest => if c == d then [rest] else []
  | .one, c :: rest => if c != '/' then [rest] else []
  | .segment, c :: rest => if c != '/' then afterRun (· != '/') rest else []
  | .set s, c :: rest => if s.has c then [rest] else []

/-- A compiled pattern. -/
structure Pattern where
  /-- A path that matches is ignored, rather than included again. -/
  ignores : Bool
  /-- The steps. -/
  steps : List Step
  deriving DecidableEq, Repr

/-- Why a line cannot be compiled. -/
inductive Invalid where
  /-- Nothing is left to match, or an escape has nothing after it. -/
  | malformed
  /-- A set is not closed. -/
  | openSet
  /-- A range of characters ends before it starts. -/
  | reversedRange
  deriving DecidableEq, Repr

/-- The pattern matches a path, which ends in a slash for a directory. -/
def Pattern.matches (p : Pattern) (path : List Char) : Bool :=
  !(p.steps.foldl (fun rests t => (rests.flatMap t.after).eraseDups) [path]).isEmpty

/-- The items of a set in brackets, up to the bracket that closes it. A bracket
in first place is an item; a hyphen between two characters makes a range. -/
def setItems (first : Bool) (cs : List Char) : List (Char × Char) :=
  match cs with
  | [] => []
  | c :: rest =>
    if c == ']' && !first then []
    else
      match rest with
      -- A hyphen in last place is an item.
      | '-' :: ']' :: _ => [(c, c), ('-', '-')]
      | '-' :: d :: more => (c, d) :: setItems false more
      | other => (c, c) :: setItems false other
termination_by cs.length

/-- How many characters a set in brackets takes after its opening bracket, the
closing one included, if it is closed. -/
def setLength? (cs : List Char) : Option Nat :=
  let mark := if cs.head? == some '!' || cs.head? == some '^' then 1 else 0
  let rest := cs.drop mark
  let lead := if rest.head? == some ']' then 1 else 0
  let body := (rest.drop lead).takeWhile (· != ']')
  if (rest.drop lead).length > body.length then some (mark + lead + body.length + 1) else none

/-- The steps of one segment of a pattern; `skip` characters belong to a set
that was read. -/
def segmentSteps (skip : Nat) : List Char → Except Invalid (List Step)
  | [] => .ok []
  | c :: cs =>
    match skip with
    | k + 1 => segmentSteps k cs
    | 0 =>
      match c, cs with
      | '\\', [] => .error .malformed
      | '\\', d :: _ => (.char d :: ·) <$> segmentSteps 1 cs
      | '*', _ => (.run :: ·) <$> segmentSteps 0 cs
      | '?', _ => (.one :: ·) <$> segmentSteps 0 cs
      | '[', _ =>
        match setLength? cs with
        | none => .error .openSet
        | some n =>
          let outside := cs.head? == some '!' || cs.head? == some '^'
          let items := setItems true ((cs.take n).drop (if outside then 1 else 0))
          (.set ⟨outside, items⟩ :: ·) <$> segmentSteps n cs
      | c, _ => (.char c :: ·) <$> segmentSteps 0 cs

/-- The list without a double star that follows another one. -/
def collapseStars : List String → List String
  | "**" :: "**" :: rest => collapseStars ("**" :: rest)
  | s :: rest => s :: collapseStars rest
  | [] => []

/-- The steps of the segments after the first; `slash` says that a slash is
due before a segment. -/
def laterSteps (slash : Bool) : List String → Except Invalid (List Step)
  | [] => .ok []
  | ["**"] => .ok [.char '/']
  | "**" :: rest => (.inner :: ·) <$> laterSteps true rest
  | s :: rest => do
    let lead := if slash then [Step.char '/'] else []
    let own ← if s == "*" then .ok [Step.segment] else segmentSteps 0 s.toList
    let close := if rest.isEmpty then [Step.close] else []
    (lead ++ own ++ close ++ ·) <$> laterSteps true rest

/-- The steps of the segments of a pattern. -/
def stepsOf (segments : List String) : Except Invalid (List Step) :=
  match segments with
  | "**" :: rest => (.leading :: ·) <$> laterSteps false rest
  | _ => laterSteps false segments

/-- The segments of a pattern, anchored or not. A pattern without a slash at
its front or inside may start at every depth; a final slash stands for what is
below a directory. -/
def normalSegments (segments : List String) : List String :=
  let anchored := match segments with
    | "" :: rest => rest
    | [s] => if s == "**" then [s] else ["**", s]
    -- A slash at the end does not anchor a pattern.
    | [s, ""] => if s == "**" then [s, ""] else ["**", s, ""]
    | _ => segments
  let closed := if anchored.getLast? == some "" then anchored.dropLast ++ ["**"] else anchored
  collapseStars closed

/-- The line without blanks at its end, unless the last one is escaped. -/
def trimLine (line : String) : List Char :=
  let cs := line.toList
  if Text.endsWith ['\\', ' '] cs then cs else Text.dropRightWhile Text.isBlank cs

/-- A range of the step ends before it starts. -/
def Step.isReversed : Step → Bool
  | .set s => s.ranges.any fun r => r.2 < r.1
  | _ => false

/-- The steps of a pattern's text. -/
def compileSteps (cs : List Char) : Except Invalid (List Step) := do
  let segments := Text.splitOnChar '/' (String.ofList cs)
  let steps ← match normalSegments segments with
    | [] => .error .malformed
    | ["**"] => .ok [if segments.getLast? == some "" then Step.anySlash else .anything]
    | normal => stepsOf normal
  if steps.any Step.isReversed then .error .reversedRange else .ok steps

/-- The pattern of some text. A text with a set that is not closed is no
pattern at all. -/
def patternOf (ignores : Bool) (cs : List Char) : Except Invalid (Option Pattern) :=
  match compileSteps cs with
  | .ok steps => .ok (some ⟨ignores, steps⟩)
  | .error .openSet => .ok none
  | .error why => .error why

/-- Reads a line of an ignore file; blank lines, comments and a single slash
are no patterns. -/
def Pattern.compile (line : String) : Except Invalid (Option Pattern) :=
  match trimLine line with
  | [] => .ok none
  | '#' :: _ => .ok none
  | ['/'] => .ok none
  | '!' :: cs => patternOf false cs
  | cs => patternOf true cs

theorem compile_comment {line : String} {cs : List Char} (h : trimLine line = '#' :: cs) :
    Pattern.compile line = .ok none := by
  simp [Pattern.compile, h]

end Ignore

end Stencil
