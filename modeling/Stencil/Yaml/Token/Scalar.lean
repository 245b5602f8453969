import Stencil.Yaml.Token.Name

/-!
# Scalars

The tokens that hold texts: plain ones, ones in quotes, and blocks.

A single line break inside a text in quotes or a plain one counts as a space,
and of several in a row the first does not count. In a block that folds, the
same holds between lines that start with no blank.

## Main definitions

* `scanQuoted`: A text in quotes.
* `scanPlain`: A text without quotes.
* `scanBlock`: A text told by indentation.
-/

namespace Stencil

namespace Yaml

/-- The text that a run of line breaks stands for: the first one, then the
others. -/
def foldBreaks (first : List Char) (others : List Char) : List Char :=
  if first != ['\n'] then first ++ others
  else if others.isEmpty then [' ']
  else others

/-- The text of an escape of one character. -/
def escape? (c : Char) : Option Char :=
  match c with
  | '0' => some (Char.ofNat 0)
  | 'a' => some (Char.ofNat 7)
  | 'b' => some (Char.ofNat 8)
  | 't' => some '\t'
  | '\t' => some '\t'
  | 'n' => some '\n'
  | 'v' => some (Char.ofNat 11)
  | 'f' => some (Char.ofNat 12)
  | 'r' => some '\r'
  | 'e' => some (Char.ofNat 27)
  | ' ' => some ' '
  | '"' => some '"'
  | '\\' => some '\\'
  | '/' => some '/'
  | 'N' => some nextLine
  | '_' => some (Char.ofNat 0xA0)
  | 'L' => some (Char.ofNat 0x2028)
  | 'P' => some (Char.ofNat 0x2029)
  | _ => none

/-- How many digits follow the letter of an escape by number. -/
def escapeWidth? (c : Char) : Option Nat :=
  match c with
  | 'x' => some 2
  | 'u' => some 4
  | 'U' => some 8
  | _ => none

/-- The line breaks ahead in a text in quotes, and the blanks after each. A
mark between documents must not be ahead. The count bounds the breaks. -/
def scanQuotedBreaks : Nat → Cursor → Except Fault (List Char × Cursor)
  | 0, c => .ok ([], c)
  | n + 1, c =>
    if c.startsDocument then noToken
    else
      let after := c.skip fun ch => ch == ' ' || ch == '\t'
      if isBreak after.peek then do
        let (b, after) := after.lineBreak
        let (more, after) ← scanQuotedBreaks n after
        return (b ++ more, after)
      else .ok ([], after)

/-- The blanks ahead in a text in quotes, line breaks folded. -/
def scanQuotedBlanks (c : Cursor) : Except Fault (List Char × Cursor) :=
  let (blanks, after) := c.span fun ch => ch == ' ' || ch == '\t'
  if after.peek == endMark then noToken
  else if isBreak after.peek then do
    let (first, after) := after.lineBreak
    let (others, after) ← scanQuotedBreaks (after.rest.length + 1) after
    return (foldBreaks first others, after)
  else .ok (blanks, after)

/-- An escape ahead, at its letter. -/
def scanEscape (c : Cursor) : Except Fault (List Char × Cursor) :=
  match escape? c.peek with
  | some ch => .ok ([ch], c.next)
  | none =>
    match escapeWidth? c.peek with
    | some width => do
      let code ← hexAhead c.next width
      if code > 0x7FFFFFFF then .error .tooLarge
      else if code > 0x10FFFF then .error .badValue
      else return ([Char.ofNat code], c.advance (width + 1))
    | none =>
      if isBreak c.peek then
        let after := c.lineBreak.2
        scanQuotedBreaks (after.rest.length + 1) after
      else noToken

/-- The characters ahead in a text in quotes, up to a blank or the quote; the
count bounds their pieces. -/
def scanQuotedRun (isDouble : Bool) : Nat → Cursor → Except Fault (List Char × Cursor)
  | 0, c => .ok ([], c)
  | n + 1, c =>
    let (run, after) := c.span fun ch =>
      !(isWhite ch || ch == '\'' || ch == '"' || ch == '\\')
    let ch := after.peek
    let goOn (piece : List Char) (after : Cursor) : Except Fault (List Char × Cursor) := do
      let (more, after) ← scanQuotedRun isDouble n after
      return (run ++ piece ++ more, after)
    -- Two single quotes stand for one.
    if !isDouble && ch == '\'' && after.peek 1 == '\'' then goOn ['\''] (after.advance 2)
    else if (isDouble && ch == '\'') || (!isDouble && (ch == '"' || ch == '\\')) then
      goOn [ch] after.next
    else if isDouble && ch == '\\' then do
      let (piece, after) ← scanEscape after.next
      goOn piece after
    else .ok (run, after)

/-- The pieces of a text in quotes up to the quote; the count bounds them. -/
def scanQuotedPieces (isDouble : Bool) (quote : Char) :
    Nat → Cursor → Except Fault (List Char × Cursor)
  | 0, _ => noToken
  | n + 1, c =>
    if c.peek == quote then .ok ([], c.next)
    else do
      let (blanks, after) ← scanQuotedBlanks c
      let (run, after) ← scanQuotedRun isDouble (after.rest.length + 1) after
      let (more, after) ← scanQuotedPieces isDouble quote n after
      return (blanks ++ run ++ more, after)

/-- A text in quotes. -/
def scanQuoted (c : Cursor) : Except Fault (Token × Cursor) := do
  let quote := c.peek
  let isDouble := quote == '"'
  let start := c.next
  let (run, after) ← scanQuotedRun isDouble (start.rest.length + 1) start
  let (more, after) ← scanQuotedPieces isDouble quote (after.rest.length + 1) after
  return (.scalar (String.ofList (run ++ more)) false, after)

/-- How much of a plain text is ahead without a blank. -/
def plainLength (inFlow : Bool) : List Char → Nat
  | [] => 0
  | ch :: rest =>
    let follower := rest.headD endMark
    let endsKey := ch == ':' &&
      (isWhite follower || (inFlow && ",[]\x7b\x7d".toList.contains follower))
    if isWhite ch || endsKey || (inFlow && ",?[]\x7b\x7d".toList.contains ch) then 0
    else plainLength inFlow rest + 1

/-- The line breaks and spaces ahead in a plain text; a mark between documents
ends them, and nothing is found. The count bounds them. -/
def scanPlainBreaks : Nat → Cursor → Option (List Char) × Cursor
  | 0, c => (some [], c)
  | n + 1, c =>
    if c.peek == ' ' then scanPlainBreaks n c.next
    else if isBreak c.peek then
      let (b, after) := c.lineBreak
      if after.startsDocument then (none, after)
      else
        let (more, after) := scanPlainBreaks n after
        (more.map (b ++ ·), after)
    else (some [], c)

/-- The blanks ahead in a plain text, and whether a line was broken. Nothing is
found where a mark between documents ends the text. -/
def scanPlainBlanks (c : Cursor) : List Char × Bool × Cursor :=
  let (spaces, after) := c.span (· == ' ')
  if isBreak after.peek then
    let (first, after) := after.lineBreak
    if after.startsDocument then ([], true, after)
    else
      match scanPlainBreaks (after.rest.length + 1) after with
      | (none, after) => ([], true, after)
      | (some others, after) => (foldBreaks first others, true, after)
  else (spaces, false, after)

/-- The pieces of a plain text, and whether a key can follow, which is so after
a line break; the count bounds the pieces. -/
def scanPlainFrom (inFlow : Bool) (indent : Int) (blanks : List Char) (atBreak : Bool) :
    Nat → Cursor → List Char × Bool × Cursor
  | 0, c => ([], atBreak, c)
  | n + 1, c =>
    let length := plainLength inFlow c.rest
    if c.peek == '#' || length == 0 then ([], atBreak, c)
    else
      let run := blanks ++ c.rest.take length
      let (more, broke, after) := scanPlainBlanks (c.advance length)
      if more.isEmpty || after.peek == '#' || (!inFlow && after.column < indent) then
        (run, broke, after)
      else
        let (tail, allowsKey, after) := scanPlainFrom inFlow indent more broke n after
        (run ++ tail, allowsKey, after)

/-- A text without quotes, and whether a key can follow it. -/
def scanPlain (inFlow : Bool) (indent : Int) (c : Cursor) : Token × Bool × Cursor :=
  let (cs, allowsKey, after) :=
    scanPlainFrom inFlow (indent + 1) [] false (c.rest.length + 1) c
  (.scalar (String.ofList cs) true, allowsKey, after)

/-- What the header of a block says: which line breaks at its end count (all,
none, or one if nothing is said), and how far it is indented. -/
structure BlockHeader where
  /-- All line breaks at the end count, or none does. -/
  keep : Option Bool
  /-- How far the block is indented. -/
  indent : Option Nat

/-- The sign of a header. -/
def keepOf? (c : Char) : Option Bool :=
  if c == '+' then some true else if c == '-' then some false else none

/-- The header of a block. -/
def scanHeader (c : Cursor) : Except Fault (BlockHeader × Cursor) :=
  let digit? (ch : Char) : Option Nat :=
    if ch.isDigit then some (ch.toNat - 48) else none
  let (header, after) : BlockHeader × Cursor :=
    match keepOf? c.peek, digit? c.peek with
    | some k, _ =>
      match digit? (c.peek 1) with
      | some d => (⟨some k, some d⟩, c.advance 2)
      | none => (⟨some k, none⟩, c.next)
    | none, some d =>
      match keepOf? (c.peek 1) with
      | some k => (⟨some k, some d⟩, c.advance 2)
      | none => (⟨none, some d⟩, c.next)
    | none, none => (⟨none, none⟩, c)
  if header.indent == some 0 then noToken else beforeGap (header, after)

/-- The empty lines at the start of a block, and how far the widest of them is
indented; the count bounds their characters. -/
def scanLeadingLines (widest : Nat) : Nat → Cursor → List Char × Nat × Cursor
  | 0, c => ([], widest, c)
  | n + 1, c =>
    if c.peek == ' ' then
      let after := c.next
      scanLeadingLines (max widest after.column) n after
    else if isBreak c.peek then
      let (b, after) := c.lineBreak
      let (more, widest, after) := scanLeadingLines widest n after
      (b ++ more, widest, after)
    else ([], widest, c)

/-- The place after spaces up to a column. -/
def skipTo (column : Nat) (c : Cursor) : Cursor :=
  c.advance ((c.rest.take (column - c.column)).takeWhile (· == ' ')).length

/-- The empty lines ahead in a block; the count bounds them. -/
def scanEmptyLines (indent : Nat) : Nat → Cursor → List Char × Cursor
  | 0, c => ([], c)
  | n + 1, c =>
    let after := skipTo indent c
    if isBreak after.peek then
      let (b, after) := after.lineBreak
      let (more, after) := scanEmptyLines indent n after
      (b ++ more, after)
    else ([], after)

/-- The lines of a block from the first one on, with the break that ends them
and the empty lines after it. The count bounds the lines. -/
def scanBlockLines (folds : Bool) (indent : Nat) (breaks : List Char) :
    Nat → Cursor → List Char × List Char × List Char × Cursor
  | 0, c => ([], [], breaks, c)
  | n + 1, c =>
    let isBlank (ch : Char) : Bool := ch == ' ' || ch == '\t'
    let startsText := !isBlank c.peek
    let (line, after) := c.span fun ch => !isLineEnd ch
    let (b, after) := after.lineBreak
    let (empties, after) := scanEmptyLines indent (after.rest.length + 1) after
    if after.column == indent && after.peek != endMark then
      -- Folded, a single break between two lines of text is a space.
      let between :=
        if folds && b == ['\n'] && startsText && !isBlank after.peek then
          if empties.isEmpty then [' '] else []
        else b
      let (more, lastBreak, tail, after) := scanBlockLines folds indent empties n after
      (breaks ++ line ++ between ++ more, lastBreak, tail, after)
    else (breaks ++ line, b, empties, after)

/-- A text told by indentation. -/
def scanBlock (folds : Bool) (outer : Int) (c : Cursor) : Except Fault (Token × Cursor) := do
  let (header, after) ← scanHeader c.next
  let start ← scanRestOfLine after
  let least := max (outer + 1) 1
  let (breaks, indent, start) :=
    match header.indent with
    | none =>
      let (breaks, widest, after) := scanLeadingLines 0 (start.rest.length + 1) start
      (breaks, max least.toNat widest, after)
    | some d =>
      let indent := least.toNat + d - 1
      let (breaks, after) := scanEmptyLines indent (start.rest.length + 1) start
      (breaks, indent, after)
  let (lines, lastBreak, tail, after) :=
    if start.column == indent && start.peek != endMark then
      scanBlockLines folds indent breaks (start.rest.length + 1) start
    else ([], [], breaks, start)
  let last := if header.keep == some false then [] else lastBreak
  let more := if header.keep == some true then tail else []
  return (.scalar (String.ofList (lines ++ last ++ more)) false, after)

end Yaml

end Stencil
