/-!
# Cursors

A place in a text that is being read, with its line and column.

What is left of the text is at hand, so looking ahead is looking into a list.
Past the end there are null characters, which a text that is read cannot hold
itself. Columns count characters since the last line break.

## Main definitions

* `Cursor`: A place in a text.
* `Cursor.next`, `Cursor.advance`: Going on.
* `Cursor.span`: The longest run of characters of some kind, and what follows.
* `Cursor.lineBreak`: A line break in front, if there is one.

## Theorems

* `Cursor.rest_advance`: Going on drops characters and does nothing else to
  what is left.
-/

namespace Stencil

namespace Yaml

/-- A place in a text. -/
structure Cursor where
  /-- What is left. -/
  rest : List Char
  /-- How many characters were passed. -/
  index : Nat
  /-- How many lines were passed. -/
  line : Nat
  /-- How many characters of this line were passed. -/
  column : Nat
  deriving Repr, Inhabited

/-- The character past the end of every text. -/
def endMark : Char := Char.ofNat 0

/-- The next-line character. -/
def nextLine : Char := Char.ofNat 0x85

/-- The line separator and the paragraph separator. -/
def isSeparator (c : Char) : Bool :=
  c.toNat == 0x2028 || c.toNat == 0x2029

/-- The character breaks a line. -/
def isBreak (c : Char) : Bool :=
  c == '\n' || c == '\r' || c == nextLine || isSeparator c

/-- The character breaks a line, or the text ends. -/
def isLineEnd (c : Char) : Bool :=
  c == endMark || isBreak c

/-- The character is a space or a line's end. -/
def isGap (c : Char) : Bool :=
  c == ' ' || isLineEnd c

/-- The character is a space, a tab or a line's end. -/
def isWhite (c : Char) : Bool :=
  c == '\t' || isGap c

/-- The mark that may stand at the start of a text to tell its encoding. -/
def byteOrderMark : Char := Char.ofNat 0xFEFF

namespace Cursor

/-- The start of a text. -/
def ofList (cs : List Char) : Cursor :=
  ⟨cs, 0, 0, 0⟩

/-- A character ahead. -/
def peek (c : Cursor) (k : Nat := 0) : Char :=
  (c.rest[k]?).getD endMark

/-- The place after one more character. -/
def next (c : Cursor) : Cursor :=
  match c.rest with
  | [] => c
  | ch :: rest =>
    let breaks := ch == '\n' || ch == nextLine || isSeparator ch ||
      (ch == '\r' && rest.head? != some '\n')
    if breaks then ⟨rest, c.index + 1, c.line + 1, 0⟩
    else ⟨rest, c.index + 1, c.line, if ch == byteOrderMark then c.column else c.column + 1⟩

/-- The place after a number of characters. -/
def advance : Nat → Cursor → Cursor
  | 0, c => c
  | n + 1, c => advance n c.next

theorem rest_next (c : Cursor) : c.next.rest = c.rest.tail := by
  unfold next
  split
  · simp [*]
  · next h =>
    rw [h]
    dsimp only
    split <;> rfl

theorem rest_advance (n : Nat) (c : Cursor) : (c.advance n).rest = c.rest.drop n := by
  induction n generalizing c with
  | zero => rfl
  | succ n ih => rw [advance, ih, rest_next, List.drop_tail]

/-- The longest run of characters that pass a test, and the place after it. -/
def span (p : Char → Bool) (c : Cursor) : List Char × Cursor :=
  let run := c.rest.takeWhile p
  (run, c.advance run.length)

theorem takeWhile_append_drop (p : Char → Bool) (cs : List Char) :
    cs.takeWhile p ++ cs.drop (cs.takeWhile p).length = cs := by
  induction cs with
  | nil => rfl
  | cons c cs ih => by_cases h : p c = true <;> simp [h, ih]

theorem span_append (p : Char → Bool) (c : Cursor) :
    (c.span p).1 ++ (c.span p).2.rest = c.rest := by
  simp only [span, rest_advance, takeWhile_append_drop]

/-- The place after all characters that pass a test. -/
def skip (p : Char → Bool) (c : Cursor) : Cursor :=
  (c.span p).2

/-- The place after a line break, and what the break stands for: nothing if
there is none, a newline for all but the separators. -/
def lineBreak (c : Cursor) : List Char × Cursor :=
  let ch := c.peek
  if ch == '\r' && c.peek 1 == '\n' then (['\n'], c.advance 2)
  else if ch == '\n' || ch == '\r' || ch == nextLine then (['\n'], c.next)
  else if isSeparator ch then ([ch], c.next)
  else ([], c)

/-- The text ahead starts with a mark of three characters that stands alone. -/
def startsMark (c : Cursor) (mark : List Char) : Bool :=
  c.rest.take 3 == mark && isWhite (c.peek 3)

/-- A mark between documents is ahead. -/
def startsDocument (c : Cursor) : Bool :=
  c.startsMark ['-', '-', '-'] || c.startsMark ['.', '.', '.']

/-- The place after a comment, if one starts here. -/
def skipComment (c : Cursor) : Cursor :=
  if c.peek == '#' then c.skip (fun ch => !isLineEnd ch) else c

end Cursor

end Yaml

end Stencil
