/-!
# Lines of a Text

Two ways to cut a text into lines.

Ignore files are cut at every line boundary that a text can carry, and a
carriage return followed by a line feed is one boundary. Template text is not
cut at all, but its line breaks are brought to one spelling first, so that the
three spellings of a break cannot be told apart afterwards.

## Main definitions

* `isLineBoundary`: The character ends a line.
* `lines`: The lines of a text, without their ends.
* `unifyBreaks`: Every spelling of a line break becomes a line feed.
* `countBreaks`: The number of line feeds.
-/

namespace Stencil

namespace Text

/-- The characters that end a line: line feed, vertical tab, form feed,
carriage return, the three information separators, next line, and the two
separators for lines and paragraphs. -/
def isLineBoundary (c : Char) : Bool :=
  let n := c.toNat
  (10 ≤ n && n ≤ 13) || (0x1C ≤ n && n ≤ 0x1E) || n == 0x85 || n == 0x2028 || n == 0x2029

/-- Collects lines: `line` holds the current one, last character first. With
`keep` each line holds the boundary that ends it. -/
def linesFrom (keep : Bool) (line : List Char) : List Char → List (List Char)
  | [] => if line.isEmpty then [] else [line.reverse]
  | '\r' :: '\n' :: cs =>
    (if keep then '\n' :: '\r' :: line else line).reverse :: linesFrom keep [] cs
  | c :: cs =>
    if isLineBoundary c then
      (if keep then c :: line else line).reverse :: linesFrom keep [] cs
    else linesFrom keep (c :: line) cs

/-- The lines of a text. A boundary at the very end opens no further line. -/
def lines (s : String) (keep : Bool := false) : List String :=
  (linesFrom keep [] s.toList).map String.ofList

/-- The text with `\r\n` and `\r` replaced by `\n`. -/
def unifyBreaks : List Char → List Char
  | [] => []
  | '\r' :: '\n' :: cs => '\n' :: unifyBreaks cs
  | c :: cs => (if c == '\r' then '\n' else c) :: unifyBreaks cs

/-- How many line feeds a list of characters holds. -/
def countBreaks (cs : List Char) : Nat :=
  cs.count '\n'

end Text

end Stencil
