import Stencil.Text.Blank
import Stencil.Text.Search

/-!
# Headers

The comment that an output starts with.

A header is any text. Its lines are trimmed, those with nothing on them are
dropped, and each of the others becomes a line of comment, so that no part of a
header is ever read as anything but a comment. A blank line parts the comment
from the body; without a comment the body stands alone.

## Main definitions

* `Header.lines`: The lines of a header that say something.
* `Header.comment`: The comment.
* `Header.apply`: A body with the comment in front of it.

## Theorems

* `Header.apply_of_lines_eq_nil`: A header that says nothing leaves a body as it
  is.
-/

namespace Stencil

namespace Header

/-- Either character of a line break as the one that lines are cut at. -/
def asLineEnd (c : Char) : Char :=
  if c == '\r' then '\n' else c

/-- The lines of a header that say something, without blanks around them. -/
def lines (header : List Char) : List (List Char) :=
  ((Text.splitChars '\n' [] (header.map asLineEnd)).map Text.trimChars).filter (!·.isEmpty)

/-- What a line of comment starts with. -/
def mark : List Char :=
  ['-', '-', ' ']

/-- The comment that a header makes. -/
def comment (header : String) : String :=
  String.ofList (Text.joinWith ['\n'] ((lines header.toList).map (mark ++ ·)))

/-- A body with the comment of a header and a blank line in front of it. -/
def apply (header body : String) : String :=
  if (comment header).isEmpty then body else comment header ++ "\n\n" ++ body

theorem apply_of_lines_eq_nil {header : String} (h : lines header.toList = []) (body : String) :
    apply header body = body := by
  simp [apply, comment, h, Text.joinWith]

end Header

end Stencil
