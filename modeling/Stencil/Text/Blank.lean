/-!
# Blank Characters

The characters that count as white space, and trimming by them.

Templates, headers, ignore files and numerals are all trimmed by one set of
blanks: the characters of a space, line or paragraph separator, together with
the control characters that separate fields and lines. It is wider than the
set of `Char.isWhitespace`, which knows four characters of ASCII alone, so it
is stated here as a list of code points.

Trimming is defined on lists of characters, where it is two uses of
`List.dropWhile`, and lifted to strings.

## Main definitions

* `isBlank`: The character is white space.
* `dropBlanks`, `trimChars`: Trimming a list on the left, and on both sides.
* `trim`, `trimLeft`, `trimRight`: The same for strings.
* `words`: The maximal runs of characters that are not blank.

## Theorems

* `isBlank_of_isWhitespace`: Every blank of ASCII in the core library is a
  blank here.
-/

namespace Stencil

namespace Text

/-- White space: the separators of words, fields, lines and paragraphs. -/
def isBlank (c : Char) : Bool :=
  let n := c.toNat
  (9 ≤ n && n ≤ 13) || (28 ≤ n && n ≤ 32) || n == 0x85 || n == 0xA0 ||
    n == 0x1680 || (0x2000 ≤ n && n ≤ 0x200A) || n == 0x2028 || n == 0x2029 ||
    n == 0x202F || n == 0x205F || n == 0x3000

theorem isBlank_of_isWhitespace {c : Char} (h : c.isWhitespace = true) :
    isBlank c = true := by
  simp only [Char.isWhitespace, Bool.or_eq_true, decide_eq_true_eq] at h
  rcases h with ((h | h) | h) | h <;> subst h <;> decide

/-- The list without the blanks it starts with. -/
def dropBlanks (cs : List Char) : List Char :=
  cs.dropWhile isBlank

/-- The list without the characters of a set at its right end. -/
def dropRightWhile (p : Char → Bool) (cs : List Char) : List Char :=
  (cs.reverse.dropWhile p).reverse

/-- The list without blanks at either end. -/
def trimChars (cs : List Char) : List Char :=
  dropRightWhile isBlank (dropBlanks cs)

/-- The text without the characters of a set at its left end. -/
def trimLeft (s : String) (p : Char → Bool := isBlank) : String :=
  String.ofList (s.toList.dropWhile p)

/-- The text without the characters of a set at its right end. -/
def trimRight (s : String) (p : Char → Bool := isBlank) : String :=
  String.ofList (dropRightWhile p s.toList)

/-- The text without the characters of a set at either end. -/
def trim (s : String) (p : Char → Bool := isBlank) : String :=
  String.ofList (dropRightWhile p (s.toList.dropWhile p))

/-- Collects runs: `run` holds the current one, last character first. -/
def wordsFrom (run : List Char) : List Char → List (List Char)
  | [] => if run.isEmpty then [] else [run.reverse]
  | c :: cs =>
    if isBlank c then
      if run.isEmpty then wordsFrom [] cs else run.reverse :: wordsFrom [] cs
    else wordsFrom (c :: run) cs

/-- The maximal runs of characters that are not blank, in order. -/
def words (s : String) : List String :=
  (wordsFrom [] s.toList).map String.ofList

/-- Every character of the text is blank. -/
def isAllBlank (s : String) : Bool :=
  s.toList.all isBlank

end Text

end Stencil
