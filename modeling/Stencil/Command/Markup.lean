import Stencil.Text.Blank
import Stencil.Text.Search

/-!
# Marked-up Text

Text in which tags in square brackets change how it looks.

A tag is a bracket, a small letter or one of a few signs, and anything up to
the next closing bracket. A closing tag ends the tag that it names, or the last
one if it names none. A backslash in front of a tag makes it text, and two of
them stand for one. What is left when the looks are dropped is the plain text;
a closing tag that closes nothing has none.

## Main definitions

* `Markup.escape`: A text in which nothing is a tag.
* `Markup.plain?`: The plain text.

## Theorems

* `Markup.plain?_empty`: The plain text of nothing is nothing.
-/

namespace Stencil

namespace Markup

/-- The character can be the first one of a tag. -/
def isTagStart (c : Char) : Bool :=
  ('a' ≤ c && c ≤ 'z') || c == '#' || c == '/' || c == '@'

/-- The tag after an opening bracket and what follows its closing bracket. -/
def tagBody? (tag : List Char) : List Char → Option (List Char × List Char)
  | [] => none
  | '[' :: _ => none
  | ']' :: cs => some (tag.reverse, cs)
  | c :: cs => tagBody? (c :: tag) cs

/-- The tag that a text starts with, and what follows it. -/
def tag? : List Char → Option (List Char × List Char)
  | '[' :: c :: cs => if isTagStart c then tagBody? [c] cs else none
  | _ => none

/-- A piece of marked-up text. -/
inductive Piece where
  /-- A character of text. -/
  | char (c : Char)
  /-- A tag with the number of backslashes in front of it. -/
  | tag (slashes : Nat) (tag : List Char)
  deriving DecidableEq, Repr

/-- The pieces of a text. `slashes` counts backslashes in front of what follows
and `skip` is how many characters belong to a tag that was read. -/
def pieces (slashes skip : Nat) : List Char → List Piece
  | [] => List.replicate slashes (.char '\\')
  | c :: cs =>
    match skip with
    | n + 1 => pieces 0 n cs
    | 0 =>
      if c == '\\' then pieces (slashes + 1) 0 cs
      else
        match tag? (c :: cs) with
        | some (tag, _) => .tag slashes tag :: pieces 0 (tag.length + 1) cs
        | none => List.replicate slashes (.char '\\') ++ .char c :: pieces 0 0 cs

/-- The text of an escaped piece. -/
def escapePiece : Piece → List Char
  | .char c => [c]
  | .tag slashes tag =>
    List.replicate (2 * slashes + 1) '\\' ++ '[' :: tag ++ [']']

/-- A text in which nothing is a tag. -/
def escape (s : String) : String :=
  let cs := (pieces 0 0 s.toList).flatMap escapePiece
  let tail := match cs.reverse with
    | ['\\'] => ['\\']
    | '\\' :: c :: _ => if c == '\\' then [] else ['\\']
    | _ => []
  String.ofList (cs ++ tail)

/-- The name of a tag, without what follows an equals sign. -/
def tagName (tag : List Char) : List Char :=
  tag.takeWhile (· != '=')

/-- A name as tags are compared by. -/
def bareName (name : List Char) : List Char :=
  (Text.trimChars name).map Char.toLower

/-- The open tags without the last one of a name, if there is one. -/
def close? (name : List Char) (opened : List (List Char)) : Option (List (List Char)) :=
  if opened.contains name then some (opened.erase name) else none

/-- The open tags after a tag. -/
def follow? (tag : List Char) (opened : List (List Char)) : Option (List (List Char)) :=
  match tagName tag with
  | '/' :: name =>
    if (Text.trimChars name).isEmpty then
      match opened with
      | [] => none
      | _ :: rest => some rest
    else close? (bareName name) opened
  | name => some (bareName name :: opened)

/-- A run of text, in which a backslash before a bracket is dropped. -/
def unescapeRun (run : List Char) : List Char :=
  Text.replaceText ['\\', '['] ['['] run.reverse (run.length + 1)

/-- The plain text of pieces. `run` is the text since the last tag, last
character first, and `opened` lists the open tags, the last one first. -/
def plainFrom (run : List Char) (opened : List (List Char)) : List Piece → Option (List Char)
  | [] => some (unescapeRun run)
  | .char c :: ps => plainFrom (c :: run) opened ps
  | .tag slashes tag :: ps =>
    let before := unescapeRun run ++ List.replicate (slashes / 2) '\\'
    -- The last of an odd number of backslashes escapes the tag.
    if slashes % 2 == 1 then
      (plainFrom [] opened ps).map fun rest => before ++ '[' :: tag ++ ']' :: rest
    else
      match follow? tag opened with
      | none => none
      | some opened => (plainFrom [] opened ps).map (before ++ ·)

/-- The plain text, if every closing tag closes one. -/
def plain? (s : String) : Option String :=
  (plainFrom [] [] (pieces 0 0 s.toList)).map String.ofList

theorem plain?_empty : plain? "" = some "" := by
  decide

end Markup

end Stencil
