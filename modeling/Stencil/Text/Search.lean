/-!
# Searching and Splitting

Finding, cutting and replacing one text inside another, on lists of
characters.

The functions here look for a fixed text and scan from the left. Cutting at a
separator is written with the characters of the current piece collected in
reverse, so that each character is visited once.

## Main definitions

* `dropPrefix?`: The rest after a fixed beginning.
* `find?`: Where a text first occurs.
* `splitOnText`, `splitOnChar`: The pieces between separators.
* `replaceText`: Every occurrence replaced, from the left.
* `cutFirst`, `cutLast`: The two sides of the first or last separator.
-/

namespace Stencil

namespace Text

/-- The rest of a list after a fixed beginning, if it begins so. -/
def dropPrefix? : List Char → List Char → Option (List Char)
  | [], cs => some cs
  | _ :: _, [] => none
  | p :: ps, c :: cs => if p == c then dropPrefix? ps cs else none

/-- The list begins with the given one. -/
def startsWith (start cs : List Char) : Bool :=
  (dropPrefix? start cs).isSome

/-- The list ends with the given one. -/
def endsWith (stop cs : List Char) : Bool :=
  startsWith stop.reverse cs.reverse

theorem length_dropPrefix? {ps cs rest : List Char} (h : dropPrefix? ps cs = some rest) :
    rest.length + ps.length = cs.length := by
  induction ps generalizing cs with
  | nil => simp_all [dropPrefix?]
  | cons p ps ih =>
    cases cs with
    | nil => simp [dropPrefix?] at h
    | cons c cs =>
      by_cases hc : p = c
      · subst hc
        simp only [dropPrefix?, beq_self_eq_true, if_true] at h
        have := ih h
        simp only [List.length_cons]
        omega
      · simp [dropPrefix?, hc] at h

/-- The index of the first occurrence of `needle`, counted from `at_`. -/
def findFrom (needle : List Char) (at_ : Nat) : List Char → Option Nat
  | [] => if needle.isEmpty then some at_ else none
  | c :: cs => if startsWith needle (c :: cs) then some at_ else findFrom needle (at_ + 1) cs

/-- The index of the first occurrence of `needle`. -/
def find? (needle cs : List Char) : Option Nat :=
  findFrom needle 0 cs

/-- The list holds `needle` as a run of consecutive characters. -/
def contains (needle cs : List Char) : Bool :=
  (find? needle cs).isSome

/-- The pieces between single separator characters; there is always one more
piece than there are separators. -/
def splitChars (sep : Char) (piece : List Char) : List Char → List (List Char)
  | [] => [piece.reverse]
  | c :: cs =>
    if c == sep then piece.reverse :: splitChars sep [] cs else splitChars sep (c :: piece) cs

/-- The pieces of a text between occurrences of a character. -/
def splitOnChar (sep : Char) (s : String) : List String :=
  (splitChars sep [] s.toList).map String.ofList

/-- The pieces between occurrences of a separator, `skip` characters of which
are still to be passed over, with at most `most` cuts. -/
def splitTextFrom (sep : List Char) (most skip : Nat) (piece : List Char) :
    List Char → List (List Char)
  | [] => [piece.reverse]
  | c :: cs =>
    match skip with
    | k + 1 => splitTextFrom sep most k piece cs
    | 0 =>
      match most with
      | 0 => splitTextFrom sep 0 0 (c :: piece) cs
      | m + 1 =>
        if startsWith sep (c :: cs) then
          piece.reverse :: splitTextFrom sep m (sep.length - 1) [] cs
        else splitTextFrom sep (m + 1) 0 (c :: piece) cs

/-- The pieces between occurrences of a non-empty separator, cut at most
`most` times from the left. -/
def splitOnText (sep cs : List Char) (most : Nat) : List (List Char) :=
  splitTextFrom sep most 0 [] cs

/-- The same, cut from the right. -/
def splitOnTextRight (sep cs : List Char) (most : Nat) : List (List Char) :=
  ((splitOnText sep.reverse cs.reverse most).map List.reverse).reverse

/-- Pieces joined with a separator between them. -/
def joinWith (sep : List Char) : List (List Char) → List Char
  | [] => []
  | [p] => p
  | p :: q :: ps => p ++ sep ++ joinWith sep (q :: ps)

/-- Strings joined with a separator between them. -/
def joinStrings (sep : String) : List String → String
  | [] => ""
  | [p] => p
  | p :: q :: ps => p ++ sep ++ joinStrings sep (q :: ps)

/-- Every occurrence of `old`, up to `most` of them from the left, replaced by
`new`. An empty `old` occurs before every character and at the end. -/
def replaceText (old new cs : List Char) (most : Nat) : List Char :=
  if old.isEmpty then
    let head := cs.take (most - 1)
    if most == 0 then cs
    else new ++ head.flatMap (fun c => c :: new) ++ cs.drop (most - 1)
  else joinWith new (splitOnText old cs most)

/-- Every occurrence of one text in another replaced. -/
def replaceAll (old new s : String) : String :=
  String.ofList (replaceText old.toList new.toList s.toList (s.length + 1))

/-- Every character of a text replaced through a function. -/
def mapChars (f : Char → Char) (s : String) : String :=
  String.ofList (s.toList.map f)

/-- The parts before and after the first occurrence of a character. -/
def cutFirst (sep : Char) (s : String) : Option (String × String) :=
  let cs := s.toList
  let before := cs.takeWhile (· != sep)
  match cs.drop before.length with
  | [] => none
  | _ :: after => some (String.ofList before, String.ofList after)

/-- The parts before and after the last occurrence of a character. -/
def cutLast (sep : Char) (s : String) : Option (String × String) :=
  let cs := s.toList.reverse
  let after := cs.takeWhile (· != sep)
  match cs.drop after.length with
  | [] => none
  | _ :: before => some (String.ofList before.reverse, String.ofList after.reverse)

end Text

end Stencil
