import Stencil.Template.Value.Method

/-!
# Filters on Texts

What filters do to texts.

A line of an indented text that is empty stays empty, unless blank lines are
indented as well. A title starts a word after blanks, hyphens and opening
brackets, and nowhere else.

## Main definitions

* `indentLines`: Lines with something in front of them.
* `titleCase`: Words with a capital in front.
* `shorten`: A text cut to a length.
* `escapeMarkup`: A text with its special characters as entities.
-/

namespace Stencil

namespace Template

open Text

/-- Lines with something in front of all but the first one, unless that is
wanted too. -/
def indentLines (indent : String) (first blank : Bool) (s : String) : String :=
  let all := Text.lines (s ++ "\n")
  let body := match all with
    | [] => ""
    | l :: rest =>
      Text.joinStrings "\n" (l :: rest.map fun m => if blank || m != "" then indent ++ m else m)
  if first then indent ++ body else body

/-- The character comes between two words of a title. -/
def isTitleGap (c : Char) : Bool :=
  isBlank c || c == '-' || c == '(' || c == '\x7b' || c == '[' || c == '<'

/-- A word with a capital in front and the rest in lower case. -/
def titleWord (cs : List Char) : List Char :=
  match cs with
  | [] => []
  | c :: rest => upperOf c ++ lowerChars false rest

/-- Words with a capital in front; `word` holds the current one, last
character first. -/
def titleFrom (word : List Char) : List Char → List Char
  | [] => titleWord word.reverse
  | c :: cs =>
    if isTitleGap c then titleWord word.reverse ++ c :: titleFrom [] cs
    else titleFrom (c :: word) cs

/-- A text in which every word has a capital in front. -/
def titleCase (s : String) : String :=
  String.ofList (titleFrom [] s.toList)

/-- A text cut to a length, at the end of a word if that is wanted. -/
def shorten (s : String) (length : Nat) (inWord : Bool) (stop : String) (leeway : Nat) : String :=
  if s.length ≤ length + leeway then s
  else
    let head := s.toList.take (length - stop.length)
    if inWord then String.ofList head ++ stop
    else
      match splitOnTextRight [' '] head 1 with
      | h :: _ => String.ofList h ++ stop
      | [] => stop

/-- How many words a text has: runs of characters that can stand in words. -/
def countWords (inWord : Bool) : List Char → Nat
  | [] => 0
  | c :: cs =>
    if isWordChar c then (if inWord then 0 else 1) + countWords true cs else countWords false cs

/-- A text with the special characters of markup as entities. -/
def escapeMarkup (s : String) : String :=
  String.join (s.toList.map fun c => match c with
    | '&' => "&amp;"
    | '<' => "&lt;"
    | '>' => "&gt;"
    | '\'' => "&#39;"
    | '"' => "&#34;"
    | c => String.singleton c)

/-- A character of a text in a script. -/
def scriptChar (c : Char) : String :=
  let n := c.toNat
  let four (m : Nat) : String := "\\u" ++ String.ofList (hexDigits 4 m)
  match c with
  | '"' => "\\\""
  | '\\' => "\\\\"
  | '\n' => "\\n"
  | '\r' => "\\r"
  | '\t' => "\\t"
  | '<' => four n
  | '>' => four n
  | '&' => four n
  | '\'' => four n
  | c =>
    if n == 8 then "\\b" else if n == 12 then "\\f"
    else if 32 ≤ n && n < 127 then String.singleton c
    else if n < 0x10000 then four n
    else four (0xD800 + (n - 0x10000) / 1024) ++ four (0xDC00 + (n - 0x10000) % 1024)

/-- A text in quotes for a script. -/
def scriptText (s : String) : String :=
  "\"" ++ String.join (s.toList.map scriptChar) ++ "\""

/-- The key of a map in a script. -/
def scriptKey : Value → Outcome String
  | .text s => .ok s
  | .bool b => .ok (if b then "true" else "false")
  | .none => .ok "null"
  | .int n => .ok (toString n)
  | .float x => .ok x.text
  | v => badType s!"keys must be str, int, float, bool or None, not {v.typeName}"

mutual
/-- A value as it is written in a script. -/
def scriptValue : Value → Outcome String
  | .none => .ok "null"
  | .bool b => .ok (if b then "true" else "false")
  | .int n => .ok (toString n)
  | .float x =>
    .ok (if x.isNaN then "NaN" else if x.isInfinite then
      (if x.isNegative then "-Infinity" else "Infinity") else x.text)
  | .text s => .ok (scriptText s)
  | .list xs => do return "[" ++ Text.joinStrings ", " (← scriptItems xs) ++ "]"
  | .tuple xs => do return "[" ++ Text.joinStrings ", " (← scriptItems xs) ++ "]"
  | .dict es => do
    let parts := (← scriptEntries es).mergeSort fun a b => !decide (b.1 < a.1)
    return "\x7b" ++
      Text.joinStrings ", " (parts.map fun p => scriptText p.1 ++ ": " ++ p.2) ++ "\x7d"
  | v => badType s!"Object of type {v.typeName} is not JSON serializable"

/-- Values as they are written in a script. -/
def scriptItems : List Value → Outcome (List String)
  | [] => .ok []
  | x :: xs => do
    let s ← scriptValue x
    return s :: (← scriptItems xs)

/-- The entries of a map as they are written in a script. -/
def scriptEntries : List (Value × Value) → Outcome (List (String × String))
  | [] => .ok []
  | (k, v) :: es => do
    let key ← scriptKey k
    let s ← scriptValue v
    return (key, s) :: (← scriptEntries es)
end

end Template

end Stencil
