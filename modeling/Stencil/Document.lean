import Stencil.Text.Quoted

/-!
# Documents

Structured reports for other programs.

A document is a truth value, a text, a list or a record. It is written over
several lines, each level indented by two more blanks; a list or a record of
nothing stays on its line. In a text a quote, a backslash and every control
character are escaped and all else stands as it is.

## Main definitions

* `Document`: A document.
* `Document.write`: The text of a document.

## Theorems

* `Document.write_list_nil`: The list of nothing is written as two brackets.
-/

namespace Stencil

/-- A structured report. -/
inductive Document where
  /-- A truth value. -/
  | flag (b : Bool)
  /-- A text. -/
  | text (s : String)
  /-- A list. -/
  | list (items : List Document)
  /-- Named parts in order. -/
  | record (fields : List (String × Document))
  deriving Inhabited

namespace Document

/-- The list of some texts. -/
def texts (ss : List String) : Document :=
  .list (ss.map .text)

/-- A character as it is written inside a text. -/
def escape (c : Char) : List Char :=
  if c == '"' then ['\\', '"']
  else if c == '\\' then ['\\', '\\']
  else if c == '\n' then ['\\', 'n']
  else if c == '\r' then ['\\', 'r']
  else if c == '\t' then ['\\', 't']
  else if c.toNat == 8 then ['\\', 'b']
  else if c.toNat == 12 then ['\\', 'f']
  else if c.toNat < 32 then '\\' :: 'u' :: Text.hexDigits 4 c.toNat
  else [c]

/-- A text in quotes. -/
def quote (s : String) : String :=
  "\"" ++ String.ofList (s.toList.flatMap escape) ++ "\""

/-- A new line with some blanks. -/
def newLine (indent : Nat) : String :=
  "\n" ++ String.ofList (List.replicate indent ' ')

mutual
/-- The text of a document that starts with some indentation. -/
def writeAt (indent : Nat) : Document → String
  | .flag b => if b then "true" else "false"
  | .text s => quote s
  | .list [] => "[]"
  | .list (d :: ds) =>
    "[" ++ newLine (indent + 2) ++ writeAt (indent + 2) d ++ writeItems (indent + 2) ds ++
      newLine indent ++ "]"
  | .record [] => "\x7b\x7d"
  | .record ((k, d) :: fs) =>
    "\x7b" ++ newLine (indent + 2) ++ quote k ++ ": " ++ writeAt (indent + 2) d ++
      writeFields (indent + 2) fs ++ newLine indent ++ "\x7d"

/-- The text of the items of a list after the first. -/
def writeItems (indent : Nat) : List Document → String
  | [] => ""
  | d :: ds => "," ++ newLine indent ++ writeAt indent d ++ writeItems indent ds

/-- The text of the fields of a record after the first. -/
def writeFields (indent : Nat) : List (String × Document) → String
  | [] => ""
  | (k, d) :: fs =>
    "," ++ newLine indent ++ quote k ++ ": " ++ writeAt indent d ++ writeFields indent fs
end

/-- The text of a document. -/
def write (d : Document) : String :=
  writeAt 0 d

theorem write_list_nil : write (.list []) = "[]" := by
  simp [write, writeAt]

end Document

end Stencil
