import Stencil.Datum
import Stencil.Path
import Stencil.Text.Blank
import Stencil.Text.Case
import Stencil.Text.Quoted
import Stencil.Text.Utf8

/-!
# Checking Values

Reading typed fields out of plain data, with all complaints and not only the
first.

A complaint names the place of a value and what is wrong with it. Readers are
lenient where a value has one sensible meaning: a whole number may come as a
truth value, as a float without a fraction or as a numeral in a text, and a
truth value as a number or as a word.

`Checked.apply` joins two readings and keeps the complaints of both, in order,
which is what lets a record report every bad field at once.

## Main definitions

* `Complaint`: A place and what is wrong there.
* `Checked`: A value, or complaints.
* `readText`, `readInt`, `readBool`, `readPath`, `readTexts`, `readContext`:
  The readers.
* `wholeNumeral?`: The whole number that a text stands for.

## Theorems

* `complaints_apply`: Joining two readings joins their complaints.
-/

namespace Stencil

namespace Config

/-- What is wrong with a value. -/
inductive Defect where
  /-- A text is needed. -/
  | notText
  /-- The bytes of a text are not UTF-8. -/
  | badBytes
  /-- A list is needed. -/
  | notList
  /-- A map is needed. -/
  | notMap
  /-- A whole number is needed. -/
  | notInt
  /-- The text is no whole number. -/
  | unreadableInt
  /-- The number has a fraction. -/
  | fraction
  /-- The number is not finite. -/
  | notFinite
  /-- The number is too large to be read. -/
  | tooLarge
  /-- A truth value is needed. -/
  | notBool
  /-- The value stands for no truth value. -/
  | unreadableBool
  /-- A path is needed. -/
  | notPath
  /-- The number is below the least one allowed. -/
  | tooSmall
  /-- There is no such field. -/
  | unknownField
  /-- A rule of the field is broken. -/
  | rule (message : String)
  deriving DecidableEq, Repr

/-- The code of a defect. -/
def Defect.code : Defect → String
  | .notText => "string_type"
  | .badBytes => "string_unicode"
  | .notList => "list_type"
  | .notMap => "dict_type"
  | .notInt => "int_type"
  | .unreadableInt => "int_parsing"
  | .fraction => "int_from_float"
  | .notFinite => "finite_number"
  | .tooLarge => "int_parsing_size"
  | .notBool => "bool_type"
  | .unreadableBool => "bool_parsing"
  | .notPath => "path_type"
  | .tooSmall => "greater_than_equal"
  | .unknownField => "extra_forbidden"
  | .rule _ => "value_error"

/-- A complaint about a value. -/
structure Complaint where
  /-- The field, and the way to the value inside it. -/
  place : List String
  /-- What is wrong. -/
  defect : Defect
  deriving DecidableEq, Repr

/-- The wording of a complaint. -/
def Complaint.text (c : Complaint) : String :=
  let what := match c.defect with
    | .rule message => message
    | d => d.code
  Text.joinStrings "." c.place ++ ": " ++ what

/-- The wording of several complaints. -/
def Complaint.listing (cs : List Complaint) : String :=
  Text.joinStrings "; " (cs.map Complaint.text)

/-- A value, or the complaints that stand against it. -/
abbrev Checked (α : Type) := Except (List Complaint) α

/-- The complaints against a value. -/
def Checked.complaints {α : Type} : Checked α → List Complaint
  | .ok _ => []
  | .error cs => cs

/-- Applies a checked function to a checked value and keeps all complaints. -/
def Checked.apply {α β : Type} (f : Checked (α → β)) (x : Checked α) : Checked β :=
  match f, x with
  | .ok g, .ok a => .ok (g a)
  | .ok _, .error cs => .error cs
  | .error cs, .ok _ => .error cs
  | .error cs, .error ds => .error (cs ++ ds)

theorem complaints_apply {α β : Type} (f : Checked (α → β)) (x : Checked α) :
    (f.apply x).complaints = f.complaints ++ x.complaints := by
  cases f <;> cases x <;> simp [Checked.apply, Checked.complaints]

/-- A complaint about a whole field. -/
def complain {α : Type} (place : List String) (d : Defect) : Checked α :=
  .error [⟨place, d⟩]

/-- The digits of a numeral without underscores, each of which must stand
between two digits. -/
def plainDigits? : List Char → Option (List Char)
  | [] => none
  | [c] => if c.isDigit then some [c] else none
  | c :: '_' :: rest =>
    if c.isDigit then (plainDigits? rest).map (c :: ·) else none
  | c :: rest => if c.isDigit then (plainDigits? rest).map (c :: ·) else none

/-- The value of a list of decimal digits. -/
def digitsValue (cs : List Char) : Nat :=
  cs.foldl (fun n c => 10 * n + (c.toNat - 48)) 0

/-- The text without a point and the zeros after it. -/
def dropZeroFraction (cs : List Char) : List Char :=
  let whole := cs.takeWhile (· != '.')
  match cs.drop whole.length with
  | [] => cs
  | _ :: part => if part.all (· == '0') then whole else cs

/-- The whole number that a text stands for: a sign, digits that underscores
may separate, and possibly a fraction of zeros, between blanks. -/
def wholeNumeral? (s : String) : Option Int :=
  match dropZeroFraction (Text.trimChars s.toList) with
  | '-' :: cs => (plainDigits? cs).map fun ds => -Int.ofNat (digitsValue ds)
  | '+' :: cs => (plainDigits? cs).map fun ds => Int.ofNat (digitsValue ds)
  | cs => (plainDigits? cs).map fun ds => Int.ofNat (digitsValue ds)

/-- The truth value that a word stands for, in any case. -/
def wordBool? (s : String) : Option Bool :=
  let w := s.map Char.toLower
  if ["true", "t", "yes", "y", "on", "1"].contains w then some true
  else if ["false", "f", "no", "n", "off", "0"].contains w then some false
  else none

/-- The text of a value that is a text or the bytes of one. -/
def textOf? : Datum → Option String
  | .text s => some s
  | .bytes bs => String.fromUTF8? ⟨bs.toArray⟩
  | _ => none

/-- Reads a text. -/
def readText (place : List String) : Datum → Checked String
  | .text s => .ok s
  | .bytes bs =>
    match String.fromUTF8? ⟨bs.toArray⟩ with
    | some s => .ok s
    | none => complain place .badBytes
  | _ => complain place .notText

/-- The whole number that a float stands for. -/
def intOfFloat (x : Binary64) : Except Defect Int :=
  if !x.isFinite then .error .notFinite
  else if !x.isWhole then .error .fraction
  else if x.truncate.natAbs < Nat.pow 2 63 then .ok x.truncate
  else .error .tooLarge

/-- Reads a whole number. -/
def readInt (place : List String) : Datum → Checked Int
  | .int n => .ok n
  | .bool b => .ok (boolInt b)
  | .float x => (intOfFloat x).mapError fun d => [⟨place, d⟩]
  | d =>
    match textOf? d with
    | none => complain place .notInt
    | some s =>
      match wholeNumeral? s with
      | some n => .ok n
      | none => complain place .unreadableInt

/-- Reads a whole number that is not below a least one. -/
def readIntFrom (least : Int) (place : List String) (d : Datum) : Checked Int :=
  match readInt place d with
  | .ok n => if n < least then complain place .tooSmall else .ok n
  | .error cs => .error cs

/-- The truth value of a number that is zero or one. -/
def boolOfInt (place : List String) (n : Int) : Checked Bool :=
  if n == 0 then .ok false else if n == 1 then .ok true else complain place .unreadableBool

/-- Reads a truth value. -/
def readBool (place : List String) : Datum → Checked Bool
  | .bool b => .ok b
  | .int n => boolOfInt place n
  | .float x =>
    match intOfFloat x with
    | .ok n => boolOfInt place n
    | .error _ => complain place .notBool
  | d =>
    match textOf? d with
    | none => complain place .notBool
    | some s =>
      match wordBool? s with
      | some b => .ok b
      | none => complain place .unreadableBool

/-- Reads a path. -/
def readPath (place : List String) : Datum → Checked Path
  | .text s => .ok (Path.ofString s)
  | _ => complain place .notPath

/-- Reads a value that may be missing. -/
def readOption {α : Type} (read : Datum → Checked α) : Datum → Checked (Option α)
  | .null => .ok none
  | d => (read d).map some

/-- Reads the items of a list of texts, counted from `at_`. -/
def readItems (place : List String) (at_ : Nat) : List Datum → Checked (List String)
  | [] => .ok []
  | d :: ds =>
    let head := readText (place ++ [toString at_]) d
    Checked.apply (head.map List.cons) (readItems place (at_ + 1) ds)

/-- Reads a list of texts. -/
def readTexts (place : List String) : Datum → Checked (List String)
  | .list ds => readItems place 0 ds
  | _ => complain place .notList

/-- How a key that is no text is named in a place. -/
def keyName : Datum → String
  | .null => "None"
  | .bool b => toString (boolInt b)
  | .int n => toString n
  | .float x => x.text
  | .day d => d.text
  | .moment t => t.text " "
  | .bytes bs => Text.quotedBytes bs
  | .text s => s
  | _ => ""

/-- Complaints about the keys of a map that has to have text keys. -/
def keyComplaints (place : List String) (es : Datum.Entries) : List Complaint :=
  es.filterMap fun e =>
    match textOf? e.1 with
    | some _ => none
    | none => some ⟨place ++ [keyName e.1, "[key]"], .notText⟩

/-- A list of named values with one replaced, or added at the end. -/
def setField (fields : List (String × Datum)) (name : String) (value : Datum) :
    List (String × Datum) :=
  if fields.any (·.1 == name) then
    fields.map fun f => if f.1 == name then (name, value) else f
  else fields ++ [(name, value)]

/-- The values of a map by the texts of their keys. Different keys can have one
text, and then the last of them counts. -/
def namedValues (es : Datum.Entries) : List (String × Datum) :=
  (es.filterMap fun e => (textOf? e.1).map fun k => (k, e.2)).foldl
    (fun done f => setField done f.1 f.2) []

/-- Reads a map with text keys and any values. -/
def readContext (place : List String) : Datum → Checked (List (String × Datum))
  | .map es =>
    match keyComplaints place es with
    | [] => .ok (namedValues es)
    | cs => .error cs
  | _ => complain place .notMap

/-- Checks a rule of a field. -/
def checkRule {α β : Type} (place : List String) (rule : α → Except String β) (x : Checked α) :
    Checked β :=
  match x with
  | .error cs => .error cs
  | .ok a => (rule a).mapError fun m => [⟨place, .rule m⟩]

end Config

end Stencil
