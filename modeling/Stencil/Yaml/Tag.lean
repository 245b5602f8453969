import Stencil.Text.Search

/-!
# Tags

What type a node has, and which type the form of a plain text suggests.

A plain text without a tag has the type whose form it has; the forms of
numbers, days and moments are decided character by character, and all others
are lists of words. A text that has none of the forms is a text.

## Main definitions

* `Tag`: The type of a node.
* `Tag.ofPlain`: The type that the form of a text suggests.
* `Timestamp.ofChars?`: The parts of a day or a moment.
-/

namespace Stencil

namespace Yaml

/-- The type of a node. -/
inductive Tag where
  /-- Nothing. -/
  | null
  /-- A truth value. -/
  | bool
  /-- A whole number. -/
  | int
  /-- A number with a point. -/
  | float
  /-- Bytes, written in base 64. -/
  | binary
  /-- A day or a moment. -/
  | timestamp
  /-- A text. -/
  | text
  /-- A sequence. -/
  | list
  /-- A map. -/
  | map
  /-- Maps of one entry each, as pairs with different keys. -/
  | orderedMap
  /-- Maps of one entry each, as pairs. -/
  | pairs
  /-- Keys without values. -/
  | set
  /-- A key whose value is merged into the map. -/
  | merge
  /-- A key whose value stands for the map. -/
  | standIn
  /-- Any other type. -/
  | other (name : String)
  deriving DecidableEq, Repr, Inhabited

namespace Tag

/-- What the names of the common types start with. -/
def lead : String := "tag:yaml.org,2002:"

/-- The common types by name. -/
def common : List (String × Tag) :=
  [("null", .null), ("bool", .bool), ("int", .int), ("float", .float), ("binary", .binary),
    ("timestamp", .timestamp), ("str", .text), ("seq", .list), ("map", .map),
    ("omap", .orderedMap), ("pairs", .pairs), ("set", .set), ("merge", .merge),
    ("value", .standIn)]

/-- The type with a name. -/
def ofName (s : String) : Tag :=
  match Text.dropPrefix? lead.toList s.toList with
  | some rest => (common.lookup (String.ofList rest)).getD (.other s)
  | none => .other s

end Tag

/-- The words for truth values, with their values. -/
def boolWords : List (String × Bool) :=
  [("yes", true), ("Yes", true), ("YES", true), ("no", false), ("No", false), ("NO", false),
    ("true", true), ("True", true), ("TRUE", true), ("false", false), ("False", false),
    ("FALSE", false), ("on", true), ("On", true), ("ON", true), ("off", false),
    ("Off", false), ("OFF", false)]

/-- The words for nothing. -/
def nullWords : List String :=
  ["", "~", "null", "Null", "NULL"]

/-- The characters after a sign, if there is one. -/
def dropSign : List Char → List Char
  | '-' :: cs => cs
  | '+' :: cs => cs
  | cs => cs

/-- The character is a digit or an underscore. -/
def isDigitOrBar (c : Char) : Bool :=
  c.isDigit || c == '_'

/-- The characters are a digit and then digits and underscores. -/
def isNumeral : List Char → Bool
  | [] => false
  | c :: cs => c.isDigit && cs.all isDigitOrBar

/-- The characters are one or two digits that count up to fifty-nine. -/
def isSixtieth : List Char → Bool
  | [c] => c.isDigit
  | [c, d] => '0' ≤ c && c ≤ '5' && d.isDigit
  | _ => false

/-- The characters are numerals with colons between them, all but the first of
them below sixty. -/
def isSexagesimal (cs : List Char) : Bool :=
  match Text.splitChars ':' [] cs with
  | first :: second :: more => isNumeral first && (second :: more).all isSixtieth
  | _ => false

/-- The text has the form of a whole number. -/
def hasIntForm (cs : List Char) : Bool :=
  match dropSign cs with
  | ['0'] => true
  | '0' :: 'b' :: ds => !ds.isEmpty && ds.all fun c => c == '0' || c == '1' || c == '_'
  | '0' :: 'x' :: ds =>
    !ds.isEmpty && ds.all fun c =>
      isDigitOrBar c || ('a' ≤ c && c ≤ 'f') || ('A' ≤ c && c ≤ 'F')
  | '0' :: ds => ds.all fun c => ('0' ≤ c && c ≤ '7') || c == '_'
  | ds => isNumeral ds || isSexagesimal ds

/-- The characters are an exponent with a sign, or nothing. -/
def isExponent : List Char → Bool
  | [] => true
  | e :: sign :: ds =>
    (e == 'e' || e == 'E') && (sign == '+' || sign == '-') && !ds.isEmpty &&
      ds.all Char.isDigit
  | _ => false

/-- The text has the form of a number with a point. -/
def hasFloatForm (cs : List Char) : Bool :=
  let unsigned := dropSign cs
  let whole := unsigned.takeWhile (· != '.')
  match unsigned.drop whole.length with
  | [] => false
  | _ :: after =>
    let part := after.takeWhile isDigitOrBar
    let rest := after.drop part.length
    -- With no digit before the point only infinity may have a sign.
    if whole.isEmpty then
      ["inf", "Inf", "INF"].contains (String.ofList after) ||
        (unsigned.length == cs.length &&
          (["nan", "NaN", "NAN"].contains (String.ofList after) ||
            (isNumeral part && isExponent rest)))
    else
      (isNumeral whole && isExponent rest) || (isSexagesimal whole && rest.isEmpty)

/-- The parts of a day or a moment as they are written. -/
structure Timestamp where
  /-- The year. -/
  year : Nat
  /-- The month. -/
  month : Nat
  /-- The day. -/
  day : Nat
  /-- The time of day, if there is one. -/
  clock : Option (Nat × Nat × Nat)
  /-- The digits of the fraction of a second. -/
  fraction : List Char
  /-- The offset, if there is one: whether it is behind, hours and minutes. -/
  offset : Option (Bool × Nat × Nat)
  /-- Month and day have two digits each, and there is no time. -/
  isPadded : Bool
  deriving DecidableEq, Repr

namespace Timestamp

/-- The value of decimal digits. -/
def value (cs : List Char) : Nat :=
  cs.foldl (fun n c => 10 * n + (c.toNat - 48)) 0

/-- At least and at most a number of digits in front, and what follows. -/
def digits? (least most : Nat) (cs : List Char) : Option (List Char × List Char) :=
  let run := (cs.take most).takeWhile Char.isDigit
  if run.length < least then none else some (run, cs.drop run.length)

/-- What follows a character. -/
def after? (c : Char) : List Char → Option (List Char)
  | [] => none
  | d :: rest => if c == d then some rest else none

/-- The offset at the end of a moment. -/
def offset? (cs : List Char) : Option (Option (Bool × Nat × Nat)) :=
  match cs.dropWhile fun c => c == ' ' || c == '\t' with
  | [] => if cs.isEmpty then some none else none
  | ['Z'] => some (some (false, 0, 0))
  | sign :: rest =>
    if sign == '+' || sign == '-' then do
      let (hours, rest) ← digits? 1 2 rest
      match rest with
      | [] => some (some (sign == '-', value hours, 0))
      | ':' :: rest =>
        let (minutes, rest) ← digits? 2 2 rest
        if rest.isEmpty then some (some (sign == '-', value hours, value minutes)) else none
      | _ => none
    else none

/-- What follows the mark between a day and a time. -/
def afterMark? : List Char → Option (List Char)
  | [] => none
  | c :: rest =>
    if c == 'T' || c == 't' then some rest
    else if c == ' ' || c == '\t' then some (rest.dropWhile fun d => d == ' ' || d == '\t')
    else none

/-- The parts of a day or a moment. -/
def ofChars? (cs : List Char) : Option Timestamp := do
  let (year, rest) ← digits? 4 4 cs
  let (month, rest) ← digits? 1 2 (← after? '-' rest)
  let (day, rest) ← digits? 1 2 (← after? '-' rest)
  if rest.isEmpty then
    some ⟨value year, value month, value day, none, [], none,
      month.length == 2 && day.length == 2⟩
  else
    let (hour, rest) ← digits? 1 2 (← afterMark? rest)
    let (minute, rest) ← digits? 2 2 (← after? ':' rest)
    let (second, rest) ← digits? 2 2 (← after? ':' rest)
    let (fraction, rest) := match rest with
      | '.' :: rest =>
        let run := rest.takeWhile Char.isDigit
        (run, rest.drop run.length)
      | rest => ([], rest)
    let offset ← offset? rest
    some ⟨value year, value month, value day, some (value hour, value minute, value second),
      fraction, offset, false⟩

end Timestamp

/-- The text has the form of a day with all its digits, or of a moment. -/
def hasTimestampForm (cs : List Char) : Bool :=
  match Timestamp.ofChars? cs with
  | some t => t.isPadded || t.clock.isSome
  | none => false

/-- The type that the form of a plain text suggests. -/
def Tag.ofPlain (s : String) : Tag :=
  let cs := s.toList
  if (boolWords.lookup s).isSome then .bool
  else if hasFloatForm cs then .float
  else if hasIntForm cs then .int
  else if s == "<<" then .merge
  else if nullWords.contains s then .null
  else if hasTimestampForm cs then .timestamp
  else if s == "=" then .standIn
  else .text

end Yaml

end Stencil
