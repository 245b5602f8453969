import Stencil.Template.Value.Basic

/-!
# The Text of Values

A value has two texts. Its display is what printing it gives; its literal is
how it is shown inside a list or a map, where a text has quotes.

Objects are shown by a function that the store of a render provides.

## Main definitions

* `Value.literal`: The literal of a value.
* `Value.display`: The text that printing a value gives.

## Theorems

* `Value.display_text`: A text is printed as it is.
-/

namespace Stencil

namespace Template

namespace Value

/-- Numbers with commas between them. -/
def numbers (ns : List Nat) : String :=
  Text.joinStrings ", " (ns.map toString)

/-- The literal of a day. -/
def dayLiteral (d : Day) : String :=
  "datetime.date(" ++ numbers [d.year, d.month, d.day] ++ ")"

/-- The literal of a span of seconds. -/
def spanLiteral (seconds : Int) : String :=
  let days := Int.fdiv seconds 86400
  let rest := Int.fmod seconds 86400
  let parts := (if days == 0 then [] else ["days=" ++ toString days]) ++
    (if rest == 0 then [] else ["seconds=" ++ toString rest])
  "datetime.timedelta(" ++ Text.joinStrings ", " parts ++ ")"

/-- The literal of a moment; seconds are left out if they are zero. -/
def momentLiteral (t : Moment) : String :=
  let lead := [t.date.year, t.date.month, t.date.day, t.hour, t.minute]
  let tail := if t.micro != 0 then [t.second, t.micro] else if t.second != 0 then [t.second] else []
  let zone := match t.offset with
    | Option.none => ""
    | some 0 => ", tzinfo=datetime.timezone.utc"
    | some s => ", tzinfo=datetime.timezone(" ++ spanLiteral s ++ ")"
  "datetime.datetime(" ++ numbers (lead ++ tail) ++ zone ++ ")"

/-- The literal of a function. -/
def builtinLiteral : Builtin → String
  | .range => "<class 'range'>"
  | .dict => "<class 'dict'>"
  | .space => "<class 'jinja2.utils.Namespace'>"
  | .cycler => "<class 'jinja2.utils.Cycler'>"
  | .joiner => "<class 'jinja2.utils.Joiner'>"
  | .lorem => "<function generate_lorem_ipsum>"

/-- How objects are shown: printed if the flag is set, and as literals
otherwise. -/
abbrev Shown := Bool → ObjectKind → Nat → String

mutual
/-- The literal of a value. -/
def literal (shown : Shown) : Value → String
  | .undefined _ => "Undefined"
  | .none => "None"
  | .bool b => if b then "True" else "False"
  | .int n => toString n
  | .float x => x.text
  | .text s => Text.quoted s
  | .bytes bs => Text.quotedBytes bs
  | .day d => dayLiteral d
  | .moment t => momentLiteral t
  | .list xs => "[" ++ Text.joinStrings ", " (literals shown xs) ++ "]"
  | .tuple xs =>
    match literals shown xs with
    | [x] => "(" ++ x ++ ",)"
    | ls => "(" ++ Text.joinStrings ", " ls ++ ")"
  | .dict es => "\x7b" ++ Text.joinStrings ", " (entryLiterals shown es) ++ "\x7d"
  | .range a b s =>
    "range(" ++ toString a ++ ", " ++ toString b ++
      (if s == 1 then "" else ", " ++ toString s) ++ ")"
  | .view .keys es => "dict_keys([" ++ Text.joinStrings ", " (keyLiterals shown es) ++ "])"
  | .view .values es => "dict_values([" ++ Text.joinStrings ", " (valueLiterals shown es) ++ "])"
  | .view .items es => "dict_items([" ++ Text.joinStrings ", " (pairLiterals shown es) ++ "])"
  | .object kind id => shown false kind id
  | .method v name => "<built-in method " ++ name ++ " of " ++ v.objectName ++ ">"
  | .builtin f => builtinLiteral f

/-- The literals of values. -/
def literals (shown : Shown) : List Value → List String
  | [] => []
  | x :: xs => literal shown x :: literals shown xs

/-- The literals of entries, with colons. -/
def entryLiterals (shown : Shown) : List (Value × Value) → List String
  | [] => []
  | (k, v) :: es => (literal shown k ++ ": " ++ literal shown v) :: entryLiterals shown es

/-- The literals of keys. -/
def keyLiterals (shown : Shown) : List (Value × Value) → List String
  | [] => []
  | (k, _) :: es => literal shown k :: keyLiterals shown es

/-- The literals of the values under keys. -/
def valueLiterals (shown : Shown) : List (Value × Value) → List String
  | [] => []
  | (_, v) :: es => literal shown v :: valueLiterals shown es

/-- The literals of entries as pairs. -/
def pairLiterals (shown : Shown) : List (Value × Value) → List String
  | [] => []
  | (k, v) :: es =>
    ("(" ++ literal shown k ++ ", " ++ literal shown v ++ ")") :: pairLiterals shown es
end

/-- The text that printing a value gives, unless the value does not exist. -/
def display (shown : Shown) : Value → Outcome String
  | .undefined u => if u.isLenient then .ok "" else missing u
  | .text s => .ok s
  | .day d => .ok d.text
  | .moment t => .ok (t.text " ")
  | .object kind id => .ok (shown true kind id)
  | v => .ok (v.literal shown)

theorem display_text (shown : Shown) (s : String) : display shown (.text s) = .ok s :=
  rfl

/-- Shows of an object no more than its kind. -/
def kindOnly : Shown :=
  fun _ kind _ => "<" ++ kindHome kind ++ kindName kind ++ " object>"

end Value

end Template

end Stencil
