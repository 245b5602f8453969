import Stencil.Number.Fixed
import Stencil.Template.Value.Display

/-!
# Formatting Values

Filling values into a text at its percent signs.

A percent sign starts a field: possibly a key in parentheses, flags, a width
and a precision, and a letter that says how the value is written. A star takes
the width or the precision from the values. Every value has to be used, unless
they come as a map.

## Main definitions

* `Field`: A field of a text.
* `Field.read`: Reads a field and takes the values that it names.
* `Value.fill`: The text with values filled in.
-/

namespace Stencil

namespace Template

/-- A field of a text. -/
structure Field where
  /-- The flags. -/
  flags : List Char
  /-- The width. -/
  width : Nat
  /-- The precision, if there is one. -/
  precision : Option Nat
  /-- The letter. -/
  letter : Char
  deriving Repr

/-- The values that fields take: those that are left, and the value that keys
are looked up in. -/
structure Supply where
  /-- The values that are left. -/
  left : List Value
  /-- The value that keys are looked up in. -/
  whole : Value

/-- The next value. -/
def Supply.next (s : Supply) : Outcome (Value × Supply) :=
  match s.left with
  | v :: rest => .ok (v, { s with left := rest })
  | [] => badType "not enough arguments for format string"

/-- The value under a key becomes the only one that is left. -/
def Supply.choose (s : Supply) (key : String) : Outcome Supply :=
  let needsWholeNumber (what : String) : Outcome Supply :=
    badType s!"{what} indices must be integers or slices, not str"
  match s.whole with
  | .dict es =>
    match Value.findText? es key with
    | some v => .ok { s with left := [v] }
    | none => .error ⟨.badKey, Text.quoted key⟩
  | .undefined u => Value.missing u
  | .list _ => needsWholeNumber "list"
  | .range _ _ _ => needsWholeNumber "range"
  | .bytes _ => needsWholeNumber "byte"
  | _ => badType "format requires a mapping"

/-- The next value as a size; `limit` is the first that is too large, and
`kind` how sizes below it are called. -/
def Supply.size (s : Supply) (limit : Nat) (kind : String) : Outcome (Int × Supply) := do
  let (v, s) ← s.next
  let n ← match v with
    | .int n => pure n
    | .bool b => pure (boolInt b)
    | _ => badType "* wants int"
  if n.natAbs < limit then return (n, s)
  else .error ⟨.overflow, s!"Python int too large to convert to C {kind}"⟩

/-- The number of characters a parenthesised key takes, the closing one
included; parentheses inside it have to match. -/
def keyLength? (depth : Nat) : List Char → Option Nat
  | [] => none
  | '(' :: cs => (keyLength? (depth + 1) cs).map (· + 1)
  | ')' :: cs =>
    match depth with
    | 0 => some 1
    | d + 1 => (keyLength? d cs).map (· + 1)
  | _ :: cs => (keyLength? depth cs).map (· + 1)

/-- Takes a key in parentheses; the characters after it are left. -/
def readKey (s : Supply) (cs : List Char) : Outcome (Supply × List Char) :=
  match cs with
  | '(' :: rest =>
    match keyLength? 0 rest with
    | none => badValue "incomplete format key"
    | some n => do
      let s ← s.choose (String.ofList (rest.take (n - 1)))
      return (s, rest.drop n)
  | _ => .ok (s, cs)

/-- A number written in digits, and the characters after it. -/
def readSize (cs : List Char) : Nat × List Char :=
  let ds := cs.takeWhile Char.isDigit
  (ds.foldl (fun n c => 10 * n + (c.toNat - 48)) 0, cs.drop ds.length)

/-- The first size that a width cannot have. -/
def widthLimit : Nat :=
  Nat.pow 2 63

/-- The first size that a precision cannot have. -/
def precisionLimit : Nat :=
  Nat.pow 2 31

/-- A width, written or taken from the values. -/
def readWidth (s : Supply) (cs : List Char) : Outcome (Int × Supply × List Char) :=
  match cs with
  | '*' :: rest => do
    let (n, s) ← s.size widthLimit "ssize_t"
    return (n, s, rest)
  | _ =>
    let (n, rest) := readSize cs
    if n < widthLimit then .ok (n, s, rest) else badValue "width too big"

/-- A precision after its point, if there is one. A negative one counts as
zero. -/
def readPrecision (s : Supply) (cs : List Char) : Outcome (Option Nat × Supply × List Char) :=
  match cs with
  | '.' :: '*' :: rest => do
    let (n, s) ← s.size precisionLimit "int"
    return (some n.toNat, s, rest)
  | '.' :: rest =>
    let (n, rest) := readSize rest
    if n < precisionLimit then .ok (some n, s, rest) else badValue "precision too big"
  | _ => .ok (none, s, cs)

/-- A field after its percent sign, the values that are left for it and later
ones, and the characters after it. A negative width stands for the flag that
fills up on the right. -/
def Field.read (s : Supply) (cs : List Char) : Outcome (Field × Supply × List Char) := do
  let (s, cs) ← readKey s cs
  let flags := cs.takeWhile fun c => "-+ #0".toList.contains c
  let (width, s, cs) ← readWidth s (cs.drop flags.length)
  let (precision, s, cs) ← readPrecision s cs
  -- A letter for a size says nothing here.
  let cs := match cs with
    | c :: rest => if c == 'h' || c == 'l' || c == 'L' then rest else cs
    | [] => []
  match cs with
  | [] => badValue "incomplete format"
  | c :: rest =>
    return (⟨if width < 0 then '-' :: flags else flags, width.natAbs, precision, c⟩, s, rest)

/-- A text filled up to a width, on the left unless a flag says otherwise. -/
def padText (left : Bool) (width : Nat) (s : String) : String :=
  let fill := String.ofList (List.replicate (width - s.length) ' ')
  if left then s ++ fill else fill ++ s

/-- A number with a sign, a mark of its base, and zeros or blanks up to a
width. -/
def padNumber (flags : List Char) (width : Nat) (negative : Bool) (mark digits : String) :
    String :=
  let sign := if negative then "-" else if flags.contains '+' then "+"
    else if flags.contains ' ' then " " else ""
  if flags.contains '-' then padText true width (sign ++ mark ++ digits)
  else if flags.contains '0' then
    let zeros := width - sign.length - mark.length - digits.length
    sign ++ mark ++ String.ofList (List.replicate zeros '0') ++ digits
  else padText false width (sign ++ mark ++ digits)

/-- The digits of a number in a base. -/
def digitsOf (base n : Nat) : String :=
  String.ofList (Nat.toDigits base n)

/-- The whole number that a field of a decimal letter writes. -/
def wholeOf (letter : Char) : Value → Outcome Int
  | .int n => .ok n
  | .bool b => .ok (boolInt b)
  | .float x =>
    if x.isNaN then badValue "cannot convert float NaN to integer"
    else if x.isInfinite then .error ⟨.overflow, "cannot convert float infinity to integer"⟩
    else .ok x.truncate
  | .undefined u => Value.missing u
  | v => badType s!"%{letter} format: a real number is required, not {v.typeName}"

/-- The whole number that a field of another base writes. -/
def exactWholeOf (letter : Char) : Value → Outcome Int
  | .int n => .ok n
  | .bool b => .ok (boolInt b)
  | .undefined u => Value.missing u
  | v => badType s!"%{letter} format: an integer is required, not {v.typeName}"

/-- The floating-point number that a value is. -/
def floatOf : Value → Outcome Binary64
  | .float x => .ok x
  | .int n =>
    let x := Binary64.ofInt n
    if x.isInfinite then .error ⟨.overflow, "int too large to convert to float"⟩ else .ok x
  | .bool b => .ok (Binary64.ofInt (boolInt b))
  | .undefined u => Value.missing u
  | v => badType s!"must be real number, not {v.typeName}"

/-- The size of a finite number with `count` significant digits and no zeros
dropped. -/
def generalWithZeros (x : Binary64) (count : Nat) : String :=
  let count := max count 1
  let (_, top) := x.significant (count - 1)
  if -4 ≤ top && top < Int.ofNat count then
    let s := x.fixed (Int.ofNat count - 1 - top).toNat
    if s.toList.contains '.' then s else s ++ "."
  else x.scientific (count - 1)

/-- The digits of a floating-point field, without the sign. -/
def floatDigits (letter : Char) (flags : List Char) (precision : Nat) (x : Binary64) : String :=
  if x.isNaN then "nan"
  else if x.isInfinite then "inf"
  else if letter == 'f' then
    let s := x.fixed precision
    if flags.contains '#' && precision == 0 then s ++ "." else s
  else if letter == 'e' then x.scientific precision
  else if flags.contains '#' then generalWithZeros x precision
  else x.general precision

/-- A text with everything outside ASCII escaped. -/
def asciiOnly (s : String) : String :=
  String.ofList (s.toList.flatMap fun c =>
    let n := c.toNat
    if n < 128 then [c]
    else if n < 0x100 then '\\' :: 'x' :: Text.hexDigits 2 n
    else if n < 0x10000 then '\\' :: 'u' :: Text.hexDigits 4 n
    else '\\' :: 'U' :: Text.hexDigits 8 n)

/-- The text of a field. -/
def Field.render (f : Field) (shown : Value.Shown) (position : Nat) (v : Value) :
    Outcome String := do
  let ⟨flags, width, precision, letter⟩ := f
  let left := flags.contains '-'
  let texted (s : String) : Outcome String :=
    .ok (padText left width (match precision with
      | some n => String.ofList (s.toList.take n)
      | none => s))
  let whole (n : Int) (mark digits : String) : Outcome String :=
    let least := precision.getD 0
    let zeros := String.ofList (List.replicate (least - digits.length) '0')
    .ok (padNumber flags width (n < 0) mark (zeros ++ digits))
  let marked (mark : String) : String := if flags.contains '#' then mark else ""
  match letter with
  | 's' => texted (← v.display shown)
  | 'r' => texted (v.literal shown)
  | 'a' => texted (asciiOnly (v.literal shown))
  | 'c' =>
    match v with
    | .text s => if s.length == 1 then texted s else badType "%c requires int or char"
    | .int n =>
      if 0 ≤ n && n < 0x110000 then texted (String.singleton (Char.ofNat n.toNat))
      else .error ⟨.overflow, "%c arg not in range(0x110000)"⟩
    | .bool b => texted (String.singleton (if b then '\x01' else '\x00'))
    | _ => badType "%c requires int or char"
  | 'x' =>
    let n ← exactWholeOf 'x' v
    whole n (marked "0x") (digitsOf 16 n.natAbs)
  | 'X' =>
    let n ← exactWholeOf 'X' v
    whole n (marked "0X") (digitsOf 16 n.natAbs).toUpper
  | 'o' =>
    let n ← exactWholeOf 'o' v
    whole n (marked "0o") (digitsOf 8 n.natAbs)
  | c =>
    if c == 'd' || c == 'i' || c == 'u' then
      let n ← wholeOf c v
      whole n "" (toString n.natAbs)
    else
      let small := c.toLower
      if small == 'e' || small == 'f' || small == 'g' then
        let x ← floatOf v
        let digits := floatDigits small flags (precision.getD 6) x
        let digits := if c.isUpper then digits.toUpper else digits
        .ok (padNumber flags width (x.isNegative && !x.isNaN) "" digits)
      else
        let code := String.ofList (Nat.toDigits 16 c.toNat)
        let c := if 31 ≤ c.toNat && c.toNat < 126 then c else '?'
        badValue s!"unsupported format character '{c}' (0x{code}) at index {position}"

/-- Fills values into a text; the count bounds the number of fields, and
`position` is that of the first character that is left. -/
def fillFrom (shown : Value.Shown) (total : Nat) (s : Supply) :
    Nat → List Char → Outcome (List String × Supply)
  | 0, cs => .ok ([String.ofList cs], s)
  | n + 1, cs => do
    let text := cs.takeWhile (· != '%')
    match cs.drop text.length with
    | [] => .ok ([String.ofList text], s)
    | _ :: rest =>
      match rest with
      | '%' :: after =>
        let (more, s) ← fillFrom shown total s n after
        .ok (String.ofList text :: "%" :: more, s)
      | _ =>
        let (f, s, after) ← Field.read s rest
        let (v, s) ← s.next
        let out ← f.render shown (total - after.length - 1) v
        let (more, s) ← fillFrom shown total s n after
        .ok (String.ofList text :: out :: more, s)

/-- The text with values filled in. A tuple gives several values; a map or
another container gives one that need not be used. -/
def Value.fill (shown : Value.Shown) (text : String) (v : Value) : Outcome String := do
  let cs := text.toList
  let supply : Supply := match v with
    | .tuple xs => ⟨xs, v⟩
    | _ => ⟨[v], v⟩
  let (parts, rest) ← fillFrom shown cs.length supply (cs.length + 1) cs
  let spare := match v with
    | .tuple _ => !rest.left.isEmpty
    | .dict _ => false
    | .list _ => false
    | .range _ _ _ => false
    | .bytes _ => false
    | .undefined _ => false
    | _ => !rest.left.isEmpty
  if spare then badType "not all arguments converted during string formatting"
  else .ok (Text.joinStrings "" parts)

end Template

end Stencil
