import Stencil.Number.Binary64
import Stencil.Text.Letter
import Stencil.Text.Quoted

/-!
# Literals

The values that numerals and quoted texts stand for.

A numeral may have single underscores between its digits, and a whole one a
base. In a quoted text a backslash starts an escape; one that starts none is
kept, and so is what follows it.

## Main definitions

* `digitRun`: Digits with underscores between them.
* `takeFloat?`, `takeInteger?`: A numeral at the start of a text.
* `quotedLength?`: How long a quoted text is.
* `unescape`: The text that a quoted text stands for.
-/

namespace Stencil

namespace Template

/-- Digits of some kind at the start of a list, with single underscores
between them: the digits, and how many characters they take. `after` says that
a digit precedes. -/
def digitRun (isDigit : Char → Bool) (after : Bool) : List Char → List Char × Nat
  | [] => ([], 0)
  | '_' :: c :: cs =>
    if after && isDigit c then
      let (ds, n) := digitRun isDigit true cs
      (c :: ds, n + 2)
    else ([], 0)
  | c :: cs =>
    if isDigit c then
      let (ds, n) := digitRun isDigit true cs
      (c :: ds, n + 1)
    else ([], 0)

/-- The value of a digit in some base up to sixteen. -/
def digitValue (c : Char) : Nat :=
  match Text.decimalValue? c with
  | some n => n
  | none => c.toLower.toNat - 87

/-- The value of digits in a base. -/
def digitsIn (base : Nat) (ds : List Char) : Nat :=
  ds.foldl (fun n c => base * n + digitValue c) 0

/-- The digits after an exponent mark, with the sign: the exponent, and how
many characters it takes. -/
def takeExponent? : List Char → Option (Int × Nat)
  | e :: cs =>
    if e == 'e' || e == 'E' then
      let (negative, signed, cs) := match cs with
        | '-' :: rest => (true, 1, rest)
        | '+' :: rest => (false, 1, rest)
        | rest => (false, 0, rest)
      let (ds, n) := digitRun Text.isDecimal false cs
      if ds.isEmpty then none
      else
        let size := Int.ofNat (digitsIn 10 ds)
        some (if negative then -size else size, n + signed + 1)
    else none
  | [] => none

/-- The digits after a point, and how many characters they take. -/
def takeFraction? : List Char → Option (List Char × Nat)
  | '.' :: cs =>
    let (ds, n) := digitRun Text.isDecimal false cs
    if ds.isEmpty then none else some (ds, n + 1)
  | _ => none

/-- A numeral with a fraction or an exponent at the start of a list: its value,
and how many characters it takes. -/
def takeFloat? (cs : List Char) : Option (Binary64 × Nat) :=
  let (whole, n) := digitRun Text.isDecimal false cs
  if whole.isEmpty then none
  else
    let rest := cs.drop n
    let value (part : List Char) (e : Int) : Binary64 :=
      Binary64.ofDecimal false (digitsIn 10 (whole ++ part)) (e - Int.ofNat part.length)
    match takeFraction? rest with
    | some (part, m) =>
      match takeExponent? (rest.drop m) with
      | some (e, k) => some (value part e, n + m + k)
      | none => some (value part 0, n + m)
    | none => (takeExponent? rest).map fun (e, k) => (value [] e, n + k)

/-- The digits of a numeral with a base, which may start with an underscore. -/
def takeBased? (base : Nat) (isDigit : Char → Bool) (cs : List Char) : Option (Nat × Nat) :=
  let (ds, n) := digitRun isDigit true cs
  if ds.isEmpty then none else some (digitsIn base ds, n + 2)

/-- A whole numeral at the start of a list: its value, and how many characters
it takes. A decimal one has no leading zero. -/
def takeInteger? (cs : List Char) : Option (Nat × Nat) :=
  let based := match cs with
    | '0' :: b :: rest =>
      if b == 'b' || b == 'B' then takeBased? 2 (fun c => c == '0' || c == '1') rest
      else if b == 'o' || b == 'O' then takeBased? 8 (fun c => '0' ≤ c && c ≤ '7') rest
      else if b == 'x' || b == 'X' then
        takeBased? 16 (fun c => Text.isDecimal c || ('a' ≤ c.toLower && c.toLower ≤ 'f')) rest
      else none
    | _ => none
  match based with
  | some found => some found
  | none =>
    match cs with
    -- A leading zero is followed by zeros only.
    | '0' :: rest => some (0, (digitRun (· == '0') true rest).2 + 1)
    | c :: rest =>
      if '1' ≤ c && c ≤ '9' then
        let (ds, n) := digitRun Text.isDecimal true rest
        some (digitsIn 10 (c :: ds), n + 1)
      else none
    | [] => none

/-- How many characters follow up to and including the closing quote. A
backslash and the character after it close nothing. -/
def quotedLength? (quote : Char) : List Char → Option Nat
  | [] => none
  | '\\' :: _ :: cs => (quotedLength? quote cs).map (· + 2)
  | c :: cs => if c == quote then some 1 else (quotedLength? quote cs).map (· + 1)

/-- What is wrong with an escape. -/
inductive BadEscape where
  /-- Two hexadecimal digits are needed. -/
  | two
  /-- Four hexadecimal digits are needed. -/
  | four
  /-- Eight hexadecimal digits are needed. -/
  | eight
  /-- There is no character with that number. -/
  | noCharacter
  /-- A name in braces is needed. -/
  | noName
  /-- No character is known by that name. -/
  | unknownName
  deriving DecidableEq, Repr

/-- The report of a bad escape. -/
def BadEscape.message : BadEscape → String
  | .two => "truncated \\xXX escape"
  | .four => "truncated \\uXXXX escape"
  | .eight => "truncated \\UXXXXXXXX escape"
  | .noCharacter => "illegal Unicode character"
  | .noName => "malformed \\N character escape"
  | .unknownName => "unknown Unicode character name"

/-- The character is a hexadecimal digit. -/
def isHexDigit (c : Char) : Bool :=
  c.isDigit || ('a' ≤ c.toLower && c.toLower ≤ 'f')

/-- The character whose number stands in `width` hexadecimal digits at the
start of a list. -/
def hexCharacter (width : Nat) (short : BadEscape) (cs : List Char) : Except BadEscape Char :=
  let ds := cs.take width
  if ds.length < width || !ds.all isHexDigit then .error short
  else
    let n := digitsIn 16 ds
    if n > 0x10FFFF then .error .noCharacter else .ok (Char.ofNat n)

/-- How a character outside ASCII is spelled with an escape. -/
def spelledOut (c : Char) : List Char :=
  let n := c.toNat
  if n < 0x100 then 'x' :: Text.hexDigits 2 n
  else if n < 0x10000 then 'u' :: Text.hexDigits 4 n
  else 'U' :: Text.hexDigits 8 n

/-- The octal digits at the start of a list, three at most. -/
def octalRun (cs : List Char) : List Char :=
  (cs.take 3).takeWhile fun c => '0' ≤ c && c ≤ '7'

/-- The character that a letter after a backslash stands for. -/
def letterEscape? (c : Char) : Option Char :=
  match c with
  | 'n' => some '\n'
  | 't' => some '\t'
  | 'r' => some '\r'
  | 'a' => some (Char.ofNat 7)
  | 'b' => some (Char.ofNat 8)
  | 'f' => some (Char.ofNat 12)
  | 'v' => some (Char.ofNat 11)
  | '\\' => some '\\'
  | '\'' => some '\''
  | '"' => some '"'
  | _ => none

/-- The characters that the escape after a backslash stands for, and how many
characters it takes. A line break stands for nothing. A character outside
ASCII is itself an escape there, so that the backslash before it escapes the
backslash of its spelling. -/
def escape (c : Char) (cs : List Char) : Except BadEscape (List Char × Nat) :=
  match letterEscape? c with
  | some d => .ok ([d], 1)
  | none =>
    if c == '\n' then .ok ([], 1)
    else if c == 'x' then (hexCharacter 2 .two cs).map fun d => ([d], 3)
    else if c == 'u' then (hexCharacter 4 .four cs).map fun d => ([d], 5)
    else if c == 'U' then (hexCharacter 8 .eight cs).map fun d => ([d], 9)
    else if c == 'N' then
      match cs with
      | '\x7b' :: rest =>
        let name := rest.takeWhile (· != '\x7d')
        if name.isEmpty || name.length == rest.length then .error .noName
        else .error .unknownName
      | _ => .error .noName
    else
      let octal := octalRun (c :: cs)
      if !octal.isEmpty then .ok ([Char.ofNat (digitsIn 8 octal)], octal.length)
      else if c.toNat < 128 then .ok (['\\', c], 1)
      else .ok ('\\' :: spelledOut c, 1)

/-- The text that the inside of a quoted text stands for; `skip` characters
belong to an escape that was read. -/
def unescape (skip : Nat) : List Char → Except BadEscape (List Char)
  | [] => .ok []
  | c :: cs =>
    match skip with
    | k + 1 => unescape k cs
    | 0 =>
      match c, cs with
      | '\\', d :: rest => do
        let (out, n) ← escape d rest
        (out ++ ·) <$> unescape n cs
      | _, _ => (c :: ·) <$> unescape 0 cs

end Template

end Stencil
