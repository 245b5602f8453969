import Stencil.Text.Printable
import Stencil.Text.Search

/-!
# Quoted Texts

The quoted form of a text or of bytes, in which every character can be seen.

A text stands between single quotes, or between double quotes if it holds a
single quote and no double quote. The quote and the backslash are escaped with
a backslash, three control characters have a letter, and whatever else is not
printable is written as a code in hexadecimal with two, four or eight digits.

## Main definitions

* `hexDigits`: A number in hexadecimal with a fixed count of digits.
* `quoted`: The quoted form of a text.
* `quotedBytes`: The quoted form of bytes.

## Theorems

* `quoteFor_eq`: The quote is a single one unless that saves an escape.
-/

namespace Stencil

namespace Text

/-- The hexadecimal digit with a value below sixteen. -/
def hexDigit (n : Nat) : Char :=
  if n < 10 then Char.ofNat (48 + n) else Char.ofNat (87 + n)

/-- The last `width` hexadecimal digits of a number. -/
def hexDigits : Nat → Nat → List Char
  | 0, _ => []
  | width + 1, n => hexDigits width (n / 16) ++ [hexDigit (n % 16)]

/-- The quote that a text is put between. -/
def quoteFor (cs : List Char) : Char :=
  if cs.contains '\'' && !cs.contains '"' then '"' else '\''

theorem quoteFor_eq (cs : List Char) :
    quoteFor cs = '"' ↔ '\'' ∈ cs ∧ '"' ∉ cs := by
  unfold quoteFor
  by_cases h₁ : '\'' ∈ cs <;> by_cases h₂ : '"' ∈ cs <;> simp [h₁, h₂]

/-- A character inside a quoted text. -/
def escaped (quote c : Char) : List Char :=
  if c == quote || c == '\\' then ['\\', c]
  else if c == '\n' then ['\\', 'n']
  else if c == '\r' then ['\\', 'r']
  else if c == '\t' then ['\\', 't']
  else if isPrintable c then [c]
  else if c.toNat < 0x100 then '\\' :: 'x' :: hexDigits 2 c.toNat
  else if c.toNat < 0x10000 then '\\' :: 'u' :: hexDigits 4 c.toNat
  else '\\' :: 'U' :: hexDigits 8 c.toNat

/-- The quoted form of a list of characters. -/
def quotedChars (cs : List Char) : List Char :=
  let q := quoteFor cs
  q :: cs.flatMap (escaped q) ++ [q]

/-- The quoted form of a text. -/
def quoted (s : String) : String :=
  String.ofList (quotedChars s.toList)

/-- The quoted form of bytes, marked by a leading `b`. -/
def quotedBytes (bytes : List UInt8) : String :=
  let cs := bytes.map fun b => Char.ofNat b.toNat
  let q := quoteFor cs
  let body := cs.flatMap fun c =>
    if c.toNat < 127 then escaped q c else '\\' :: 'x' :: hexDigits 2 c.toNat
  String.ofList ('b' :: q :: body ++ [q])

end Text

end Stencil
