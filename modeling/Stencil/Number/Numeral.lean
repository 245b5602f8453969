import Stencil.Number.Binary64
import Stencil.Text.Blank
import Stencil.Text.Letter

/-!
# Numerals

The numbers that texts stand for.

A numeral may have blanks around it, a sign, and single underscores between
its digits, which may be those of any script. One in another base than ten may
state that base in front of its digits.

## Main definitions

* `Numeral.whole?`: The whole number that a text stands for.
* `Numeral.float?`: The floating-point number that a text stands for.
-/

namespace Stencil

namespace Numeral

/-- The digits of a numeral as values, with single underscores between them
dropped. -/
def digits? (value? : Char → Option Nat) (after : Bool) : List Char → Option (List Nat)
  | [] => if after then some [] else none
  | '_' :: cs =>
    if after then
      match digits? value? false cs with
      | some (d :: ds) => some (d :: ds)
      | _ => none
    else none
  | c :: cs => do
    let d ← value? c
    let ds ← digits? value? true cs
    return d :: ds

/-- The value of a character as a digit or a letter. -/
def baseDigit? (base : Nat) (c : Char) : Option Nat :=
  let n := match Text.decimalValue? c with
    | some n => some n
    | none =>
      let small := c.toLower
      if 'a' ≤ small && small ≤ 'z' then some (small.toNat - 87) else none
  n.bind fun n => if n < base then some n else none

/-- The sign of a numeral, and the rest. -/
def takeSign : List Char → Bool × List Char
  | '-' :: cs => (true, cs)
  | '+' :: cs => (false, cs)
  | cs => (false, cs)

/-- The base that a numeral states, and the digits after the statement. -/
def statedBase (base : Nat) (cs : List Char) : Nat × List Char :=
  match cs with
  | '0' :: b :: rest =>
    let stated := if b == 'x' || b == 'X' then 16 else if b == 'o' || b == 'O' then 8
      else if b == 'b' || b == 'B' then 2 else 0
    if stated != 0 && (base == stated || base == 0) then
      (stated, match rest with
        | '_' :: more => more
        | more => more)
    else (if base == 0 then 10 else base, cs)
  | _ => (if base == 0 then 10 else base, cs)

/-- The whole number that a text stands for in a base. -/
def whole? (base : Nat) (s : String) : Option Int :=
  let (negative, cs) := takeSign (Text.trimChars s.toList)
  let (base, cs) := statedBase base cs
  (digits? (baseDigit? base) false cs).map fun ds =>
    let n := Int.ofNat (ds.foldl (fun n d => base * n + d) 0)
    if negative then -n else n

/-- The value of decimal digits. -/
def decimal (ds : List Nat) : Nat :=
  ds.foldl (fun n d => 10 * n + d) 0

/-- The digits of a part of a numeral that may be missing. -/
def optionalDigits? (cs : List Char) : Option (List Nat) :=
  if cs.isEmpty then some [] else digits? Text.decimalValue? false cs

/-- The exponent of a numeral, which is zero if there is no mark. -/
def exponent? (cs : List Char) : Option Int :=
  match cs with
  | [] => some 0
  | _ :: rest =>
    let (negative, ds) := takeSign rest
    (digits? Text.decimalValue? false ds).map fun ds =>
      let n := Int.ofNat (decimal ds)
      if negative then -n else n

/-- The floating-point number that a text stands for. -/
def float? (s : String) : Option Binary64 :=
  let (negative, cs) := takeSign (Text.trimChars s.toList)
  let word := (String.ofList cs).map Char.toLower
  let signed (x : Binary64) : Binary64 := if negative then x.neg else x
  if word == "inf" || word == "infinity" then some (signed .infinity)
  else if word == "nan" then some .nan
  else
    let isMark (c : Char) : Bool := c == 'e' || c == 'E'
    let mantissa := cs.takeWhile (!isMark ·)
    let whole := mantissa.takeWhile (· != '.')
    let part := (mantissa.drop whole.length).drop 1
    do
      let ws ← optionalDigits? whole
      let ps ← optionalDigits? part
      if ws.isEmpty && ps.isEmpty then none
      else
        let e ← exponent? (cs.drop mantissa.length)
        some (Binary64.ofDecimal negative (decimal (ws ++ ps)) (e - Int.ofNat ps.length))

end Numeral

end Stencil
