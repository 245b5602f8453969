import Stencil.Number.Shortest

/-!
# Fixed and Scientific Decimals

A number in double precision with a given count of decimal places, or with a
given count of significant digits.

The digits are those of the exact value, rounded once; a tie goes to the even
neighbour.

## Main definitions

* `Binary64.fixed`: A given count of places after the point.
* `Binary64.scientific`: One digit before the point, and an exponent.
* `Binary64.general`: A count of significant digits, in the shorter notation.
-/

namespace Stencil

namespace Binary64

/-- The size of a finite number with `places` digits after the point. -/
def fixed (x : Binary64) (places : Nat) : String :=
  let (n, d) := x.sizeRatio
  let scaled := roundDiv (n * Nat.pow 10 places) d
  let whole := toString (scaled / Nat.pow 10 places)
  if places == 0 then whole
  else whole ++ "." ++ Layout.padZeros places (scaled % Nat.pow 10 places)

/-- Digits and exponent of the leading one, for `count + 1` significant digits
of the size of a finite number. -/
def significant (x : Binary64) (count : Nat) : Nat × Int :=
  if x.isZero then (0, 0)
  else
    let (n, d) := x.sizeRatio
    let top := decimalExponent n d
    let e := top - Int.ofNat count
    let digits := if e ≥ 0 then roundDiv n (d * Nat.pow 10 e.toNat)
      else roundDiv (n * Nat.pow 10 (-e).toNat) d
    if digits ≥ Nat.pow 10 (count + 1) then (digits / 10, top + 1) else (digits, top)

/-- The size of a finite number in scientific notation with `places` digits
after the point. -/
def scientific (x : Binary64) (places : Nat) : String :=
  let (digits, top) := x.significant places
  let ds := (Layout.padZeros (places + 1) digits).toList
  String.ofList (ds.take 1) ++
    (if places == 0 then "" else "." ++ String.ofList (ds.drop 1)) ++
    Layout.standard.exponentText top

/-- Removes the zeros a fraction ends in, and a point that then ends it. -/
def dropFractionZeros (s : String) : String :=
  let cs := s.toList
  if cs.contains '.' then
    let kept := cs.reverse.dropWhile (· == '0')
    String.ofList (kept.dropWhile (· == '.')).reverse
  else s

/-- The size of a finite number with `count` significant digits, positional
where the exponent of the leading digit is at least minus four and below
`count`. -/
def general (x : Binary64) (count : Nat) : String :=
  let count := max count 1
  let (digits, top) := x.significant (count - 1)
  if -4 ≤ top && top < Int.ofNat count then
    dropFractionZeros (x.fixed (Int.ofNat count - 1 - top).toNat)
  else
    let ds := (Layout.padZeros count digits).toList
    dropFractionZeros (String.ofList (ds.take 1) ++ "." ++ String.ofList (ds.drop 1)) ++
      Layout.standard.exponentText top

end Binary64

end Stencil
