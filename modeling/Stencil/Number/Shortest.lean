import Stencil.Number.Binary64

/-!
# Shortest Decimals

The decimal text of a number in double precision: the fewest digits that read
back as the same number.

The numbers that round to a given one form an interval of reals, with its ends
if the mantissa is even. For one digit, two digits and so on, the two decimals
on either side of the value are tested against that interval in exact
arithmetic; the first count of digits with a hit wins, and of two hits the
nearer one.

How the digits are laid out is one record: positional notation between two
exponents, and scientific notation outside them.

## Main definitions

* `Binary64.shortest`: Digits and decimal exponent of a finite number.
* `Layout`: How digits become a text.
* `Binary64.text`: The text of a number.

## Theorems

* `Binary64.inInterval_self`: A number lies in its own interval.
-/

namespace Stencil

namespace Binary64

/-- The reals that round to a number, in quarters of its last binary place:
lower end, value and upper end over a common denominator, and whether the ends
belong to it. -/
structure Interval where
  /-- The lower end's numerator. -/
  low : Nat
  /-- The value's numerator. -/
  value : Nat
  /-- The upper end's numerator. -/
  high : Nat
  /-- The common denominator. -/
  den : Nat
  /-- The ends round to the number as well. -/
  closed : Bool

/-- The interval of a positive finite number. Below a power of two the next
number is half as far away. -/
def interval (x : Binary64) : Interval :=
  let (m, q) := x.magnitude
  let gap := if m == Nat.pow 2 52 && x.exponentField > 1 then 1 else 2
  let scale := Nat.pow 2 q.toNat
  ⟨(4 * m - gap) * scale, 4 * m * scale, (4 * m + 2) * scale,
    4 * Nat.pow 2 (-q).toNat, m % 2 == 0⟩

/-- The decimal `n / d` lies in an interval. -/
def Interval.has (i : Interval) (n d : Nat) : Bool :=
  let v := n * i.den
  if i.closed then i.low * d ≤ v && v ≤ i.high * d else i.low * d < v && v < i.high * d

theorem inInterval_self (i : Interval) (hl : i.low < i.value) (hh : i.value < i.high)
    (hd : 0 < i.den) : i.has i.value i.den = true := by
  have h₁ : i.low * i.den < i.value * i.den := Nat.mul_lt_mul_of_pos_right hl hd
  have h₂ : i.value * i.den < i.high * i.den := Nat.mul_lt_mul_of_pos_right hh hd
  simp only [Interval.has]
  split <;> simp <;> omega

/-- The exponent `p` with `10 ^ p ≤ n / d < 10 ^ (p + 1)`, for positive `n`
and `d`, found from an estimate that is too large by at most one. -/
def decimalExponent (n d : Nat) : Int :=
  let digits (k : Nat) : Int := Int.ofNat (Nat.toDigits 10 k).length
  let guess := digits n - digits d
  let fits := if guess ≥ 0 then d * Nat.pow 10 guess.toNat ≤ n
    else d ≤ n * Nat.pow 10 (-guess).toNat
  if fits then guess else guess - 1

/-- Tests the decimals of `count` digits next to the value, then those of one
digit more, as long as there is `fuel`. -/
def shortestFrom (i : Interval) (top : Int) : Nat → Nat → Nat × Int
  | 0, count =>
    let e := top + 1 - Int.ofNat count
    (if e ≥ 0 then roundDiv i.value (i.den * Nat.pow 10 e.toNat)
      else roundDiv (i.value * Nat.pow 10 (-e).toNat) i.den, e)
  | fuel + 1, count =>
    let e := top + 1 - Int.ofNat count
    let up := Nat.pow 10 e.toNat
    let down := Nat.pow 10 (-e).toNat
    let num := i.value * down
    let den := i.den * up
    let below := num / den
    let hitBelow := below != 0 && i.has (below * up) down
    let hitAbove := i.has ((below + 1) * up) down
    -- Of two hits the nearer one is the rounded value.
    if hitBelow && hitAbove then (roundDiv num den, e)
    else if hitBelow then (below, e)
    else if hitAbove then (below + 1, e)
    else shortestFrom i top fuel (count + 1)

/-- Digits `n` and exponent `e` with `n * 10 ^ e` the shortest decimal that
reads back as the given finite number, without its sign. -/
def shortest (x : Binary64) : Nat × Int :=
  if x.isZero then (0, 0)
  else
    let i := x.interval
    shortestFrom i (decimalExponent i.value i.den) 16 1

end Binary64

/-- How the digits of a number are laid out. -/
structure Layout where
  /-- The least exponent of the leading digit in positional notation. -/
  least : Int
  /-- The first exponent of the leading digit that is too large for it. -/
  bound : Int
  /-- What a whole number ends in, in positional notation. -/
  wholeEnd : String
  /-- The fewest digits of an exponent. -/
  exponentWidth : Nat
  /-- The text of infinity. -/
  infinity : String
  /-- The text of no number. -/
  nan : String

namespace Layout

/-- Numbers are positional from a ten-thousandth up to sixteen digits, whole
ones end in a point and a zero, and an exponent has a sign and two digits. -/
def standard : Layout :=
  ⟨-4, 16, ".0", 2, "inf", "nan"⟩

/-- A count with leading zeros up to a width. -/
def padZeros (width n : Nat) : String :=
  let ds := toString n
  String.ofList (List.replicate (width - ds.length) '0') ++ ds

/-- An exponent with its sign. -/
def exponentText (l : Layout) (e : Int) : String :=
  (if e < 0 then "e-" else "e+") ++ padZeros l.exponentWidth e.natAbs

/-- The text of `digits * 10 ^ exponent`, without a sign. Trailing zeros of the
digits are not written in scientific notation. -/
def render (l : Layout) (digits : Nat) (exponent : Int) : String :=
  if digits == 0 then "0" ++ l.wholeEnd
  else
    let all := (toString digits).toList
    let ds := (all.reverse.dropWhile (· == '0')).reverse
    let top := exponent + Int.ofNat all.length - 1
    if l.least ≤ top && top < l.bound then
      if top < 0 then
        "0." ++ String.ofList (List.replicate (-top - 1).toNat '0' ++ ds)
      else
        let lead := top.toNat + 1
        let whole := ds.take lead ++ List.replicate (lead - ds.length) '0'
        let part := ds.drop lead
        String.ofList whole ++
          (if part.isEmpty then l.wholeEnd else "." ++ String.ofList part)
    else
      let part := ds.drop 1
      String.ofList (ds.take 1) ++
        (if part.isEmpty then "" else "." ++ String.ofList part) ++ l.exponentText top

end Layout

namespace Binary64

/-- The text of a number. -/
def text (x : Binary64) (l : Layout := .standard) : String :=
  if x.isNaN then l.nan
  else
    let sign := if x.isNegative then "-" else ""
    if x.isInfinite then sign ++ l.infinity
    else
      let (digits, e) := x.shortest
      sign ++ l.render digits e

end Binary64

end Stencil
