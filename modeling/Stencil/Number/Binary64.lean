/-!
# Binary Floating Point

Numbers in double precision, kept as their sixty-four bits.

Two numbers are equal as values of this type when their bits are, so zero and
minus zero differ and a number that is no number equals itself. The
comparisons of arithmetic are separate functions. What has to be exact
(reading, printing, remainders, rounding to a decimal place) goes through
`Binary64.ratio`, which gives a finite number as a sign and a quotient of
natural numbers; only sums, products and powers use the machine's operations.

## Main definitions

* `Binary64`: The bits of a number.
* `Binary64.magnitude`: A finite number's mantissa and binary exponent.
* `Binary64.ratio`: A finite number as an exact quotient.
* `Binary64.ofRatio`: The number nearest to a quotient.
* `Binary64.floorDiv`, `Binary64.floorMod`: Quotient and remainder towards the
  floor.

## Theorems

* `Binary64.neg_neg`: Negation flips one bit, so twice is nothing.
-/

namespace Stencil

/-- A number in double precision. -/
structure Binary64 where
  /-- Sign, exponent and fraction, from the highest bit down. -/
  bits : UInt64
  deriving DecidableEq, Repr, Inhabited

namespace Binary64

/-- The number as the machine computes with it. -/
def toFloat (x : Binary64) : Float :=
  Float.ofBits x.bits

/-- The bits of a machine number. -/
def ofFloat (x : Float) : Binary64 :=
  ⟨x.toBits⟩

/-- The biased exponent. -/
def exponentField (x : Binary64) : Nat :=
  (x.bits.toNat / Nat.pow 2 52) % 2048

/-- The fraction without the hidden bit. -/
def fractionField (x : Binary64) : Nat :=
  x.bits.toNat % Nat.pow 2 52

/-- The sign bit is set. -/
def isNegative (x : Binary64) : Bool :=
  Nat.pow 2 63 ≤ x.bits.toNat

/-- The number is no number. -/
def isNaN (x : Binary64) : Bool :=
  x.exponentField == 2047 && x.fractionField != 0

/-- The number is an infinity. -/
def isInfinite (x : Binary64) : Bool :=
  x.exponentField == 2047 && x.fractionField == 0

/-- The number is neither infinite nor no number. -/
def isFinite (x : Binary64) : Bool :=
  x.exponentField != 2047

/-- The number is zero of either sign. -/
def isZero (x : Binary64) : Bool :=
  x.exponentField == 0 && x.fractionField == 0

/-- Positive infinity. -/
def infinity : Binary64 :=
  ⟨0x7FF0000000000000⟩

/-- No number. -/
def nan : Binary64 :=
  ⟨0x7FF8000000000000⟩

/-- Zero. -/
def zero : Binary64 :=
  ⟨0⟩

/-- One half. -/
def half : Binary64 :=
  ⟨0x3FE0000000000000⟩

/-- The number with its sign changed. -/
def neg (x : Binary64) : Binary64 :=
  ⟨x.bits ^^^ 0x8000000000000000⟩

theorem neg_neg (x : Binary64) : x.neg.neg = x := by
  cases x
  simp only [neg, UInt64.xor_assoc, UInt64.xor_self, UInt64.xor_zero]

/-- The number without its sign. -/
def abs (x : Binary64) : Binary64 :=
  if x.isNegative then x.neg else x

/-- Mantissa `m` and exponent `q` of a finite number of value `± m * 2 ^ q`. -/
def magnitude (x : Binary64) : Nat × Int :=
  if x.exponentField == 0 then (x.fractionField, -1074)
  else (x.fractionField + Nat.pow 2 52, Int.ofNat x.exponentField - 1075)

/-- Numerator and denominator of the size of a finite number. -/
def sizeRatio (x : Binary64) : Nat × Nat :=
  let (m, q) := x.magnitude
  if q ≥ 0 then (m * Nat.pow 2 q.toNat, 1) else (m, Nat.pow 2 (-q).toNat)

/-- Numerator and denominator of a finite number. -/
def ratio (x : Binary64) : Int × Nat :=
  let (n, d) := x.sizeRatio
  (if x.isNegative then -Int.ofNat n else Int.ofNat n, d)

/-- The quotient `n / d` rounded to the nearest whole number, a half to the
even neighbour. -/
def roundDiv (n d : Nat) : Nat :=
  let q := n / d
  let r := n % d
  if 2 * r < d then q
  else if 2 * r == d then q + q % 2
  else q + 1

/-- The number nearest to `n / d`, with the given sign. The mantissa has
fifty-three bits unless the exponent is the least one; a mantissa that rounds
up to the next power of two carries into the exponent field by itself. -/
def ofRatio (negative : Bool) (n d : Nat) : Binary64 :=
  let sign : Nat := if negative then Nat.pow 2 63 else 0
  if n == 0 then ⟨UInt64.ofNat sign⟩
  else
    let lengthGap := Int.ofNat n.log2 - Int.ofNat d.log2
    let least := if lengthGap ≥ 0 then d * Nat.pow 2 lengthGap.toNat ≤ n
      else d ≤ n * Nat.pow 2 (-lengthGap).toNat
    -- The lengths in bits tell the leading place up to one.
    let top := if least then lengthGap else lengthGap - 1
    let q := max (top - 52) (-1074)
    let m := if q ≥ 0 then roundDiv n (d * Nat.pow 2 q.toNat)
      else roundDiv (n * Nat.pow 2 (-q).toNat) d
    let field := (q + 1074).toNat
    let size := field * Nat.pow 2 52 + m
    -- What is too large for a finite number is infinite.
    if size ≥ 2047 * Nat.pow 2 52 then ⟨UInt64.ofNat (sign + 2047 * Nat.pow 2 52)⟩
    else ⟨UInt64.ofNat (sign + size)⟩

/-- The number nearest to a whole number. -/
def ofInt (n : Int) : Binary64 :=
  ofRatio (n < 0) n.natAbs 1

/-- The number nearest to `digits * 10 ^ exponent`. -/
def ofDecimal (negative : Bool) (digits : Nat) (exponent : Int) : Binary64 :=
  if digits == 0 then ofRatio negative 0 1
  -- Far out of range the power itself is not needed.
  else if exponent > 400 then ofRatio negative (Nat.pow 10 400) 1
  else if exponent < -20000 then ofRatio negative 0 1
  else if exponent ≥ 0 then ofRatio negative (digits * Nat.pow 10 exponent.toNat) 1
  else ofRatio negative digits (Nat.pow 10 (-exponent).toNat)

/-- The whole part of a finite number. -/
def truncate (x : Binary64) : Int :=
  let (n, d) := x.sizeRatio
  if x.isNegative then -Int.ofNat (n / d) else Int.ofNat (n / d)

/-- The number is finite and whole. -/
def isWhole (x : Binary64) : Bool :=
  x.isFinite && (let (n, d) := x.sizeRatio; n % d == 0)

/-- Equality of numbers: no number equals nothing, the two zeros are equal. -/
def eq (x y : Binary64) : Bool :=
  !x.isNaN && !y.isNaN && (x == y || (x.isZero && y.isZero))

/-- Order of numbers. -/
def lt (x y : Binary64) : Bool :=
  x.toFloat < y.toFloat

/-- Order of numbers, equality included. -/
def le (x y : Binary64) : Bool :=
  x.lt y || x.eq y

/-- The sum of two numbers. -/
def add (x y : Binary64) : Binary64 :=
  ofFloat (x.toFloat + y.toFloat)

/-- The difference of two numbers. -/
def sub (x y : Binary64) : Binary64 :=
  ofFloat (x.toFloat - y.toFloat)

/-- The product of two numbers. -/
def mul (x y : Binary64) : Binary64 :=
  ofFloat (x.toFloat * y.toFloat)

/-- The quotient of two numbers. -/
def div (x y : Binary64) : Binary64 :=
  ofFloat (x.toFloat / y.toFloat)

/-- A power of a number. -/
def pow (x y : Binary64) : Binary64 :=
  ofFloat (Float.pow x.toFloat y.toFloat)

/-- The remainder of `x` by a `y` that is not zero, with the sign of `y`. -/
def floorMod (x y : Binary64) : Binary64 :=
  if !x.isFinite || y.isNaN then nan
  else if y.isInfinite then
    if x.isZero then (if y.isNegative then zero.neg else zero)
    else if x.isNegative == y.isNegative then x else y
  else
    let (n, d) := x.ratio
    let (n', d') := y.ratio
    let r := Int.fmod (n * d') (n' * d)
    ofRatio y.isNegative r.natAbs (d * d')

/-- The remainder of a finite `x` by a finite `y` that is not zero, with the
sign of `x`. -/
def truncMod (x y : Binary64) : Binary64 :=
  let (n, d) := x.sizeRatio
  let (n', d') := y.sizeRatio
  ofRatio x.isNegative (n * d' % (n' * d)) (d * d')

/-- A finite number rounded to the floor; the floor of what lies more than a
half above it is the next one. -/
def nearFloor (x : Binary64) : Binary64 :=
  let (n, d) := x.ratio
  let low := ofInt (Int.fdiv n (Int.ofNat d))
  if half.lt (x.sub low) then low.add (ofInt 1) else low

/-- The quotient of `x` by a `y` that is not zero, rounded to the floor. The
remainder is taken off first, so that the quotient is nearly whole; what is
left of it is rounded like every result. -/
def floorDiv (x y : Binary64) : Binary64 :=
  let signed := if x.isNegative == y.isNegative then zero else zero.neg
  if !x.isFinite || y.isNaN then nan
  else if y.isInfinite then
    if x.isZero then signed
    else if x.isNegative == y.isNegative then zero else (ofInt 1).neg
  else
    let r := x.truncMod y
    let whole := (x.sub r).div y
    let q := if !r.isZero && r.isNegative != y.isNegative then whole.sub (ofInt 1) else whole
    if q.isZero then signed
    else if q.isFinite then q.nearFloor else q

/-- The nearest number with at most `places` decimal places, a tie going to
the even neighbour; a negative count rounds to tens, hundreds and so on. -/
def roundTo (x : Binary64) (places : Int) : Binary64 :=
  if !x.isFinite then x
  else if places > 400 then x
  else if places < -400 then ofRatio x.isNegative 0 1
  else
    let (n, d) := x.sizeRatio
    if places ≥ 0 then
      ofRatio x.isNegative (roundDiv (n * Nat.pow 10 places.toNat) d) (Nat.pow 10 places.toNat)
    else
      let unit := Nat.pow 10 (-places).toNat
      ofRatio x.isNegative (roundDiv n (d * unit) * unit) 1

/-- The least whole number that is not below a finite number. -/
def ceil (x : Binary64) : Int :=
  let (n, d) := x.ratio
  Int.neg (Int.fdiv (-n) (Int.ofNat d))

/-- The greatest whole number that is not above a finite number. -/
def floor (x : Binary64) : Int :=
  let (n, d) := x.ratio
  Int.fdiv n (Int.ofNat d)

/-- The whole number nearest to a finite number, a half to the even one. -/
def round (x : Binary64) : Int :=
  let (n, d) := x.sizeRatio
  if x.isNegative then -Int.ofNat (roundDiv n d) else Int.ofNat (roundDiv n d)

end Binary64

end Stencil
