import Stencil.Template.Value.Arithmetic
import Stencil.Number.Numeral

/-!
# Numbers from Values

Turning values into numbers, and rounding.

A text stands for the number whose numeral it is. A value that stands for no
number gives way to a default.

## Main definitions

* `toWhole`, `toFloat`: The numbers that values stand for, or a default.
* `roundValue`: A number rounded to a count of places.
-/

namespace Stencil

namespace Template

/-- The whole number that a value stands for, or a default. -/
def toWhole (v default : Value) (base : Nat) : Outcome Value :=
  let ofFloat (x : Binary64) : Value :=
    if x.isFinite then .int x.truncate else default
  match v with
  | .undefined u => Value.missing u
  | .int n => .ok (.int n)
  | .bool b => .ok (.int (boolInt b))
  | .float x =>
    if x.isInfinite then .error ⟨.overflow, "cannot convert float infinity to integer"⟩
    else .ok (ofFloat x)
  | .text s =>
    match Numeral.whole? base s with
    | some n => .ok (.int n)
    | none => .ok (((Numeral.float? s).map ofFloat).getD default)
  | _ => .ok default

/-- The floating-point number that a value stands for, or a default. -/
def toFloat (v default : Value) : Outcome Value :=
  match v with
  | .undefined u => Value.missing u
  | .text s => .ok (((Numeral.float? s).map Value.float).getD default)
  | v =>
    match v.number? with
    | some _ => .float <$> floatOf v
    | none => .ok default

/-- The size of a value. -/
def absolute (v : Value) : Outcome Value :=
  match v with
  | .float x => .ok (.float x.abs)
  | v =>
    match v.count? with
    | some n => .ok (.int n.natAbs)
    | none => badType s!"bad operand type for abs(): '{v.typeName}'"

/-- How a number is rounded. -/
inductive Rounding where
  | nearest | up | down
  deriving DecidableEq, Repr

/-- The rounding that a word stands for. -/
def Rounding.ofText? : String → Option Rounding
  | "common" => some .nearest
  | "ceil" => some .up
  | "floor" => some .down
  | _ => none

/-- A number rounded to the nearest one with a count of places. -/
def roundNearest (v : Value) (places : Int) : Outcome Value :=
  match v with
  | .float x => .ok (.float (x.roundTo places))
  | v =>
    match v.count? with
    | none => badType s!"type {v.typeName} doesn't define __round__ method"
    | some n =>
      if places ≥ 0 then .ok (.int n)
      else
        let unit := Nat.pow 10 (-places).toNat
        let size := Binary64.roundDiv n.natAbs unit * unit
        .ok (.int (if n < 0 then -Int.ofNat size else Int.ofNat size))

/-- The next whole number in a direction. -/
def wholeToward (up : Bool) (v : Value) : Outcome Int :=
  match v with
  | .float x =>
    if x.isNaN then badValue "cannot convert float NaN to integer"
    else if x.isInfinite then .error ⟨.overflow, "cannot convert float infinity to integer"⟩
    else .ok (if up then x.ceil else x.floor)
  | v =>
    match v.count? with
    | some n => .ok n
    | none => badType s!"must be real number, not {v.typeName}"

/-- A number rounded to a count of places. -/
def roundValue (v : Value) (places : Value) (how : Rounding) : Outcome Value := do
  match how with
  | .nearest =>
    match places.count? with
    | some p => roundNearest v p
    | none => badType s!"'{places.typeName}' object cannot be interpreted as an integer"
  | _ =>
    let unit ← Value.apply Value.kindOnly .pow (.int 10) places
    let scaled ← Value.apply Value.kindOnly .mul v unit
    let whole ← wholeToward (how == .up) scaled
    Value.apply Value.kindOnly .div (.int whole) unit

end Template

end Stencil
