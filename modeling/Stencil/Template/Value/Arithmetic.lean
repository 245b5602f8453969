import Stencil.Template.Value.Format

/-!
# Arithmetic

Operations on two values.

Whole numbers stay exact, and turn into floating-point ones where the
operation asks for it. Texts, lists and tuples can be joined and repeated, and
a text takes the values of its fields from the right of a percent sign.

## Main definitions

* `Value.apply`: An operation on two values.
* `Value.negate`, `Value.affirm`: The signs.
* `Value.contains`: Whether a value is in another.

## Theorems

* `Value.apply_undefined`: An operation on a value that does not exist fails
  with its report.
-/

namespace Stencil

namespace Template

/-- The spelling of an operation in reports. -/
def BinaryOp.text : BinaryOp → String
  | .add => "+"
  | .sub => "-"
  | .mul => "*"
  | .div => "/"
  | .floorDiv => "//"
  | .mod => "%"
  | .pow => "** or pow()"

namespace Value

/-- Division by zero. -/
def zeroDivision {α : Type} (message : String) : Outcome α :=
  .error ⟨.zeroDivision, message⟩

/-- A power of whole numbers. -/
def intPower (a b : Int) : Outcome Value :=
  if b ≥ 0 then .ok (.int (Int.pow a b.toNat))
  else if a == 0 then zeroDivision "0.0 cannot be raised to a negative power"
  else do
    let x ← floatOf (.int a)
    let y ← floatOf (.int b)
    .ok (.float (x.pow y))

/-- An operation on whole numbers. -/
def intApply (op : BinaryOp) (a b : Int) : Outcome Value :=
  match op with
  | .add => .ok (.int (a + b))
  | .sub => .ok (.int (a - b))
  | .mul => .ok (.int (a * b))
  | .div =>
    if b == 0 then zeroDivision "division by zero"
    else
      let x := Binary64.ofRatio ((a < 0) != (b < 0)) a.natAbs b.natAbs
      if x.isInfinite then .error ⟨.overflow, "integer division result too large for a float"⟩
      else .ok (.float x)
  | .floorDiv =>
    if b == 0 then zeroDivision "integer division or modulo by zero"
    else .ok (.int (Int.fdiv a b))
  | .mod =>
    if b == 0 then zeroDivision "integer modulo by zero" else .ok (.int (Int.fmod a b))
  | .pow => intPower a b

/-- A power of floating-point numbers. -/
def floatPower (x y : Binary64) : Outcome Value :=
  if x.isZero && y.isNegative && !y.isZero && !y.isNaN then
    zeroDivision "0.0 cannot be raised to a negative power"
  else
    let z := x.pow y
    if z.isInfinite && x.isFinite && y.isFinite then
      .error ⟨.overflow, "(34, 'Numerical result out of range')"⟩
    else .ok (.float z)

/-- An operation on floating-point numbers. -/
def floatApply (op : BinaryOp) (x y : Binary64) : Outcome Value :=
  match op with
  | .add => .ok (.float (x.add y))
  | .sub => .ok (.float (x.sub y))
  | .mul => .ok (.float (x.mul y))
  | .div => if y.isZero then zeroDivision "float division by zero" else .ok (.float (x.div y))
  | .floorDiv =>
    if y.isZero then zeroDivision "float floor division by zero" else .ok (.float (x.floorDiv y))
  | .mod => if y.isZero then zeroDivision "float modulo" else .ok (.float (x.floorMod y))
  | .pow => floatPower x y

/-- An operation on numbers. -/
def numberApply (op : BinaryOp) : Int ⊕ Binary64 → Int ⊕ Binary64 → Outcome Value
  | .inl a, .inl b => intApply op a b
  | .inl a, .inr y => do floatApply op (← floatOf (.int a)) y
  | .inr x, .inl b => do floatApply op x (← floatOf (.int b))
  | .inr x, .inr y => floatApply op x y

/-- The value that is repeated when a number is multiplied with it. -/
def repeat? (n : Int) : Value → Option Value
  | .text s => some (.text (String.ofList ((List.replicate n.toNat s.toList).flatten)))
  | .list xs => some (.list ((List.replicate n.toNat xs).flatten))
  | .tuple xs => some (.tuple ((List.replicate n.toNat xs).flatten))
  | .bytes bs => some (.bytes ((List.replicate n.toNat bs).flatten))
  | _ => Option.none

/-- The whole number that can count repetitions. -/
def count? : Value → Option Int
  | .int n => some n
  | .bool b => some (boolInt b)
  | _ => Option.none

/-- The product of two values that are not both numbers. -/
def multiply (v w : Value) : Outcome Value :=
  match repeat? 0 v, repeat? 0 w with
  | some _, _ =>
    match w.count? with
    | some n => .ok ((repeat? n v).getD v)
    | Option.none => badType s!"can't multiply sequence by non-int of type '{w.typeName}'"
  | _, some _ =>
    match v.count? with
    | some n => .ok ((repeat? n w).getD w)
    | Option.none => badType s!"can't multiply sequence by non-int of type '{v.typeName}'"
  | _, _ => badType s!"unsupported operand type(s) for *: '{v.typeName}' and '{w.typeName}'"

/-- The failure of values that cannot be joined. -/
def notJoined (left right : String) : Outcome Value :=
  badType s!"can only concatenate {left} (not \"{right}\") to {left}"

/-- The sum of two values that are not both numbers. -/
def join (v w : Value) : Outcome Value :=
  match v, w with
  | .text a, .text b => .ok (.text (a ++ b))
  | .list a, .list b => .ok (.list (a ++ b))
  | .tuple a, .tuple b => .ok (.tuple (a ++ b))
  | .bytes a, .bytes b => .ok (.bytes (a ++ b))
  | .text _, _ => notJoined "str" w.typeName
  | .list _, _ => notJoined "list" w.typeName
  | .tuple _, _ => notJoined "tuple" w.typeName
  | .bytes _, _ => badType s!"can't concat {w.typeName} to bytes"
  | _, _ => badType s!"unsupported operand type(s) for +: '{v.typeName}' and '{w.typeName}'"

/-- An operation on two values. -/
def apply (shown : Shown) (op : BinaryOp) (v w : Value) : Outcome Value :=
  match v, w with
  | .undefined u, _ => missing u
  | .text s, w =>
    match op, w with
    | .mod, w => .text <$> fill shown s w
    | _, .undefined u => missing u
    | .add, w => join (.text s) w
    | .mul, w => multiply (.text s) w
    | op, w =>
      badType s!"unsupported operand type(s) for {op.text}: 'str' and '{w.typeName}'"
  | _, .undefined u => missing u
  | v, w =>
    match v.number?, w.number? with
    | some a, some b => numberApply op a b
    | _, _ =>
      match op with
      | .add => join v w
      | .mul => multiply v w
      | op =>
        badType
          s!"unsupported operand type(s) for {op.text}: '{v.typeName}' and '{w.typeName}'"

theorem apply_undefined (shown : Shown) (op : BinaryOp) (u : Undefined) (w : Value) :
    apply shown op (.undefined u) w = .error ⟨.undefined, u.message⟩ := by
  simp [apply, missing]

/-- The value with its sign changed. -/
def negate (v : Value) : Outcome Value :=
  match v with
  | .undefined u => missing u
  | .float x => .ok (.float x.neg)
  | _ =>
    match v.count? with
    | some n => .ok (.int (-n))
    | Option.none => badType s!"bad operand type for unary -: '{v.typeName}'"

/-- The value with its sign kept. -/
def affirm (v : Value) : Outcome Value :=
  match v with
  | .undefined u => missing u
  | .float x => .ok (.float x)
  | _ =>
    match v.count? with
    | some n => .ok (.int n)
    | Option.none => badType s!"bad operand type for unary +: '{v.typeName}'"

/-- A value that is no object holds another. -/
def contains (container v : Value) : Outcome Bool :=
  match container with
  | .undefined u => if u.isLenient then .ok false else missing u
  | .text s =>
    match v with
    | .text t => .ok (Text.contains t.toList s.toList)
    | _ => badType s!"'in <string>' requires string as left operand, not {v.typeName}"
  | .dict es => do
    checkKey v
    return (← find? es v).isSome
  | .view .keys es => do
    checkKey v
    return (← find? es v).isSome
  | c =>
    match c.items? with
    | some xs => memberOf v xs
    | Option.none => badType s!"argument of type '{c.typeName}' is not iterable"

/-- A comparison of two values. -/
def compare (op : CompareOp) (v w : Value) : Outcome Bool :=
  match op with
  | .eq => same v w
  | .ne => Bool.not <$> same v w
  | .lt => order .lt v w
  | .le => order .le v w
  | .gt => order .gt v w
  | .ge => order .ge v w
  | .isIn => contains w v
  | .notIn => Bool.not <$> contains w v

end Value

end Template

end Stencil
