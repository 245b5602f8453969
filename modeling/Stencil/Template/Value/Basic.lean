import Stencil.Datum
import Stencil.Template.Failure
import Stencil.Template.Syntax

/-!
# Values

What templates compute with.

Plain data is joined by what only a render makes: values that do not exist,
tuples, ranges, views of maps, callables, and objects. An object is a kind and
a number; what it holds is kept in the store of the render, so that two
references to one object stay one.

A value that does not exist fails in nearly every use, with a report that was
fixed when it was looked up. A lenient one fails in fewer.

## Main definitions

* `Value`: A value.
* `Value.typeName`, `Value.objectName`: How reports name the type of a value.
* `Value.truth`: Whether a value holds.
* `Value.same`, `Value.less`: Equality and order.
* `Value.ofDatum`: Plain data as a value.
-/

namespace Stencil

namespace Template

/-- A value that does not exist. -/
structure Undefined where
  /-- The report of a use. -/
  message : String
  /-- It counts as an empty text where that makes sense. -/
  isLenient : Bool := false
  deriving DecidableEq, Repr

/-- The part of a map that a view shows. -/
inductive MapPart where
  | keys | values | items
  deriving DecidableEq, Repr

/-- The kinds of objects that a render makes. -/
inductive ObjectKind where
  /-- A macro. -/
  | routine
  /-- The exports and the text of a template. -/
  | module
  /-- Attributes that can be set. -/
  | space
  /-- The state of a loop. -/
  | loop
  /-- Items that can be drawn once. -/
  | stream
  /-- The blocks of the template that is rendered. -/
  | blocks
  /-- One block at one level of inheritance. -/
  | block
  /-- Items in turn. -/
  | cycler
  /-- A separator that is left out once. -/
  | joiner
  deriving DecidableEq, Repr

/-- The functions that every template can call. -/
inductive Builtin where
  | range | dict | space | cycler | joiner | lorem
  deriving DecidableEq, Repr

/-- A value. -/
inductive Value where
  /-- A value that does not exist. -/
  | undefined (u : Undefined)
  /-- Nothing. -/
  | none
  /-- A truth value. -/
  | bool (b : Bool)
  /-- A whole number. -/
  | int (n : Int)
  /-- A floating-point number. -/
  | float (x : Binary64)
  /-- A text. -/
  | text (s : String)
  /-- Bytes. -/
  | bytes (bs : List UInt8)
  /-- A day. -/
  | day (d : Day)
  /-- A moment. -/
  | moment (t : Moment)
  /-- A list. -/
  | list (xs : List Value)
  /-- A tuple. -/
  | tuple (xs : List Value)
  /-- A map, its entries in order. -/
  | dict (es : List (Value × Value))
  /-- The numbers from a first one up or down to a bound, in steps. -/
  | range (start stop step : Int)
  /-- A view of a map. -/
  | view (part : MapPart) (es : List (Value × Value))
  /-- An object. -/
  | object (kind : ObjectKind) (id : Nat)
  /-- A method together with the value it belongs to. -/
  | method (receiver : Value) (name : String)
  /-- A function. -/
  | builtin (f : Builtin)

namespace Value

instance : Inhabited Value := ⟨.none⟩

mutual
/-- Plain data as a value. -/
def ofDatum : Datum → Value
  | .null => .none
  | .bool b => .bool b
  | .int n => .int n
  | .float x => .float x
  | .text s => .text s
  | .bytes bs => .bytes bs
  | .day d => .day d
  | .moment t => .moment t
  | .list xs => .list (ofData xs)
  | .map es => .dict (ofEntries es)

/-- Plain data as values. -/
def ofData : List Datum → List Value
  | [] => []
  | x :: xs => ofDatum x :: ofData xs

/-- The entries of plain data as those of a map. -/
def ofEntries : List (Datum × Datum) → List (Value × Value)
  | [] => []
  | (k, v) :: es => (ofDatum k, ofDatum v) :: ofEntries es
end

/-- The value of a constant. -/
def ofConstant : Constant → Value
  | .none => .none
  | .bool b => .bool b
  | .int n => .int n
  | .float x => .float x
  | .text s => .text s

/-- The type of a view. -/
def viewName : MapPart → String
  | .keys => "dict_keys"
  | .values => "dict_values"
  | .items => "dict_items"

/-- The type of an object. -/
def kindName : ObjectKind → String
  | .routine => "Macro"
  | .module => "TemplateModule"
  | .space => "Namespace"
  | .loop => "LoopContext"
  | .stream => "generator"
  | .blocks => "TemplateReference"
  | .block => "BlockReference"
  | .cycler => "Cycler"
  | .joiner => "Joiner"

/-- The module that the type of an object belongs to, with a dot. -/
def kindHome : ObjectKind → String
  | .routine => "jinja2.runtime."
  | .module => "jinja2.environment."
  | .space => "jinja2.utils."
  | .loop => "jinja2.runtime."
  | .stream => ""
  | .blocks => "jinja2.runtime."
  | .block => "jinja2.runtime."
  | .cycler => "jinja2.utils."
  | .joiner => "jinja2.utils."

/-- The name of the type of a value. -/
def typeName : Value → String
  | .undefined u => if u.isLenient then "Undefined" else "StrictUndefined"
  | .none => "NoneType"
  | .bool _ => "bool"
  | .int _ => "int"
  | .float _ => "float"
  | .text _ => "str"
  | .bytes _ => "bytes"
  | .day _ => "datetime.date"
  | .moment _ => "datetime.datetime"
  | .list _ => "list"
  | .tuple _ => "tuple"
  | .dict _ => "dict"
  | .range _ _ _ => "range"
  | .view part _ => viewName part
  | .object kind _ => kindName kind
  | .method _ _ => "builtin_function_or_method"
  | .builtin .lorem => "function"
  | .builtin _ => "type"

/-- How the report of a missing attribute names a value. -/
def objectName : Value → String
  | .none => "None"
  | .object kind _ => kindHome kind ++ kindName kind ++ " object"
  | v => v.typeName ++ " object"

/-- The failure that using a value that does not exist is. -/
def missing {α : Type} (u : Undefined) : Outcome α :=
  .error ⟨.undefined, u.message⟩

/-- The report of an attribute or item that a value does not have. -/
def lacks (v : Value) (key : Value) (shown : String) : Value :=
  match key with
  | .text s =>
    .undefined { message := s!"{Text.quoted v.objectName} has no attribute {Text.quoted s}" }
  | _ => .undefined { message := s!"{v.objectName} has no element {shown}" }

/-- How many numbers a range has. -/
def rangeLength (start stop step : Int) : Nat :=
  if step > 0 then
    if start < stop then ((stop - start - 1) / step + 1).toNat else 0
  else if step < 0 then
    if stop < start then ((start - stop - 1) / (-step) + 1).toNat else 0
  else 0

/-- The numbers of a range. -/
def rangeItems (start step : Int) (count : Nat) : List Value :=
  (List.range count).map fun (i : Nat) => .int (start + step * Int.ofNat i)

/-- The items of a view. -/
def viewItems (part : MapPart) (es : List (Value × Value)) : List Value :=
  match part with
  | .keys => es.map Prod.fst
  | .values => es.map Prod.snd
  | .items => es.map fun e => .tuple [e.1, e.2]

/-- The characters of a text, each as a text. -/
def characters (s : String) : List Value :=
  s.toList.map fun c => .text (String.singleton c)

/-- The items of a value that is no object, if it has any. -/
def items? : Value → Option (List Value)
  | .undefined u => if u.isLenient then some [] else Option.none
  | .text s => some (characters s)
  | .bytes bs => some (bs.map fun b => .int b.toNat)
  | .list xs => some xs
  | .tuple xs => some xs
  | .dict es => some (es.map Prod.fst)
  | .range a b s => some (rangeItems a s (rangeLength a b s))
  | .view part es => some (viewItems part es)
  | _ => Option.none

/-- The items of a value that is no object. -/
def items : Value → Outcome (List Value)
  | .undefined u => if u.isLenient then .ok [] else missing u
  | v =>
    match v.items? with
    | some xs => .ok xs
    | Option.none => badType s!"{Text.quoted v.typeName} object is not iterable"

/-- The value holds. -/
def truth : Value → Outcome Bool
  | .undefined u => if u.isLenient then .ok false else missing u
  | .none => .ok false
  | .bool b => .ok b
  | .int n => .ok (n != 0)
  | .float x => .ok (!x.isZero)
  | .text s => .ok (!s.isEmpty)
  | .bytes bs => .ok (!bs.isEmpty)
  | .list xs => .ok (!xs.isEmpty)
  | .tuple xs => .ok (!xs.isEmpty)
  | .dict es => .ok (!es.isEmpty)
  | .range a b s => .ok (rangeLength a b s != 0)
  | .view _ es => .ok (!es.isEmpty)
  | _ => .ok true

/-- The number that a value is, as a whole number or a floating-point one. -/
def number? : Value → Option (Int ⊕ Binary64)
  | .bool b => some (.inl (boolInt b))
  | .int n => some (.inl n)
  | .float x => some (.inr x)
  | _ => Option.none

/-- Equality of numbers. -/
def sameNumbers : Int ⊕ Binary64 → Int ⊕ Binary64 → Bool
  | .inl a, .inl b => a == b
  | .inl a, .inr x => sameNumber a x
  | .inr x, .inl a => sameNumber a x
  | .inr x, .inr y => x.eq y

/-- Equality of values that hold no others. -/
def sameAtom : Value → Value → Bool
  | .none, .none => true
  | .text a, .text b => a == b
  | .bytes a, .bytes b => a == b
  | .day a, .day b => a == b
  | .moment a, .moment b =>
    a.offset.isSome == b.offset.isSome && a.seconds == b.seconds && a.micro == b.micro
  -- Ranges are the same if they hold the same numbers.
  | .range a b s, .range a' b' s' =>
    let n := rangeLength a b s
    n == rangeLength a' b' s' && (n == 0 || (a == a' && (n == 1 || s == s')))
  | .object k i, .object k' i' => k == k' && i == i'
  | .builtin f, .builtin g => f == g
  | v, w =>
    match v.number?, w.number? with
    | some a, some b => sameNumbers a b
    | _, _ => false

mutual
/-- Equality. A value that does not exist cannot be compared. -/
def same : Value → Value → Outcome Bool
  | .undefined u, w =>
    if u.isLenient then
      match w with
      | .undefined u' => if u'.isLenient then .ok true else missing u'
      | _ => .ok false
    else missing u
  | .list xs, w =>
    match w with
    | .undefined u => if u.isLenient then .ok false else missing u
    | .list ys => sameItems xs ys
    | _ => .ok false
  | .tuple xs, w =>
    match w with
    | .undefined u => if u.isLenient then .ok false else missing u
    | .tuple ys => sameItems xs ys
    | _ => .ok false
  | .dict es, w =>
    match w with
    | .undefined u => if u.isLenient then .ok false else missing u
    | .dict fs => if es.length == fs.length then within es fs else .ok false
    | _ => .ok false
  | .method v name, w =>
    match w with
    | .method v' name' => if name == name' then same v v' else .ok false
    | _ => .ok false
  | v, w =>
    match w with
    | .undefined u => if u.isLenient then .ok false else missing u
    | _ => .ok (sameAtom v w)

/-- Equality of items, one by one. -/
def sameItems : List Value → List Value → Outcome Bool
  | [], [] => .ok true
  | x :: xs, y :: ys => do
    if ← same x y then sameItems xs ys else .ok false
  | _, _ => .ok false

/-- The first map's entries are entries of the second. -/
def within : List (Value × Value) → List (Value × Value) → Outcome Bool
  | [], _ => .ok true
  | (k, v) :: es, fs => do
    if ← holds k v fs then within es fs else .ok false

/-- A map has an entry. -/
def holds (k v : Value) : List (Value × Value) → Outcome Bool
  | [] => .ok false
  | (k', v') :: fs => do
    if ← same k k' then same v v' else holds k v fs
end

/-- The value can be a key of a map. -/
def checkKey : Value → Outcome Unit
  | .undefined u => if u.isLenient then .ok () else missing u
  | .list _ => badType "unhashable type: 'list'"
  | .dict _ => badType "unhashable type: 'dict'"
  | .tuple xs =>
    match xs.find? fun x => match x with
      | .list _ => true
      | .dict _ => true
      | _ => false with
    | some x => badType s!"unhashable type: {Text.quoted x.typeName}"
    | Option.none => .ok ()
  | _ => .ok ()

/-- The value under a key of a map. -/
def find? (es : List (Value × Value)) (key : Value) : Outcome (Option Value) :=
  match es with
  | [] => .ok Option.none
  | (k, v) :: rest => do
    if ← same k key then .ok (some v) else find? rest key

/-- The value under a text key of a map. -/
def findText? (es : List (Value × Value)) (key : String) : Option Value :=
  (es.find? fun e => match e.1 with
    | .text s => s == key
    | _ => false).map Prod.snd

/-- A map with a value under a key: an entry that exists keeps its place and
its key. -/
def insert (key value : Value) : List (Value × Value) → Outcome (List (Value × Value))
  | [] => .ok [(key, value)]
  | (k, v) :: es => do
    if ← same k key then .ok ((k, value) :: es) else ((k, v) :: ·) <$> insert key value es

/-- The map with entries written into it one by one. -/
def insertAll (es : List (Value × Value)) : List (Value × Value) → Outcome (List (Value × Value))
  | [] => .ok es
  | (k, v) :: fs => do
    checkKey k
    insertAll (← insert k v es) fs

/-- The value is among some items. -/
def memberOf (v : Value) : List Value → Outcome Bool
  | [] => .ok false
  | x :: xs => do
    if ← same x v then .ok true else memberOf v xs

/-- Order of numbers. -/
def lessNumbers : Int ⊕ Binary64 → Int ⊕ Binary64 → Bool
  | .inl a, .inl b => a < b
  | .inl a, .inr x =>
    if x.isFinite then (let (n, d) := x.ratio; a * Int.ofNat d < n)
    else x.isInfinite && !x.isNegative
  | .inr x, .inl a =>
    if x.isFinite then (let (n, d) := x.ratio; n < a * Int.ofNat d)
    else x.isInfinite && x.isNegative
  | .inr x, .inr y => x.lt y

/-- A comparison by order. -/
inductive OrderOp where
  | lt | le | gt | ge
  deriving DecidableEq, Repr

/-- The spelling of a comparison by order. -/
def OrderOp.text : OrderOp → String
  | .lt => "<"
  | .le => "<="
  | .gt => ">"
  | .ge => ">="

/-- A comparison of two things by their order and their equality. -/
def OrderOp.decide {α : Type} (op : OrderOp) (less same : α → α → Bool) (a b : α) : Bool :=
  match op with
  | .lt => less a b
  | .le => less a b || same a b
  | .gt => less b a
  | .ge => less b a || same a b

/-- A comparison of two lengths. -/
def OrderOp.lengths (op : OrderOp) (a b : Nat) : Bool :=
  op.decide (fun x y => x < y) (· == ·) a b

/-- Comparison of values that hold no others, if they have an order. -/
def orderAtoms? (op : OrderOp) : Value → Value → Option Bool
  | .text a, .text b => some (op.decide (fun x y => x < y) (· == ·) a b)
  | .bytes a, .bytes b => some (op.decide (fun x y => x < y) (· == ·) a b)
  | .day a, .day b => some (op.decide (fun x y => x < y) (· == ·) a.ordinal b.ordinal)
  | .moment a, .moment b =>
    if a.offset.isSome == b.offset.isSome then
      let key (t : Moment) := t.seconds * 1000000 + Int.ofNat t.micro
      some (op.decide (fun x y => x < y) (· == ·) (key a) (key b))
    else Option.none
  | v, w =>
    match v.number?, w.number? with
    | some a, some b => some (op.decide lessNumbers sameNumbers a b)
    | _, _ => Option.none

/-- The failure of values without an order. -/
def unordered {α : Type} (op : OrderOp) (v w : Value) : Outcome α :=
  match v, w with
  | .undefined u, _ => missing u
  | _, .undefined u => missing u
  | _, _ =>
    badType
      s!"'{op.text}' not supported between instances of '{v.typeName}' and '{w.typeName}'"

mutual
/-- Comparison by order. -/
def order (op : OrderOp) : Value → Value → Outcome Bool
  | .list xs, w =>
    match w with
    | .list ys => orderItems op xs ys
    | _ => unordered op (.list xs) w
  | .tuple xs, w =>
    match w with
    | .tuple ys => orderItems op xs ys
    | _ => unordered op (.tuple xs) w
  | v, w =>
    match orderAtoms? op v w with
    | some b => .ok b
    | Option.none => unordered op v w

/-- Comparison of items: the first ones that differ decide, then the lengths. -/
def orderItems (op : OrderOp) : List Value → List Value → Outcome Bool
  | x :: xs, y :: ys => do
    if ← same x y then orderItems op xs ys else order op x y
  | [], ys => .ok (op.lengths 0 ys.length)
  | _ :: xs, [] => .ok (op.lengths (xs.length + 1) 0)
end

end Value

end Template

end Stencil
