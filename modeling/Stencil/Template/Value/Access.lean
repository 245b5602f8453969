import Stencil.Template.Value.Display

/-!
# Items and Attributes

What a value gives under a key.

A key in brackets is an item first and an attribute second, a name after a dot
the other way round. A key that gives nothing is no failure here: the result
is a value that does not exist, whose report names the key. Slices are the
exception; they take a part of a sequence or fail.

## Main definitions

* `Value.attribute?`: An attribute of a value that is no object.
* `Value.item?`: An item of a value that is no object.
* `Value.slice`: A part of a sequence.
* `sliceIndices`: The positions that a slice takes.
-/

namespace Stencil

namespace Template

namespace Value

/-- The attributes of texts, all of them methods. -/
def textMethods : List String :=
  ["capitalize", "casefold", "center", "count", "encode", "endswith", "expandtabs", "find",
    "format", "format_map", "index", "isalnum", "isalpha", "isascii", "isdecimal", "isdigit",
    "isidentifier", "islower", "isnumeric", "isprintable", "isspace", "istitle", "isupper",
    "join", "ljust", "lower", "lstrip", "maketrans", "partition", "removeprefix",
    "removesuffix", "replace", "rfind", "rindex", "rjust", "rpartition", "rsplit", "rstrip",
    "split", "splitlines", "startswith", "strip", "swapcase", "title", "translate", "upper",
    "zfill"]

/-- The attributes of lists. -/
def listMethods : List String :=
  ["append", "clear", "copy", "count", "extend", "index", "insert", "pop", "remove",
    "reverse", "sort"]

/-- The attributes of maps. -/
def mapMethods : List String :=
  ["clear", "copy", "fromkeys", "get", "items", "keys", "pop", "popitem", "setdefault",
    "update", "values"]

/-- The attributes of numbers that are methods. -/
def numberMethods : List String :=
  ["as_integer_ratio", "conjugate", "bit_length", "bit_count", "is_integer", "hex", "to_bytes"]

/-- A method of a value whose name is in a list. -/
def methodIn (names : List String) (v : Value) (name : String) : Option Value :=
  if names.contains name then some (.method v name) else Option.none

/-- An attribute of a day. -/
def dayAttribute? (d : Day) : String → Option Value
  | "year" => some (.int d.year)
  | "month" => some (.int d.month)
  | "day" => some (.int d.day)
  | _ => Option.none

/-- An attribute of a value that is no object. -/
def attribute? (v : Value) (name : String) : Option Value :=
  match v with
  | .text _ => methodIn textMethods v name
  | .list _ => methodIn listMethods v name
  | .tuple _ => methodIn ["count", "index"] v name
  | .dict _ => methodIn mapMethods v name
  | .int n =>
    if name == "real" || name == "numerator" then some (.int n)
    else if name == "imag" then some (.int 0)
    else if name == "denominator" then some (.int 1)
    else methodIn numberMethods v name
  | .bool b =>
    if name == "real" || name == "numerator" then some (.int (boolInt b))
    else if name == "imag" then some (.int 0)
    else if name == "denominator" then some (.int 1)
    else methodIn numberMethods v name
  | .float x =>
    if name == "real" then some (.float x)
    else if name == "imag" then some (.float .zero)
    else methodIn ["as_integer_ratio", "conjugate", "is_integer", "hex"] v name
  | .day d =>
    match dayAttribute? d name with
    | some w => some w
    | Option.none => methodIn ["isoformat", "weekday", "isoweekday", "toordinal"] v name
  | .moment t =>
    match dayAttribute? t.date name with
    | some w => some w
    | Option.none =>
      match name with
      | "hour" => some (.int t.hour)
      | "minute" => some (.int t.minute)
      | "second" => some (.int t.second)
      | "microsecond" => some (.int t.micro)
      | _ => methodIn ["isoformat", "weekday", "isoweekday", "toordinal", "date"] v name
  | .range a b s =>
    match name with
    | "start" => some (.int a)
    | "stop" => some (.int b)
    | "step" => some (.int s)
    | _ => methodIn ["count", "index"] v name
  | .view _ es => if name == "mapping" then some (.dict es) else methodIn ["isdisjoint"] v name
  | _ => Option.none

/-- The item at a position, counted from the end if it is negative. -/
def at? (xs : List Value) (i : Int) : Option Value :=
  if i ≥ 0 then xs[i.toNat]?
  else if (-i).toNat ≤ xs.length then xs[xs.length - (-i).toNat]?
  else Option.none

/-- The position that a value is. -/
def position? : Value → Option Int
  | .int n => some n
  | .bool b => some (boolInt b)
  | _ => Option.none

/-- An item of a value that is no object, if it has one under a key. -/
def item? (v key : Value) : Outcome (Option Value) :=
  match v, key with
  | .undefined u, _ => missing u
  | .dict es, .undefined u =>
    if u.isLenient then find? es (.undefined u) else missing u
  | .dict es, key =>
    -- What cannot be a key is under no key.
    match checkKey key with
    | .ok _ => find? es key
    | .error f => if f.kind == .badType then .ok Option.none else .error f
  | v, key =>
    match position? key with
    | Option.none => .ok Option.none
    | some i =>
      match v with
      | .text _ => .ok ((v.items?).bind (at? · i))
      | .bytes _ => .ok ((v.items?).bind (at? · i))
      | .list xs => .ok (at? xs i)
      | .tuple xs => .ok (at? xs i)
      | .range a b s =>
        let n := Int.ofNat (rangeLength a b s)
        let j := if i < 0 then i + n else i
        .ok (if 0 ≤ j && j < n then some (.int (a + s * j)) else Option.none)
      | _ => .ok Option.none

/-- A bound of a slice: nothing, or a whole number. -/
def sliceBound : Value → Outcome (Option Int)
  | .none => .ok Option.none
  | v =>
    match position? v with
    | some i => .ok (some i)
    | Option.none =>
      badType "slice indices must be integers or None or have an __index__ method"

/-- A bound counted from the end if it is negative, and cut to a range. -/
def clip (length low high i : Int) : Int :=
  let j := if i < 0 then i + length else i
  if j < low then low else if j > high then high else j

/-- The first position, the bound and the step of a slice of a sequence. -/
def sliceIndices (length : Nat) (start stop step : Option Int) : Int × Int × Int :=
  let n := Int.ofNat length
  let step := step.getD 1
  if step > 0 then
    ((start.map (clip n 0 n)).getD 0, (stop.map (clip n 0 n)).getD n, step)
  else
    ((start.map (clip n (-1) (n - 1))).getD (n - 1),
      (stop.map (clip n (-1) (n - 1))).getD (-1), step)

/-- The items of a list that a slice takes. -/
def sliceList {α : Type} (xs : List α) (start stop step : Option Int) : List α :=
  let (first, bound, step) := sliceIndices xs.length start stop step
  if step == 1 then (xs.drop first.toNat).take (bound - first).toNat
  else
    let array := xs.toArray
    (List.range (rangeLength first bound step)).filterMap fun (k : Nat) =>
      array[(first + step * Int.ofNat k).toNat]?

/-- A part of a sequence. -/
def slice (v start stop step : Value) : Outcome Value := do
  let bounds : Outcome (Option Int × Option Int × Option Int) := do
    let s ← sliceBound step
    if s == some 0 then badValue "slice step cannot be zero"
    else return (← sliceBound start, ← sliceBound stop, s)
  match v with
  | .undefined u => missing u
  | .text t =>
    let (a, b, s) ← bounds
    return .text (String.ofList (sliceList t.toList a b s))
  | .list xs =>
    let (a, b, s) ← bounds
    return .list (sliceList xs a b s)
  | .tuple xs =>
    let (a, b, s) ← bounds
    return .tuple (sliceList xs a b s)
  | .bytes bs =>
    let (a, b, s) ← bounds
    return .bytes (sliceList bs a b s)
  | .range a b s =>
    let (p, q, t) ← bounds
    let (first, bound, step) := sliceIndices (rangeLength a b s) p q t
    return .range (a + s * first) (a + s * bound) (s * step)
  | .dict _ => badType "unhashable type: 'slice'"
  | _ => badType s!"'{v.typeName}' object is not subscriptable"

end Value

end Template

end Stencil
