import Stencil.Calendar

/-!
# Data

The plain data that configurations hold and that templates are rendered with.

A value is nothing, a truth value, a number, a text, bytes, a day, a moment, a
list or a map. A map keeps its entries in the order in which their keys first
came, and any value can be a key.

Equality is that of the data model, not of the representation: the two truth
values equal one and zero, a whole number equals its floating-point form, and
maps are equal when they hold the same entries in any order.

## Main definitions

* `Datum`: A value.
* `Datum.same`: Equality in the data model.
* `Datum.Entries.find?`, `Datum.Entries.insert`: Reading and writing a map.
* `Datum.isHashable`: The value can be a key.

## Theorems

* `Datum.Entries.keys_insert_of_find?`: Writing an entry that exists keeps the
  order of the keys.
-/

namespace Stencil

/-- A value. -/
inductive Datum where
  /-- Nothing. -/
  | null
  /-- A truth value. -/
  | bool (b : Bool)
  /-- A whole number. -/
  | int (n : Int)
  /-- A floating-point number. -/
  | float (x : Binary64)
  /-- A text. -/
  | text (s : String)
  /-- Bytes. -/
  | bytes (bs : List UInt8)
  /-- A day. -/
  | day (d : Day)
  /-- A moment. -/
  | moment (t : Moment)
  /-- A list. -/
  | list (xs : List Datum)
  /-- A map, its entries in order. -/
  | map (entries : List (Datum × Datum))
  deriving Inhabited, Repr

/-- The value of a truth value as a number. -/
def boolInt (b : Bool) : Int :=
  if b then 1 else 0

/-- Equality of a whole number and a floating-point one. -/
def sameNumber (n : Int) (x : Binary64) : Bool :=
  x.isFinite && (let (a, d) := x.ratio; a == n * d)

namespace Datum

mutual
/-- Equality in the data model. -/
def same : Datum → Datum → Bool
  | .null, .null => true
  | .bool a, .bool b => a == b
  | .bool a, .int n => boolInt a == n
  | .int n, .bool a => boolInt a == n
  | .bool a, .float x => sameNumber (boolInt a) x
  | .float x, .bool a => sameNumber (boolInt a) x
  | .int a, .int b => a == b
  | .int n, .float x => sameNumber n x
  | .float x, .int n => sameNumber n x
  | .float x, .float y => x.eq y
  | .text a, .text b => a == b
  | .bytes a, .bytes b => a == b
  | .day a, .day b => a == b
  | .moment a, .moment b =>
    a.offset.isSome == b.offset.isSome && a.seconds == b.seconds && a.micro == b.micro
  | .list xs, .list ys => sameList xs ys
  | .map es, .map fs => es.length == fs.length && within es fs
  | _, _ => false

/-- Equality of lists, item by item. -/
def sameList : List Datum → List Datum → Bool
  | [], [] => true
  | x :: xs, y :: ys => same x y && sameList xs ys
  | _, _ => false

/-- Every entry of the first map is an entry of the second. -/
def within : List (Datum × Datum) → List (Datum × Datum) → Bool
  | [], _ => true
  | (k, v) :: es, fs => fs.any (fun f => same k f.1 && same v f.2) && within es fs
end

/-- The entries of a map, in order. -/
abbrev Entries := List (Datum × Datum)

/-- The value under a key. -/
def Entries.find? (es : Entries) (key : Datum) : Option Datum :=
  (List.find? (fun e => same e.1 key) es).map Prod.snd

/-- The map with a value under a key: an entry that exists keeps its place and
its key, a new one comes last. -/
def Entries.insert (key value : Datum) : Entries → Entries
  | [] => [(key, value)]
  | (k, v) :: es => if same k key then (k, value) :: es else (k, v) :: Entries.insert key value es

/-- The map without a key. -/
def Entries.erase (es : Entries) (key : Datum) : Entries :=
  es.filter fun e => !same e.1 key

/-- The map with the entries of another written into it, one by one. -/
def Entries.update (es fs : Entries) : Entries :=
  fs.foldl (fun es f => Entries.insert f.1 f.2 es) es

theorem Entries.keys_insert_of_find? {es : Entries} {key v : Datum}
    (h : Entries.find? es key = some v) (value : Datum) :
    (Entries.insert key value es).map Prod.fst = es.map Prod.fst := by
  induction es with
  | nil => simp [Entries.find?] at h
  | cons e es ih =>
    obtain ⟨k, u⟩ := e
    by_cases hk : same k key = true
    · simp [Entries.insert, hk]
    · simp only [Entries.find?, List.find?_cons, hk] at h
      simp [Entries.insert, hk, ih h]

/-- The text of a value that is one. -/
def text? : Datum → Option String
  | .text s => some s
  | _ => none

/-- The value can be a key: it is neither a list nor a map. -/
def isHashable : Datum → Bool
  | .list _ => false
  | .map _ => false
  | _ => true

/-- The value under a text key of a map. -/
def get? : Datum → String → Option Datum
  | .map es, key => Entries.find? es (.text key)
  | _, _ => none

end Datum

end Stencil
