import Stencil.Template.Store

/-!
# Order and Attributes

Sorting values, and getting at what is inside them.

Comparing two values can fail, and which pair is compared first decides the
report. Sorting is therefore fixed to one scheme: the run that the list starts
with is found first, and every further value is put in its place by halving.

## Main definitions

* `sortBy`: A list sorted by a comparison that can fail.
* `attributeParts`, `follow`: The way to something inside a value, and going
  it.
* `foldCase`: The value that stands for a text in comparisons without case.
-/

namespace Stencil

namespace Template

/-- A comparison that can fail. -/
abbrev Less (α : Type) := α → α → Outcome Bool

/-- The values that go on descending from a first one, and the rest. -/
def descending {α : Type} (less : Less α) (last : α) : List α → Outcome (List α × List α)
  | [] => .ok ([], [])
  | x :: xs => do
    if ← less x last then
      let (run, rest) ← descending less x xs
      return (x :: run, rest)
    else return ([], x :: xs)

/-- The values that go on ascending from a first one, and the rest. -/
def ascending {α : Type} (less : Less α) (last : α) : List α → Outcome (List α × List α)
  | [] => .ok ([], [])
  | x :: xs => do
    if ← less x last then return ([], x :: xs)
    else
      let (run, rest) ← ascending less x xs
      return (x :: run, rest)

/-- Where a value belongs among sorted ones, between two positions; the count
bounds the halvings. -/
def placeFor {α : Type} [Inhabited α] (less : Less α) (x : α) (sorted : Array α) :
    Nat → Nat → Nat → Outcome Nat
  | 0, low, _ => .ok low
  | n + 1, low, high =>
    if low < high then do
      let middle := low + (high - low) / 2
      if ← less x ((sorted[middle]?).getD default) then placeFor less x sorted n low middle
      else placeFor less x sorted n (middle + 1) high
    else .ok low

/-- Sorted values with others put in their places one by one. -/
def insertEach {α : Type} [Inhabited α] (less : Less α) (sorted : Array α) :
    List α → Outcome (Array α)
  | [] => .ok sorted
  | x :: xs => do
    let i ← placeFor less x sorted (sorted.size + 1) 0 sorted.size
    insertEach less (sorted.insertIdxIfInBounds i x) xs

/-- A list sorted by a comparison that can fail; equal values keep their
order. -/
def sortBy {α : Type} [Inhabited α] (less : Less α) (xs : List α) : Outcome (List α) :=
  match xs with
  | [] => .ok []
  | [x] => .ok [x]
  | x :: y :: rest => do
    if ← less y x then
      let (run, others) ← descending less y rest
      return (← insertEach less (x :: y :: run).reverse.toArray others).toList
    else
      let (run, others) ← ascending less y rest
      return (← insertEach less (x :: y :: run).toArray others).toList

/-- A list sorted, in reverse if that is wanted; equal values keep their order
either way. -/
def sortTo {α : Type} [Inhabited α] (reverse : Bool) (less : Less α) (xs : List α) :
    Outcome (List α) := do
  if reverse then return (← sortBy less xs.reverse).reverse else sortBy less xs

/-- The value that stands for a text in comparisons without case. -/
def foldCase (v : Value) : Value :=
  match v with
  | .text s => .text (Text.toLower s)
  | v => v

/-- One part of the way to something inside a value: a number is a position. -/
def attributePart (s : String) : Value :=
  let cs := s.toList
  if !cs.isEmpty && cs.all Text.isDecimal then
    .int (Int.ofNat (cs.foldl (fun n c => 10 * n + (Text.decimalValue? c).getD 0) 0))
  else .text s

/-- The way to something inside a value. -/
def attributeParts (v : Value) : Outcome (List Value) :=
  match v with
  | .none => .ok []
  | .int n => .ok [.int n]
  | .text s => .ok ((Text.splitOnChar '.' s).map attributePart)
  | .undefined u => Value.missing u
  | v => .error ⟨.badAttribute, s!"'{v.typeName}' object has no attribute 'split'"⟩

/-- What is inside a value at the end of a way; a default stands in for what
does not exist. -/
def follow (default : Value) : List Value → Value → Run Value
  | [], v => return v
  | part :: rest, v => do
    let w ← Run.item v part
    let w := match w, default with
      | .undefined u, .none => .undefined u
      | .undefined _, d => d
      | w, _ => w
    follow default rest w

/-- What is inside each of several values. -/
def followAll (default : Value) (parts : List Value) (xs : List Value) : Run (List Value) :=
  xs.mapM (follow default parts)

end Template

end Stencil
