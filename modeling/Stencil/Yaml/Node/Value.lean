import Stencil.Datum
import Stencil.Number.Numeral
import Stencil.Text.Case
import Stencil.Yaml.Node.Basic

/-!
# The Values of Nodes

Plain data from nodes.

Which fault of several is found is decided by levels: what the outermost node
holds directly comes first, then what the collections in it hold, and so on.
The texts that a collection holds are read when the collection is.

## Main definitions

* `Node.scalarValue`: The value of a text.
* `Node.entries`: The entries of a map, merged ones included.
* `Node.value`: The value of a node.
* `load`: The value of the only document of a text.
-/

namespace Stencil

namespace Yaml

/-- A result, or a fault. -/
abbrev Result (α : Type) := Except Fault α

/-- A node cannot be what its tag says. -/
def notBuilt {α : Type} : Result α :=
  .error .construction

/-- The text without underscores. -/
def dropBars (cs : List Char) : List Char :=
  cs.filter (· != '_')

/-- A numeral in a base. -/
def wholeIn (base : Nat) (cs : List Char) : Result Int :=
  match Numeral.whole? base (String.ofList cs) with
  | some n => .ok n
  | none => .error .badValue

/-- The value of numerals that count sixtieths. -/
def sexagesimal (parts : List Int) : Int :=
  parts.foldl (fun n d => 60 * n + d) 0

/-- The size of a whole number. -/
def wholeSize (cs : List Char) : Result Int :=
  match cs with
  | ['0'] => .ok 0
  | '0' :: 'b' :: ds => wholeIn 2 ds
  | '0' :: 'x' :: ds => wholeIn 16 ds
  | '0' :: ds => wholeIn 8 ('0' :: ds)
  | cs =>
    if cs.contains ':' then do
      let parts ← (Text.splitChars ':' [] cs).mapM (wholeIn 10)
      return sexagesimal parts
    else wholeIn 10 cs

/-- A whole number. -/
def wholeValue (s : String) : Result Datum :=
  match dropBars s.toList with
  | [] => .error .emptyValue
  | '-' :: cs =>
    if cs.isEmpty then .error .emptyValue else do return .int (-(← wholeSize cs))
  | cs =>
    let ds := dropSign cs
    if ds.isEmpty then .error .emptyValue else do return .int (← wholeSize ds)

/-- A numeral with a point. -/
def floatOf (cs : List Char) : Result Binary64 :=
  match Numeral.float? (String.ofList cs) with
  | some x => .ok x
  | none => .error .badValue

/-- The value of numerals that count sixtieths, from the last one on. -/
def sexagesimalFloat (total base : Binary64) : List Binary64 → Binary64
  | [] => total
  | d :: ds => sexagesimalFloat (total.add (d.mul base)) (base.mul (.ofInt 60)) ds

/-- The size of a number with a point. -/
def floatSize (cs : List Char) : Result Binary64 :=
  if cs == ".inf".toList then .ok .infinity
  else if cs == ".nan".toList then .ok .nan
  else if cs.contains ':' then do
    let parts ← (Text.splitChars ':' [] cs).mapM floatOf
    return sexagesimalFloat .zero (.ofInt 1) parts.reverse
  else floatOf cs

/-- A number with a point. -/
def floatValue (s : String) : Result Datum :=
  match (dropBars s.toList).map Char.toLower with
  | [] => .error .emptyValue
  | '-' :: cs => do return .float (← floatSize cs).neg
  | cs => do return .float (← floatSize (dropSign cs))

/-- A truth value. -/
def boolValue (s : String) : Result Datum :=
  match (boolWords.lookup (Text.toLower s)) with
  | some b => .ok (.bool b)
  | none => .error .badWord

/-- The millionths of a second that the digits of a fraction are. -/
def microOf (digits : List Char) : Nat :=
  let six := (digits ++ List.replicate 6 '0').take 6
  Timestamp.value six

/-- The offset of a clock in seconds; it is less than a day. -/
def offsetSeconds (offset : Bool × Nat × Nat) : Result Int :=
  let (isBehind, hours, minutes) := offset
  let seconds := Int.ofNat (3600 * hours + 60 * minutes)
  if seconds < 86400 then .ok (if isBehind then -seconds else seconds)
  else .error .badValue

/-- A day or a moment. -/
def timestampValue (s : String) : Result Datum :=
  match Timestamp.ofChars? s.toList with
  | none => .error .badForm
  | some t => do
    let offset ← match t.offset with
      | none => pure none
      | some o => some <$> offsetSeconds o
    match Day.of? t.year t.month t.day, t.clock with
    | none, _ => .error .badValue
    | some d, none => return .day d
    | some d, some (hour, minute, second) =>
      match Moment.of? d hour minute second (microOf t.fraction) offset with
      | some m => return .moment m
      | none => .error .badValue

/-- The value of a digit in base 64. -/
def sextet? (c : Char) : Option Nat :=
  if 'A' ≤ c && c ≤ 'Z' then some (c.toNat - 65)
  else if 'a' ≤ c && c ≤ 'z' then some (c.toNat - 71)
  else if c.isDigit then some (c.toNat + 4)
  else if c == '+' then some 62
  else if c == '/' then some 63
  else none

/-- The bytes of digits in base 64. `held` is what was read of the current
group of four and `count` how many digits that is; `pads` counts equals signs
in a row. Other characters are passed over. -/
def bytesFrom (held count pads : Nat) : List Char → Result (List UInt8)
  | [] => if count == 0 then .ok [] else notBuilt
  | c :: cs =>
    if c == '=' then
      if count ≥ 2 && count + pads + 1 ≥ 4 then .ok []
      else bytesFrom held count (pads + (if count ≥ 2 then 1 else 0)) cs
    else
      match sextet? c with
      | none => bytesFrom held count pads cs
      | some d =>
        match count with
        | 0 => bytesFrom d 1 0 cs
        | 1 => do
          let more ← bytesFrom (d % 16) 2 0 cs
          return UInt8.ofNat (held * 4 + d / 16) :: more
        | 2 => do
          let more ← bytesFrom (d % 4) 3 0 cs
          return UInt8.ofNat (held * 16 + d / 4) :: more
        | _ => do
          let more ← bytesFrom 0 0 0 cs
          return UInt8.ofNat (held * 64 + d) :: more

/-- Bytes in base 64. -/
def binaryValue (s : String) : Result Datum :=
  if s.toList.all fun c => c.toNat < 128 then do return .bytes (← bytesFrom 0 0 0 s.toList)
  else notBuilt

namespace Node

/-- The type of a node. -/
def tag : Node → Tag
  | .scalar t _ => t
  | .list t _ => t
  | .map t _ => t
  | .loop => .other ""

/-- The entry of a map whose key says that its value stands for the map. -/
def standIn? : List (Node × Node) → Option Node
  | [] => none
  | (k, v) :: es => if k.tag == .standIn then some v else standIn? es

/-- The text that a node is, or that an entry of it stands for; the count bounds
how far such entries lead on. -/
def textFrom : Nat → Node → Result String
  | 0, _ => notBuilt
  | n + 1, node =>
    match node with
    | .scalar _ s => .ok s
    | .map _ es =>
      match standIn? es with
      | some v => textFrom n v
      | none => notBuilt
    | _ => notBuilt

/-- The text that a node is. -/
def text (node : Node) : Result String :=
  textFrom 100 node

/-- The type is one of collections. -/
def isCollectionTag : Tag → Bool
  | .list => true
  | .map => true
  | .orderedMap => true
  | .pairs => true
  | .set => true
  | _ => false

/-- The value of a node whose type is none of collections. -/
def scalarValue (node : Node) : Result Datum := do
  match node.tag with
  | .null =>
    let _ ← node.text
    return .null
  | .bool => boolValue (← node.text)
  | .int => wholeValue (← node.text)
  | .float => floatValue (← node.text)
  | .binary => binaryValue (← node.text)
  | .timestamp => timestampValue (← node.text)
  | .text => return .text (← node.text)
  | _ => notBuilt

/-- The key as it is read in a map: one that stands in for its map is a text. -/
def asKey : Node → Node
  | .scalar .standIn s => .scalar .text s
  | k => k

mutual
/-- The entries of a map, those of maps that are merged into it first; the count
bounds how deep merges are nested. -/
def merged : Nat → List (Node × Node) → Result (List (Node × Node))
  | 0, _ => notBuilt
  | n + 1, es => do
    let (own, extra) ← splitMerges n es
    return extra ++ own

/-- The entries of a map, and those of the maps that are merged into it. -/
def splitMerges (n : Nat) :
    List (Node × Node) → Result (List (Node × Node) × List (Node × Node))
  | [] => .ok ([], [])
  | (k, v) :: es =>
    if k.tag == .merge then do
      let here ← match v with
        | .map _ fs => merged n fs
        -- What is in an earlier map wins, so it comes later.
        | .list _ items => (fun groups => groups.reverse.flatten) <$> mergedAll n items
        | _ => notBuilt
      let (own, extra) ← splitMerges n es
      return (own, here ++ extra)
    else do
      let (own, extra) ← splitMerges n es
      return ((asKey k, v) :: own, extra)

/-- The entries of each of several maps. -/
def mergedAll (n : Nat) : List Node → Result (List (List (Node × Node)))
  | [] => .ok []
  | .map _ fs :: items => do
    let first ← merged n fs
    return first :: (← mergedAll n items)
  | _ => notBuilt
end

/-- How deep merges may be nested. -/
def mergeDepth : Nat := 200

/-- The entries of a map, merged ones included. -/
def entries (node : Node) : Result (List (Node × Node)) :=
  match node with
  | .map _ es => merged mergeDepth es
  | _ => notBuilt

/-- The items of a sequence. -/
def items (node : Node) : Result (List Node) :=
  match node with
  | .list _ xs => .ok xs
  | _ => notBuilt

/-- The key and the value of a map of one entry. -/
def single : Node → Result (Node × Node)
  | .map _ [e] => .ok e
  | _ => notBuilt

/-- Checks a node that a collection holds: a collection is left for later. -/
def checkPart (node : Node) : Result (List Node) :=
  if isCollectionTag node.tag then .ok [node] else (fun _ => []) <$> node.scalarValue

/-- Checks nodes in order, and gives the collections among them. -/
def checkParts : List Node → Result (List Node)
  | [] => .ok []
  | n :: ns => do
    let first ← checkPart n
    return first ++ (← checkParts ns)

/-- Checks entries in order: a key is no collection. -/
def checkEntries : List (Node × Node) → Result (List Node)
  | [] => .ok []
  | (k, v) :: es => do
    let later ← checkPart k
    if !later.isEmpty then notBuilt
    else
      let first ← checkPart v
      return first ++ (← checkEntries es)

/-- Checks what a collection holds directly, and gives the collections in it. -/
def checkInside (node : Node) : Result (List Node) := do
  match node.tag with
  | .list => checkParts (← node.items)
  | .map => checkEntries (← node.entries)
  | .set => checkEntries (← node.entries)
  | _ =>
    let pairs ← (← node.items).mapM single
    checkParts (pairs.flatMap fun p => [p.1, p.2])

/-- Checks collections one after the other, and gives the collections in them. -/
def checkAllInside : List Node → Result (List Node)
  | [] => .ok []
  | n :: ns => do
    let first ← checkInside n
    return first ++ (← checkAllInside ns)

/-- Checks collections level by level; the count bounds the levels. -/
def checkLevels : Nat → List Node → Result Unit
  | 0, _ => notBuilt
  | _ + 1, [] => .ok ()
  | n + 1, level => do checkLevels n (← checkAllInside level)

/-- Keys and values of a map written into it one by one. -/
def ofPairs (es : List (Datum × Datum)) : Datum :=
  .map (Datum.Entries.update [] es)

/-- The value of a node whose parts can all be read; the count bounds how deep
it is nested. -/
def build : Nat → Node → Result Datum
  | 0, _ => notBuilt
  | n + 1, node => do
    let pair (p : Node × Node) : Result (Datum × Datum) := do
      let k ← build n p.1
      return (k, ← build n p.2)
    match node.tag with
    | .list => return .list (← (← node.items).mapM (build n))
    | .map => return ofPairs (← (← node.entries).mapM pair)
    | .set =>
      let es ← (← node.entries).mapM pair
      return ofPairs (es.map fun e => (e.1, .null))
    | .orderedMap =>
      let ps ← (← (← node.items).mapM single).mapM pair
      return .list (ps.map fun p => .list [p.1, p.2])
    | .pairs =>
      let ps ← (← (← node.items).mapM single).mapM pair
      return .list (ps.map fun p => .list [p.1, p.2])
    | _ => node.scalarValue

mutual
/-- How deep a node is nested. -/
def depth : Node → Nat
  | .scalar _ _ => 0
  | .list _ items => depthOf items + 1
  | .map _ es => depthOfEntries es + 1
  | .loop => 0

/-- How deep the deepest of several nodes is nested. -/
def depthOf : List Node → Nat
  | [] => 0
  | n :: ns => max n.depth (depthOf ns)

/-- How deep the deepest node of several entries is nested. -/
def depthOfEntries : List (Node × Node) → Nat
  | [] => 0
  | (k, v) :: es => max (max k.depth v.depth) (depthOfEntries es)
end

/-- The value of a node. -/
def value (node : Node) : Result Datum := do
  let n := node.depth + 2
  let first ← checkPart node
  checkLevels (n + mergeDepth) first
  build n node

end Node

/-- The value of the only document of a text; nothing if there is none. -/
def load (s : String) : Result Datum := do
  match ← Node.ofText s with
  | some node => node.value
  | none => return .null

end Yaml

end Stencil
