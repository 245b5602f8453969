import Stencil.Template.Filter.Arguments

/-!
# Tests

The tests that an expression can put to a value.

A test that asks whether a value exists or of which type it is never fails. A
test that computes with the value fails as that computation does.

## Main definitions

* `testNames`: The names of the tests.
* `runTest`: The result of a test.
-/

namespace Stencil

namespace Template

/-- The names of the tests. -/
def testNames : List String :=
  ["odd", "even", "divisibleby", "defined", "undefined", "filter", "test", "none", "boolean",
    "false", "true", "integer", "float", "lower", "upper", "string", "mapping", "number",
    "sequence", "iterable", "callable", "sameas", "escaped", "in", "==", "eq", "equalto", "!=",
    "ne", ">", "gt", "greaterthan", "ge", ">=", "<", "lt", "lessthan", "<=", "le"]

/-- The names of the filters. -/
def filterNames : List String :=
  ["abs", "attr", "batch", "capitalize", "center", "count", "d", "default", "dictsort", "e",
    "escape", "filesizeformat", "first", "float", "forceescape", "format", "groupby", "indent",
    "int", "join", "last", "length", "list", "lower", "items", "map", "min", "max", "pprint",
    "random", "reject", "rejectattr", "replace", "reverse", "round", "safe", "select",
    "selectattr", "slice", "sort", "string", "striptags", "sum", "title", "trim", "truncate",
    "unique", "upper", "urlencode", "urlize", "wordcount", "wordwrap", "xmlattr", "tojson"]

/-- The comparison that a test is. -/
def comparisonOf? (name : String) : Option CompareOp :=
  match name with
  | "==" | "eq" | "equalto" => some .eq
  | "!=" | "ne" => some .ne
  | ">" | "gt" | "greaterthan" => some .gt
  | ">=" | "ge" => some .ge
  | "<" | "lt" | "lessthan" => some .lt
  | "<=" | "le" => some .le
  | _ => none

/-- The name of a comparison as a function. -/
def comparisonName : CompareOp → String
  | .eq => "eq"
  | .ne => "ne"
  | .gt => "gt"
  | .ge => "ge"
  | .lt => "lt"
  | .le => "le"
  | .isIn => "in"
  | .notIn => "not in"

namespace Value

/-- The value can be called. -/
def isCallable : Value → Bool
  | .undefined _ => true
  | .builtin _ => true
  | .method _ _ => true
  | .object kind _ => kind == .routine || kind == .block || kind == .joiner || kind == .loop
  | _ => false

/-- The value is a sequence: it has a length and items by position or key. -/
def isSequence : Value → Bool
  | .undefined u => u.isLenient
  | .text _ => true
  | .bytes _ => true
  | .list _ => true
  | .tuple _ => true
  | .dict _ => true
  | .range _ _ _ => true
  | _ => false

/-- The values are one and the same. -/
def isSame : Value → Value → Bool
  | .none, .none => true
  | .bool a, .bool b => a == b
  | .int a, .int b => a == b
  | .text a, .text b => a == b
  | .object k i, .object k' i' => k == k' && i == i'
  | .builtin f, .builtin g => f == g
  | _, _ => false

end Value

/-- The remainder of a value by another equals a number. -/
def remainderIs (v n : Value) (r : Int) : Run Bool := do
  let m ← v.apply (← get).shown .mod n
  return ← m.same (.int r)

/-- The text of a value is in some case. -/
def isInCase (inCase : Char → Bool) (v : Value) : Run Bool := do
  return Value.allCased inCase (← Run.display v).toList

/-- A value holds another; a stream is drawn. -/
def holdsValue (container v : Value) : Run Bool := do
  match container with
  | .object .stream _ =>
    let xs ← Run.iterate container
    return ← Value.memberOf v xs
  | _ => return ← container.contains v

/-- Whether the type of a value passes a test; nothing if the test is about
something else. -/
def typeTest? (v : Value) (name : String) : Option Bool :=
  match name, v with
  | "defined", .undefined _ => some false
  | "defined", _ => some true
  | "undefined", .undefined _ => some true
  | "undefined", _ => some false
  | "none", .none => some true
  | "none", _ => some false
  | "boolean", .bool _ => some true
  | "boolean", _ => some false
  | "false", .bool b => some !b
  | "false", _ => some false
  | "true", .bool b => some b
  | "true", _ => some false
  | "integer", .int _ => some true
  | "integer", _ => some false
  | "float", .float _ => some true
  | "float", _ => some false
  | "string", .text _ => some true
  | "string", _ => some false
  | "mapping", .dict _ => some true
  | "mapping", _ => some false
  | "number", v => some v.number?.isSome
  | "sequence", v => some v.isSequence
  | "callable", v => some v.isCallable
  | "escaped", .object .module _ => some true
  | "escaped", _ => some false
  | _, _ => none

/-- The names of the tests that take no argument, besides those of types. -/
def plainTests : List String :=
  ["odd", "even", "lower", "upper", "iterable", "filter", "test"]

/-- The result of a test that takes no argument. -/
def runPlain (name : String) (v : Value) : Run Bool := do
  match name with
  | "odd" => remainderIs v (.int 2) 1
  | "even" => remainderIs v (.int 2) 0
  | "lower" => isInCase Text.isLower v
  | "upper" => isInCase Text.isUpper v
  | "iterable" =>
    match v with
    | .undefined u => if u.isLenient then return true else Value.missing u
    | .object kind _ => return kind == .stream || kind == .loop
    | v => return v.items?.isSome
  | "filter" =>
    match v with
    | .text s => return filterNames.contains s
    | _ => return false
  | _ =>
    match v with
    | .text s => return testNames.contains s
    | _ => return false

/-- The result of a test that is known by its name. -/
def runTest (name : String) (v : Value) (args : CallArgs) : Run Bool := do
  match typeTest? v name with
  | some b =>
    let _ ← (Signature.mk ("test_" ++ name) 1 []).bind args
    return b
  | none =>
  if plainTests.contains name then
    let _ ← (Signature.mk ("test_" ++ name) 1 []).bind args
    runPlain name v
  else
  match comparisonOf? name with
  | some op =>
    match args.positional, args.named with
    | [w], [] => return ← Value.compare op v w
    | ws, [] =>
      Run.fail .badType s!"{comparisonName op} expected 2 arguments, got {ws.length + 1}"
    | _, _ => Run.fail .badType s!"{comparisonName op}() takes no keyword arguments"
  | none =>
  match name with
  | "divisibleby" =>
    let vs ← (Signature.mk "test_divisibleby" 1 [("num", none)]).bind args
    remainderIs v (vs.headD .none) 0
  | "in" =>
    let vs ← (Signature.mk "test_in" 1 [("seq", none)]).bind args
    holdsValue (vs.headD .none) v
  | "sameas" =>
    let vs ← (Signature.mk "test_sameas" 1 [("other", none)]).bind args
    return v.isSame (vs.headD .none)
  | _ => Run.fail .runtime s!"No test named {Text.quoted name} found."

end Template

end Stencil
