import Stencil.Template.Filter.Numeral
import Stencil.Template.Filter.Order
import Stencil.Template.Filter.Prose
import Stencil.Template.Test

/-!
# Filters

The filters that an expression can put a value through.

A filter that gives several values gives them as a stream, which is drawn
once. Its items are computed when the filter is applied, and a failure on the
way is kept behind the items before it, so that it is met only by who draws
that far.

Filters that apply other filters name them by values; `depth` bounds how far
such names can lead on.

## Main definitions

* `Application`: A filter's value and arguments.
* `filterTable`: The table of filters.
* `runFilter`: The result of a filter.
-/

namespace Stencil

namespace Template

/-- What a filter is applied to. -/
structure Application where
  /-- The value. -/
  value : Value
  /-- The arguments. -/
  args : CallArgs
  /-- Applies a filter by its name. -/
  filter : String → Value → CallArgs → Run Value

namespace Application

/-- The values of a filter's parameters. -/
def bind (a : Application) (name : String) (lead : Nat) (formals : List Formal) :
    Run (List Value) := do
  return ← (Signature.mk name lead formals).bind a.args

/-- The value of the only parameter. -/
def bind1 (a : Application) (name : String) (lead : Nat) (f : Formal) : Run Value := do
  return (← a.bind name lead [f]).headD .none

/-- The values of two parameters. -/
def bind2 (a : Application) (name : String) (lead : Nat) (f g : Formal) :
    Run (Value × Value) := do
  match ← a.bind name lead [f, g] with
  | [v, w] => return (v, w)
  | _ => return (.none, .none)

/-- The values of three parameters. -/
def bind3 (a : Application) (name : String) (lead : Nat) (f g h : Formal) :
    Run (Value × Value × Value) := do
  match ← a.bind name lead [f, g, h] with
  | [v, w, x] => return (v, w, x)
  | _ => return (.none, .none, .none)

/-- The text of the value. -/
def text (a : Application) : Run String :=
  Run.display a.value

/-- The items of the value. -/
def items (a : Application) : Run (List Value) :=
  Run.iterate a.value

end Application

/-- Runs something; a failure is a result like any other. -/
def attempt {α : Type} (act : Run α) : Run (Outcome α) := fun st =>
  match act st with
  | .ok (a, st') => .ok (.ok a, st')
  | .error f => .ok (.error f, st)

/-- What a function gives for items, up to the first failure. -/
def gather (f : Value → Run (List Value)) : List Value → Run (List Value × Option Failure)
  | [] => return ([], none)
  | x :: xs => do
    match ← attempt (f x) with
    | .error e => return ([], some e)
    | .ok ys =>
      let (more, failure) ← gather f xs
      return (ys ++ more, failure)

/-- A stream of what a function gives for the items of a source. -/
def streamOf (source : Run (List Value)) (f : Value → Run (List Value)) : Run Value := do
  match ← attempt source with
  | .error e => Run.newStream [] (some e)
  | .ok xs =>
    let (ys, failure) ← gather f xs
    Run.newStream ys failure

/-- A stream of the items that something gives. -/
def streamFrom (source : Run (List Value)) : Run Value :=
  streamOf source fun x => return [x]

/-- A filter on the text of the value, without parameters. -/
def textFilter (name : String) (f : String → String) (a : Application) : Run Value := do
  let _ ← a.bind name 1 []
  return .text (f (← a.text))

/-- The length of the value. -/
def lengthFilter (a : Application) : Run Value := do
  if !a.args.named.isEmpty then Run.fail .badType "len() takes no keyword arguments"
  else if !a.args.positional.isEmpty then
    let n := a.args.positional.length + 1
    Run.fail .badType s!"len() takes exactly one argument ({n} given)"
  else
    match a.value with
    | .undefined u => if u.isLenient then return .int 0 else Value.missing u
    | .object .loop id => return .int (((← get).loops[id]?).getD default).items.length
    | v =>
      match v.items? with
      | some xs => return .int xs.length
      | none => Run.fail .badType s!"object of type '{v.typeName}' has no len()"

/-- A default for a value that does not exist, or that does not hold. -/
def defaultFilter (a : Application) : Run Value := do
  let (v, all) ← a.bind2 "do_default" 1 ("default_value", some (.text ""))
    ("boolean", some (.bool false))
  match a.value with
  | .undefined _ => return v
  | w =>
    if ← all.truth then
      if ← w.truth then return w else return v
    else return w

/-- The texts of the items, joined. -/
def joinFilter (a : Application) : Run Value := do
  let (sep, way) ← a.bind2 "sync_do_join" 2 ("d", some (.text "")) ("attribute", some .none)
  let parts ← attributeParts way
  let xs ← a.items
  let texts ← xs.mapM fun x => do Run.display (← follow .none parts x)
  return .text (Text.joinStrings (← Run.display sep) texts)

/-- The first item. -/
def firstFilter (a : Application) : Run Value := do
  let _ ← a.bind "sync_do_first" 2 []
  let empty := Run.notThere "No first item, sequence was empty."
  match a.value with
  | .object .stream id =>
    let s := ((← get).streams[id]?).getD default
    match s.items, s.failure with
    | x :: rest, failure =>
      modify fun st => { st with streams := st.streams.modify id fun _ => ⟨rest, failure⟩ }
      return x
    | [], some f => throw f
    | [], none => return empty
  | _ => return (← a.items).headD empty

/-- The items of the value from the last one on. -/
def reversedItems (v : Value) : Run (List Value) := do
  match v with
  | .object kind _ => Run.fail .badType s!"'{Value.kindName kind}' object is not reversible"
  | .undefined u =>
    if u.isLenient then return [] else Value.missing u
  | v =>
    match v.items? with
    | some xs => return xs.reverse
    | none => Run.fail .badType s!"'{v.typeName}' object is not reversible"

/-- The last item. -/
def lastFilter (a : Application) : Run Value := do
  let _ ← a.bind "do_last" 2 []
  return (← reversedItems a.value).headD (Run.notThere "No last item, sequence was empty.")

/-- The items or the characters in reverse. -/
def reverseFilter (a : Application) : Run Value := do
  let _ ← a.bind "do_reverse" 1 []
  match a.value with
  | .text s => return .text (String.ofList s.toList.reverse)
  | .object .stream _ => return .list (← a.items).reverse
  | v =>
    match v.items? with
    | some xs => Run.newStream xs.reverse none
    | none =>
      match v with
      | .undefined u => Value.missing u
      | _ => Run.fail .badArgument "argument must be iterable"

/-- The keys that items are compared by. -/
def sortKeys (way : Value) (withCase : Bool) (xs : List Value) : Run (List Value) := do
  let parts ← attributeParts way
  let keys ← followAll .none parts xs
  return if withCase then keys else keys.map foldCase

/-- The items in order. -/
def sortFilter (a : Application) : Run Value := do
  let (reverse, withCase, way) ← a.bind3 "do_sort" 2 ("reverse", some (.bool false))
    ("case_sensitive", some (.bool false)) ("attribute", some .none)
  let xs ← a.items
  let names := match way with
    | .text s => (Text.splitOnChar ',' s).map Value.text
    | v => [v]
  let withCase ← withCase.truth
  let columns ← names.mapM fun n => sortKeys n withCase xs
  let rows := xs.zipIdx.map fun (x, i) => (columns.map fun c => c.getD i .none, x)
  let sorted ← sortTo (← reverse.truth) (fun p q => Value.orderItems .lt p.1 q.1) rows
  return .list (sorted.map Prod.snd)

/-- The best item by a comparison of keys. -/
def bestOf (better : Value → Value → Outcome Bool) (best : Value × Value) :
    List (Value × Value) → Outcome Value
  | [] => .ok best.2
  | p :: rest => do
    if ← better p.1 best.1 then bestOf better p rest else bestOf better best rest

/-- The greatest or the least item. -/
def extremeFilter (name : String) (op : Value.OrderOp) (a : Application) : Run Value := do
  let (withCase, way) ← a.bind2 name 2 ("case_sensitive", some (.bool false))
    ("attribute", some .none)
  let xs ← a.items
  let keys ← sortKeys way (← withCase.truth) xs
  match keys.zip xs with
  | [] => return Run.notThere "No aggregated item, sequence was empty."
  | best :: rest => return ← bestOf (Value.order op) best rest

/-- The items whose keys did not come before; `seen` holds the keys that did. -/
def uniqueFrom (seen : List Value) : List (Value × Value) → Outcome (List Value)
  | [] => .ok []
  | (k, x) :: rest => do
    Value.checkKey k
    if ← Value.memberOf k seen then uniqueFrom seen rest
    else (x :: ·) <$> uniqueFrom (seen ++ [k]) rest

/-- The items, each once. -/
def uniqueFilter (a : Application) : Run Value := do
  let (withCase, way) ← a.bind2 "sync_do_unique" 2 ("case_sensitive", some (.bool false))
    ("attribute", some .none)
  streamFrom do
    let xs ← a.items
    let keys ← sortKeys way (← withCase.truth) xs
    return ← uniqueFrom [] (keys.zip xs)

/-- The sum of the items. -/
def sumFilter (a : Application) : Run Value := do
  let (way, start) ← a.bind2 "sync_do_sum" 2 ("attribute", some .none)
    ("start", some (.int 0))
  let xs ← followAll .none (← attributeParts way) (← a.items)
  match start with
  | .text _ => Run.fail .badType "sum() can't sum strings [use ''.join(seq) instead]"
  | _ =>
    let shown := (← get).shown
    return ← xs.foldlM (fun v x => Value.apply shown .add v x) start

/-- The items as a list. -/
def listFilter (a : Application) : Run Value := do
  let _ ← a.bind "sync_do_list" 1 []
  return .list (← a.items)

/-- The entries of a map. -/
def itemsFilter (a : Application) : Run Value := do
  let _ ← a.bind "do_items" 1 []
  match a.value with
  | .undefined _ => Run.newStream [] none
  | .dict es => Run.newStream (Value.viewItems .items es) none
  | _ => Run.newStream [] (some ⟨.badType, "Can only get item pairs from a mapping."⟩)

/-- The entries of a map in order. -/
def dictSortFilter (a : Application) : Run Value := do
  let vs ← a.bind "do_dictsort" 1 [("case_sensitive", some (.bool false)),
    ("by", some (.text "key")), ("reverse", some (.bool false))]
  let withCase ← (vs.headD .none).truth
  let byKey ← match vs[1]? with
    | some (.text "key") => pure true
    | some (.text "value") => pure false
    | _ => Run.fail .badArgument "You can only sort by either \"key\" or \"value\""
  match a.value with
  | .dict es =>
    let key (e : Value × Value) : Value :=
      let k := if byKey then e.1 else e.2
      if withCase then k else foldCase k
    let backwards : Value := (vs[2]?).getD (.bool false)
    let sorted ← sortTo (← backwards.truth)
      (fun e f => Value.order .lt (key e) (key f)) es
    return .list (Value.viewItems .items sorted)
  | .undefined u => Value.missing u
  | v =>
    Run.fail .badAttribute s!"{Text.quoted v.typeName} object has no attribute 'items'"

/-- What another filter, or an attribute, gives for each item. -/
def mapFilter (a : Application) : Run Value := do
  let { positional, named } := a.args
  streamOf (do if ← a.value.truth then a.items else return []) fun x => do
    match positional, named.lookup "attribute" with
    | [], some way =>
      let rest := named.filter fun e => e.1 != "attribute" && e.1 != "default"
      match rest with
      | e :: _ => Run.fail .badArgument s!"Unexpected keyword argument {Text.quoted e.1}"
      | [] =>
        let d := (named.lookup "default").getD .none
        return [← follow d (← attributeParts way) x]
    | [], none => Run.fail .badArgument "map requires a filter argument"
    | .text name :: more, _ =>
      if filterNames.contains name then return [← a.filter name x ⟨more, named⟩]
      else Run.fail .runtime s!"No filter named {Text.quoted name}."
    | v :: _, _ =>
      Run.fail .runtime s!"No filter named {v.literal (← get).shown}."

/-- The items that pass a test, or those that do not. -/
def selectFilter (keep byAttribute : Bool) (a : Application) : Run Value := do
  let { positional, named } := a.args
  streamOf (do if ← a.value.truth then a.items else return []) fun x => do
    let (subject, rest) ←
      if byAttribute then
        match positional with
        | [] => Run.fail .badArgument "Missing parameter for attribute name"
        | way :: rest => pure (← follow .none (← attributeParts way) x, rest)
      else pure (x, positional)
    let passed ← match rest with
      | [] => subject.truth
      | .text name :: more =>
        if testNames.contains name then runTest name subject ⟨more, named⟩
        else Run.fail .runtime s!"No test named {Text.quoted name}."
      | v :: _ => Run.fail .runtime s!"No test named {v.literal (← get).shown}."
    return if passed == keep then [x] else []

/-- Items in rows of a length; the last row is filled up if that is wanted. -/
def rowsOf (length : Nat) (fill : Value) : Nat → List Value → List (List Value)
  | 0, _ => []
  | _ + 1, [] => []
  | n + 1, xs =>
    let row := xs.take length
    let row := match fill with
      | .none => row
      | v => row ++ List.replicate (length - row.length) v
    row :: rowsOf length fill n (xs.drop length)

/-- The items in rows. -/
def batchFilter (a : Application) : Run Value := do
  let (length, fill) ← a.bind2 "do_batch" 1 ("linecount", none) ("fill_with", some .none)
  streamFrom do
    let xs ← a.items
    let n := (← Value.wholeArg length).toNat
    return (rowsOf (max n 1) fill (xs.length + 1) xs).map .list

/-- The items in a number of columns of nearly one length. -/
def sliceFilter (a : Application) : Run Value := do
  let (count, fill) ← a.bind2 "sync_do_slice" 1 ("slices", none) ("fill_with", some .none)
  streamFrom do
    let xs ← a.items
    let n := (← Value.wholeArg count).toNat
    if n == 0 then Run.fail .zeroDivision "integer division or modulo by zero"
    else
      let each := xs.length / n
      let extra := xs.length % n
      return (List.range n).map fun i =>
        let start := i * each + min i extra
        let column := (xs.drop start).take (if i < extra then each + 1 else each)
        .list (match fill with
          | .none => column
          | v => if i < extra then column else column ++ [v])

/-- Neighbours with one key, together. -/
def groupRuns : List (Value × Value) → Outcome (List (List (Value × Value)))
  | [] => .ok []
  | p :: rest => do
    match ← groupRuns rest with
    | (q :: group) :: more =>
      if ← p.1.same q.1 then return (p :: q :: group) :: more
      else return [p] :: (q :: group) :: more
    | groups => return [p] :: groups

/-- The items by what they have in common. -/
def groupFilter (a : Application) : Run Value := do
  let (way, default, withCase) ← a.bind3 "sync_do_groupby" 2 ("attribute", none)
    ("default", some .none) ("case_sensitive", some (.bool false))
  let xs ← a.items
  let keys ← followAll default (← attributeParts way) xs
  let withCase ← withCase.truth
  let folded := if withCase then keys else keys.map foldCase
  let rows := folded.zip (keys.zip xs)
  let sorted ← sortTo false (fun p q => Value.order .lt p.1 q.1) rows
  let groups ← groupRuns (sorted.map fun r => (r.1, .tuple [r.2.1, r.2.2]))
  return .list (groups.map fun g =>
    let pairs := g.map fun p => match p.2 with
      | .tuple [k, x] => (k, x)
      | v => (v, v)
    .tuple [(pairs.map Prod.fst).headD .none, .list (pairs.map Prod.snd)])

/-- Fields of a text filled with the arguments. -/
def formatFilter (a : Application) : Run Value := do
  let { positional, named } := a.args
  if !positional.isEmpty && !named.isEmpty then
    Run.fail .badArgument "can't handle positional and keyword arguments at the same time"
  else
    let filler : Value := if named.isEmpty then .tuple positional
      else .dict (named.map fun e => (.text e.1, e.2))
    let s ← a.text
    return .text (← Value.fill (← get).shown s filler)

/-- One text in another replaced. -/
def replaceFilter (a : Application) : Run Value := do
  let (old, new, count) ← a.bind3 "do_replace" 2 ("old", none) ("new", none)
    ("count", some .none)
  let s ← a.text
  let old ← Run.display old
  let new ← Run.display new
  let most ← match count with
    | .none => pure (-1)
    | v => Value.wholeArg v
  let most := if most < 0 then s.length + 1 else most.toNat
  return .text (String.ofList (Text.replaceText old.toList new.toList s.toList most))

/-- Lines with something in front of them. -/
def indentFilter (a : Application) : Run Value := do
  let (width, first, blank) ← a.bind3 "do_indent" 1 ("width", some (.int 4))
    ("first", some (.bool false)) ("blank", some (.bool false))
  let indent ← match width with
    | .text s => pure s
    | v =>
      match ← Value.apply Value.kindOnly .mul (.text " ") v with
      | .text s => pure s
      | _ => pure ""
  match a.value with
  | .text s => return .text (indentLines indent (← first.truth) (← blank.truth) s)
  | .undefined u => Value.missing u
  | .object .module _ =>
    return .text (indentLines indent (← first.truth) (← blank.truth) (← a.text))
  | v =>
    Run.fail .badType s!"unsupported operand type(s) for +=: '{v.typeName}' and 'str'"

/-- Blanks, or other characters, removed at both ends. -/
def trimFilter (a : Application) : Run Value := do
  let chars ← a.bind1 "do_trim" 1 ("chars", some .none)
  let s ← a.text
  match chars with
  | .none => return .text (Text.trim s)
  | .text t => return .text (Text.trim s fun c => t.toList.contains c)
  | _ => Run.fail .badType "strip arg must be None or str"

/-- A text in the middle of a width. -/
def centerFilter (a : Application) : Run Value := do
  let width ← a.bind1 "do_center" 1 ("width", some (.int 80))
  let s ← a.text
  return .text (Value.centered (← Value.wholeArg width).toNat ' ' s)

/-- A text cut to a length. -/
def truncateFilter (a : Application) : Run Value := do
  let vs ← a.bind "do_truncate" 2 [("length", some (.int 255)),
    ("killwords", some (.bool false)), ("end", some (.text "...")), ("leeway", some .none)]
  match vs with
  | [length, inWord, stop, leeway] =>
    let n := (← Value.wholeArg length).toNat
    let stop ← Run.display stop
    let leeway ← match leeway with
      | .none => pure 5
      | v => Value.wholeArg v
    return .text (shorten (← a.text) n (← inWord.truth) stop leeway.toNat)
  | _ => return a.value

/-- The whole number that the value stands for. -/
def intFilter (a : Application) : Run Value := do
  let (default, base) ← a.bind2 "do_int" 1 ("default", some (.int 0)) ("base", some (.int 10))
  return ← toWhole a.value default (← Value.wholeArg base).toNat

/-- The floating-point number that the value stands for. -/
def floatFilter (a : Application) : Run Value := do
  let default ← a.bind1 "do_float" 1 ("default", some (.float .zero))
  return ← toFloat a.value default

/-- The value rounded. -/
def roundFilter (a : Application) : Run Value := do
  let (places, method) ← a.bind2 "do_round" 1 ("precision", some (.int 0))
    ("method", some (.text "common"))
  let how := match method with
    | .text s => Rounding.ofText? s
    | _ => none
  match how with
  | none => Run.fail .badArgument "method must be common, ceil or floor"
  | some how => return ← roundValue a.value places how

/-- The size of the value. -/
def absFilter (a : Application) : Run Value := do
  if !a.args.named.isEmpty then Run.fail .badType "abs() takes no keyword arguments"
  else if !a.args.positional.isEmpty then
    let n := a.args.positional.length + 1
    Run.fail .badType s!"abs() takes exactly one argument ({n} given)"
  else return ← absolute a.value

/-- An attribute of the value, and never an item. -/
def attrFilter (a : Application) : Run Value := do
  let name ← Run.display (← a.bind1 "do_attr" 2 ("name", none))
  match ← Run.member? a.value name with
  | some v => return v
  | none => return a.value.lacks (.text name) ""

/-- A value as it is written in a script. -/
def scriptFilter (a : Application) : Run Value := do
  let _ ← a.bind1 "do_tojson" 2 ("indent", some .none)
  match a.value with
  | .undefined u =>
    Run.fail .badType s!"Object of type {(Value.undefined u).typeName} is not JSON serializable"
  | v => return .text (← scriptValue v)

/-- The table of filters. -/
def filterTable : List (String × (Application → Run Value)) :=
  [("abs", absFilter), ("attr", attrFilter), ("batch", batchFilter),
    ("capitalize", textFilter "do_capitalize" Text.capitalize), ("center", centerFilter),
    ("count", lengthFilter), ("d", defaultFilter), ("default", defaultFilter),
    ("dictsort", dictSortFilter), ("e", textFilter "escape" escapeMarkup),
    ("escape", textFilter "escape" escapeMarkup), ("first", firstFilter),
    ("float", floatFilter), ("forceescape", textFilter "do_forceescape" escapeMarkup),
    ("format", formatFilter), ("groupby", groupFilter), ("indent", indentFilter),
    ("int", intFilter), ("items", itemsFilter), ("join", joinFilter), ("last", lastFilter),
    ("length", lengthFilter), ("list", listFilter), ("lower", textFilter "do_lower" Text.toLower),
    ("map", mapFilter), ("max", extremeFilter "do_max" .gt), ("min", extremeFilter "do_min" .lt),
    ("reject", selectFilter false false), ("rejectattr", selectFilter false true),
    ("replace", replaceFilter), ("reverse", reverseFilter), ("round", roundFilter),
    ("safe", textFilter "do_mark_safe" id), ("select", selectFilter true false),
    ("selectattr", selectFilter true true), ("slice", sliceFilter), ("sort", sortFilter),
    ("string", textFilter "soft_str" id), ("sum", sumFilter),
    ("title", textFilter "do_title" titleCase), ("tojson", scriptFilter), ("trim", trimFilter),
    ("truncate", truncateFilter), ("unique", uniqueFilter),
    ("upper", textFilter "do_upper" Text.toUpper),
    ("wordcount", fun a => do
      let _ ← a.bind "do_wordcount" 1 []
      return .int (countWords false (← a.text).toList))]

/-- The result of a filter that is known by its name. -/
def runFilter (depth : Nat) (name : String) (v : Value) (args : CallArgs) : Run Value :=
  match depth with
  | 0 => Run.fail .tooDeep "maximum recursion depth exceeded"
  | n + 1 =>
    match filterTable.lookup name with
    | some f => f ⟨v, args, runFilter n⟩
    | none => Run.fail .runtime s!"The filter {Text.quoted name} is not available here."

end Template

end Stencil
