import Stencil.Template.Filter
import Stencil.Template.Library

/-!
# Engines

What the evaluation of an expression or a statement calls upon.

Code that is not part of the syntax under evaluation, such as the body of a
macro or another template, is a job. An engine runs jobs and gives their
text. Evaluating syntax is recursion on the syntax; only jobs lead from one
piece of syntax to another, and they are counted.

## Main definitions

* `Job`, `Engine`: Work, and what does it.
* `Engine.call`: A call of a value.
* `Engine.moduleOf`: The exports of a template.
* `Engine.choose`, `Engine.fetch`: The template that a value names.
-/

namespace Stencil

namespace Template

/-- Work that gives a text. -/
inductive Job where
  /-- Runs a template. -/
  | root (template : String) (context : Nat)
  /-- Runs a block. -/
  | block (ref : BlockRef) (context : Nat)
  /-- Runs a macro with values for some of its parameters. -/
  | invoke (id : Nat) (given : List (String × Value))
  /-- Runs a recursive loop. -/
  | again (site : LoopSite) (items : Value) (depth : Nat)

/-- What runs jobs, and what they can load. -/
structure Engine where
  /-- The templates. -/
  library : Library
  /-- Runs a job. -/
  run : Job → Run String

namespace Run

/-- A result, or the failure that it is. -/
def ofOutcome {α : Type} (r : Outcome α) : Run α :=
  match r with
  | .ok a => return a
  | .error f => throw f

/-- The items of a value, and the failure that follows them. -/
def draw (v : Value) : Run (List Value × Option Failure) := do
  match v with
  | .object .stream id =>
    let s := ((← get).streams[id]?).getD default
    modify fun st => { st with streams := st.streams.modify id fun _ => ⟨[], none⟩ }
    return (s.items, s.failure)
  | v => return (← v.items, none)

/-- The items of a value that are written to a number of places. -/
def unpack (count : Nat) (v : Value) : Run (List Value) := do
  let xs ← match v with
    | .undefined u => (Value.undefined u).items
    | .object .stream _ => iterate v
    | v =>
      match v.items? with
      | some xs => pure xs
      | none => fail .badType s!"cannot unpack non-iterable {v.typeName} object"
  if xs.length < count then
    fail .badValue s!"not enough values to unpack (expected {count}, got {xs.length})"
  else if xs.length > count then
    fail .badValue s!"too many values to unpack (expected {count})"
  else return xs

/-- A piece of output that has to be a text. -/
def emit (v : Value) : Run Unit := do
  match v with
  | .text s => write s
  | v =>
    let n := ((← get).buffers.head?.map fun b => b.pieces.length).getD 0
    fail .badType s!"sequence item {n}: expected str instance, {v.typeName} found"

/-- Makes a macro. -/
def newMacro (m : Macro) : Run Value :=
  modifyGet fun st => (.object .routine st.macros.size, { st with macros := st.macros.push m })

/-- Makes a loop. -/
def newLoop (l : LoopState) : Run Nat :=
  modifyGet fun st => (st.loops.size, { st with loops := st.loops.push l })

/-- Everything that a context reads by name, what it wrote first. -/
def everything (id : Nat) : Run (List (String × Value)) := do
  let c ← context id
  return c.own ++ c.given

/-- The variables of the scopes around a place that have a value. -/
def locals (p : Place) : Run (List (String × Value)) := do
  let found ← (Scopes.written p.scopes).mapM fun n => do
    return (← slot? p n.2).map fun v => (n.1, v)
  return found.filterMap id

/-- The context of a nested template: what the place reads by name. -/
def nested (p : Place) : Run (List (String × Value)) := do
  return (← locals p) ++ (← everything p.context)

end Run

namespace Value

/-- Whole numbers as the arguments of a range. -/
def rangeArg (v : Value) : Outcome Int :=
  match v with
  | .undefined u =>
    if u.isLenient then badType "'Undefined' object cannot be interpreted as an integer"
    else badType "'StrictUndefined' object cannot be interpreted as an integer"
  | v =>
    match v.count? with
    | some n => .ok n
    | Option.none => badType s!"'{v.typeName}' object cannot be interpreted as an integer"

/-- The range between bounds. -/
def makeRange (args : CallArgs) : Outcome Value := do
  if !args.named.isEmpty then badType "range() takes no keyword arguments"
  else
    match args.positional with
    | [] => badType "range expected at least 1 argument, got 0"
    | [stop] => return .range 0 (← rangeArg stop) 1
    | [start, stop] =>
      let a ← rangeArg start
      return .range a (← rangeArg stop) 1
    | [start, stop, step] =>
      let a ← rangeArg start
      let b ← rangeArg stop
      let s ← rangeArg step
      if s == 0 then badValue "range() arg 3 must not be zero" else return .range a b s
    | more => badType s!"range expected at most 3 arguments, got {more.length}"

/-- The entry that an item of a sequence is, at a position. -/
def entryOf (i : Nat) (v : Value) : Outcome (Value × Value) :=
  match v with
  | .undefined u => missing u
  | v =>
    match v.items? with
    | some [k, w] => .ok (k, w)
    | some xs =>
      badValue
        s!"dictionary update sequence element #{i} has length {xs.length}; 2 is required"
    | Option.none =>
      badType s!"cannot convert dictionary update sequence element #{i} to a sequence"

end Value

namespace Run

/-- The entries that the arguments of a map give. -/
def entriesOf (args : CallArgs) : Run (List (Value × Value)) := do
  let named := args.named.map fun e => (Value.text e.1, e.2)
  match args.positional with
  | [] => return named
  | [.dict es] => return ← Value.insertAll es named
  | [.undefined u] => Value.missing u
  | [v] =>
    let xs ← iterate v
    let es ← xs.zipIdx.mapM fun x => Value.entryOf x.2 x.1
    return ← Value.insertAll (← Value.insertAll [] es) named
  | more => fail .badType s!"dict expected at most 1 argument, got {more.length}"

/-- The result of a function that every template can call. -/
def callBuiltin (f : Builtin) (args : CallArgs) : Run Value := do
  match f with
  | .range => return ← Value.makeRange args
  | .dict => return .dict (← entriesOf args)
  | .space => newSpace (← entriesOf args)
  | .cycler =>
    match args.positional, args.named with
    | xs, (name, _) :: _ =>
      let _ := xs
      fail .badType s!"Cycler.__init__() got an unexpected keyword argument '{name}'"
    | [], [] => fail .general "at least one item has to be provided"
    | xs, [] =>
      modifyGet fun st =>
        (.object .cycler st.cycles.size, { st with cycles := st.cycles.push ⟨xs, 0⟩ })
  | .joiner =>
    let vs ← (Signature.mk "Joiner.__init__" 1 [("sep", some (.text ", "))]).bind args
    let sep ← display (vs.headD .none)
    modifyGet fun st =>
      (.object .joiner st.joiners.size, { st with joiners := st.joiners.push (sep, false) })
  | .lorem => return .text ""

/-- Whether values differ from those that a loop was last asked about. -/
def changed (id : Nat) (values : List Value) : Run Value := do
  let l := ((← get).loops[id]?).getD default
  let same ← match l.seen with
    | none => pure false
    | some old => Value.sameItems old values
  modify fun st =>
    { st with loops := st.loops.modify id fun l => { l with seen := some values } }
  return .bool !same

/-- The result of a method of an object. -/
def callObjectMethod (kind : ObjectKind) (id : Nat) (name : String) (args : CallArgs) :
    Run Value := do
  match kind, name with
  | .loop, "cycle" =>
    let l := ((← get).loops[id]?).getD default
    match args.positional with
    | [] => fail .badType "no items for cycling given"
    | xs => return (xs[l.index % xs.length]?).getD .none
  | .loop, "changed" => changed id args.positional
  | .cycler, "next" =>
    let c := ((← get).cycles[id]?).getD default
    modify fun st => { st with cycles := st.cycles.modify id fun c =>
      { c with position := (c.position + 1) % c.items.length } }
    return (c.items[c.position]?).getD .none
  | .cycler, "reset" =>
    modify fun st => { st with cycles := st.cycles.modify id fun c => { c with position := 0 } }
    return .none
  | _, _ => fail .badType s!"{Value.kindName kind}.{name}() is not available here"

/-- An argument that a method can look into: a stream is drawn. -/
def settle (v : Value) : Run Value := do
  match v with
  | .object .stream _ => return .list (← iterate v)
  | v => return v

end Run

namespace Macro

/-- The values that positional arguments and named ones give to parameters in
order, and the named ones that are left. -/
def fill (named : List (String × Value)) :
    List String → List Value → List (String × Value) × List (String × Value)
  | [], _ => ([], named)
  | p :: ps, v :: vs =>
    let (given, left) := fill named ps vs
    ((p, v) :: given, left)
  | p :: ps, [] =>
    let (given, left) := fill (named.filter (·.1 != p)) ps []
    match named.lookup p with
    | some v => ((p, v) :: given, left)
    | none => (given, left)

/-- The name of a macro in reports. -/
def shownName (m : Macro) : String :=
  match m.name with
  | some name => Text.quoted name
  | none => "None"

/-- What the caller of a macro is if it was not called with a body. -/
def noCaller : Value :=
  .undefined { message := "No caller defined" }

/-- The values that a call gives to the parameters of a macro, the special ones
included. -/
def bind (m : Macro) (args : CallArgs) : Outcome (List (String × Value)) := do
  let names := m.parameters.map Prod.fst
  let count := names.length
  let (given, left) := fill args.named names args.positional
  let takesCaller := m.special.contains "caller"
  -- A caller that is none counts as one that is not given.
  let caller := if takesCaller then
      [("caller", match left.lookup "caller" with
        | some .none => noCaller
        | some v => v
        | none => noCaller)]
    else []
  let left := if takesCaller then left.filter (·.1 != "caller") else left
  let more := args.positional.drop count
  let kwargs ←
    if m.special.contains "kwargs" then
      pure [("kwargs", Value.dict (left.map fun e => (.text e.1, e.2)))]
    else
      match left with
      | [] => pure []
      | (name, _) :: _ =>
        if (left.lookup "caller").isSome then
          badType (s!"macro {m.shownName} was invoked with two values for the special " ++
            "caller argument. This is most likely a bug.")
        else badType s!"macro {m.shownName} takes no keyword argument {Text.quoted name}"
  let varargs ←
    if m.special.contains "varargs" then pure [("varargs", Value.tuple more)]
    else if more.isEmpty then pure []
    else badType s!"macro {m.shownName} takes not more than {count} argument(s)"
  return given ++ caller ++ kwargs ++ varargs

end Macro

namespace Engine

/-- The result of a call. -/
def call (en : Engine) (f : Value) (args : CallArgs) : Run Value := do
  match f with
  | .undefined u => Value.missing u
  | .builtin f => Run.callBuiltin f args
  | .method (.object kind id) name => Run.callObjectMethod kind id name args
  | .method v name =>
    return ← Value.callMethod v name ⟨← args.positional.mapM Run.settle, args.named⟩
  | .object .routine id =>
    let m := ((← get).macros[id]?).getD default
    return .text (← en.run (.invoke id (← Run.ofOutcome (m.bind args))))
  | .object .block id =>
    let b := ((← get).blocks[id]?).getD default
    return .text (← en.run (.block ((b.stack[b.depth]?).getD default) b.context))
  | .object .joiner id =>
    let j := ((← get).joiners[id]?).getD default
    modify fun st => { st with joiners := st.joiners.modify id fun j => (j.1, true) }
    return .text (if j.2 then j.1 else "")
  | .object .loop id =>
    let l := ((← get).loops[id]?).getD default
    match l.site, args.positional with
    | some site, items :: _ => return .text (← en.run (.again site items (l.depth + 1)))
    | none, _ :: _ =>
      Run.fail .badType
        "The loop must have the 'recursive' marker to be called recursively."
    | _, [] =>
      Run.fail .badType
        "LoopContext.__call__() missing 1 required positional argument: 'iterable'"
  | v => Run.fail .badType s!"'{v.typeName}' object is not callable"

/-- The path that a value names in a template. -/
def pathOf (en : Engine) (current : String) (v : Value) : Run String := do
  match v with
  | .text s => return en.library.join current s
  | .undefined u => Value.missing u
  | v =>
    Value.checkKey v
    Run.display v

/-- The template that a value names in a template. -/
def fetch (en : Engine) (current : String) (v : Value) : Run Page := do
  Run.ofOutcome (en.library.load (← pathOf en current v))

/-- The first template that loads among those that values name. -/
def firstOf (en : Engine) (current : String) (all : List Value) : List Value → Run Page
  | [] => do
    let texts ← all.mapM Run.display
    Run.fail .noneFound
      ("none of the templates given were found: " ++ Text.joinStrings ", " texts)
  | v :: vs => do
    match en.library.load (← pathOf en current v) with
    | .ok s => return s
    | .error f =>
      if f.kind == .notFound || f.kind == .undefined then firstOf en current all vs
      else throw f

/-- The template that one of several values names in a template. -/
def choose (en : Engine) (current : String) (v : Value) : Run Page := do
  let holds ← v.truth
  if !holds then
    Run.fail .noneFound "Tried to select from an empty list of templates."
  else
    let vs ← Run.iterate v
    firstOf en current vs vs

/-- The context of a template with what its caller gives. -/
def contextFor (s : Page) (given : List (String × Value)) : Context :=
  ⟨s.path, given, [], [], s.blocks.map fun b => (b.name, [⟨s.path, b.name⟩])⟩

/-- Makes the module of a template with what its caller gives. -/
def makeModule (en : Engine) (s : Page) (given : List (String × Value)) : Run Nat := do
  let ctx ← Run.newContext (contextFor s given)
  let text ← en.run (.root s.path ctx)
  let c ← Run.context ctx
  let exports := c.exported.filterMap fun n => (c.own.lookup n).map fun v => (n, v)
  modifyGet fun st =>
    (st.modules.size, { st with modules := st.modules.push ⟨s.path, exports, text⟩ })

/-- The module of a template without a caller, made once. -/
def sharedModule (en : Engine) (s : Page) : Run Nat := do
  match (← get).shared.lookup s.path with
  | some id => return id
  | none =>
    let id ← makeModule en s en.library.globals
    modify fun st => { st with shared := (s.path, id) :: st.shared }
    return id

/-- The module of a template as an import at a place sees it. -/
def moduleOf (en : Engine) (p : Place) (s : Page) (withContext : Bool) : Run Nat := do
  if withContext then makeModule en s (← Run.nested p) else sharedModule en s

end Engine

end Template

end Stencil
