import Stencil.Template.Scope
import Stencil.Template.Value.Method

/-!
# The Store of a Render

What a render keeps while it runs.

An activation is one run of a template, a block, a macro or a recursive loop.
It owns the slots from some level on; slots of lower levels belong to the
activation around it, so a macro sees the variables of the place where it was
defined as they are when it runs. A context holds what a template reads by
name: variables that its caller gave, and those that it wrote itself.

Output goes to the innermost buffer. Objects are records under numbers, in the
order in which they were made.

## Main definitions

* `Activation`, `Context`, `Place`: Where code runs.
* `Store`, `Run`: All of it, and computing with it.
* `Run.slot?`, `Run.setSlot`: Reading and writing variables.
* `Run.write`, `Run.capture`: Output.
* `Run.member`, `Run.item`, `Run.iterate`: Values, objects included.
-/

namespace Stencil

namespace Template

/-- One run of a template, a block, a macro or a recursive loop. -/
structure Activation where
  /-- The lowest level whose slots it owns. -/
  base : Nat
  /-- The slots that have a value. -/
  cells : List (Slot × Value)
  /-- The activation around it. -/
  outer : Option Nat
  /-- The parent of the template, once that is known. -/
  parent : Option String
  deriving Inhabited

/-- A block of some template. -/
structure BlockRef where
  /-- The template. -/
  template : String
  /-- The block. -/
  block : String
  deriving DecidableEq, Repr, Inhabited

/-- What a template reads by name. -/
structure Context where
  /-- The template it was made for. -/
  template : String
  /-- What its caller gave. -/
  given : List (String × Value)
  /-- What it wrote at its top level. -/
  own : List (String × Value)
  /-- The names that importers can see. -/
  exported : List String
  /-- The blocks under each name, those of the child first. -/
  blocks : List (String × List BlockRef)
  deriving Inhabited

/-- Where code runs. -/
structure Place where
  /-- The template that holds the code. -/
  template : String
  /-- The scopes around it. -/
  scopes : Scopes
  /-- The activation. -/
  activation : Nat
  /-- The context. -/
  context : Nat
  /-- The code is at the top level of its template. -/
  isTop : Bool
  /-- Text is left out here once the template has a parent. -/
  yieldsToParent : Bool
  deriving Inhabited

/-- A macro. -/
structure Macro where
  /-- Its name; the body of a call has none. -/
  name : Option String
  /-- Its parameters. -/
  parameters : List Parameter
  /-- Its body. -/
  body : List Stmt
  /-- The names that it gets besides its parameters. -/
  special : List String
  /-- Where it was defined; its own scope is the innermost. -/
  place : Place
  deriving Inhabited

/-- The exports and the text of a template. -/
structure Module where
  /-- The template. -/
  template : String
  /-- What it exports. -/
  exports : List (String × Value)
  /-- Its text. -/
  text : String
  deriving Inhabited

/-- A loop that can be run again on other items. -/
structure LoopSite where
  /-- Where the loop stands. -/
  place : Place
  /-- What its items are written to. -/
  target : Target
  /-- Its body. -/
  body : List Stmt
  /-- What runs if there are no items. -/
  otherwise : List Stmt
  /-- The test that items have to pass. -/
  test : Option Expr
  deriving Inhabited

/-- The state of a loop. -/
structure LoopState where
  /-- The items. -/
  items : List Value
  /-- The position of the current one, from zero. -/
  index : Nat
  /-- How many loops of the same site are around it. -/
  depth : Nat
  /-- The site, if the loop is recursive. -/
  site : Option LoopSite
  /-- The values that were last checked for a change. -/
  seen : Option (List Value)
  deriving Inhabited

/-- A block at one level of inheritance. -/
structure BlockCall where
  /-- The name of the block. -/
  name : String
  /-- The context that it runs in. -/
  context : Nat
  /-- The blocks with that name, those of the child first. -/
  stack : List BlockRef
  /-- The position of this one. -/
  depth : Nat
  deriving Inhabited

/-- Items that can be drawn once; a failure may follow them. -/
structure Stream where
  /-- The items. -/
  items : List Value
  /-- The failure after them. -/
  failure : Option Failure
  deriving Inhabited

/-- Values that come in turn. -/
structure Cycle where
  /-- The values. -/
  items : List Value
  /-- The position of the current one. -/
  position : Nat
  deriving Inhabited

/-- Output that is being collected. -/
structure Buffer where
  /-- It belongs to an activation as a whole, not to a statement in it. -/
  isWhole : Bool
  /-- The pieces, the last one first. -/
  pieces : List String
  deriving Inhabited

/-- What a render keeps while it runs. -/
structure Store where
  /-- The activations. -/
  activations : Array Activation := #[]
  /-- The contexts. -/
  contexts : Array Context := #[]
  /-- The macros. -/
  macros : Array Macro := #[]
  /-- The modules. -/
  modules : Array Module := #[]
  /-- The modules that were made without a context, by template. -/
  shared : List (String × Nat) := []
  /-- The attributes of namespaces. -/
  spaces : Array (List (Value × Value)) := #[]
  /-- The loops. -/
  loops : Array LoopState := #[]
  /-- The streams. -/
  streams : Array Stream := #[]
  /-- The blocks that were referred to. -/
  blocks : Array BlockCall := #[]
  /-- The cycles. -/
  cycles : Array Cycle := #[]
  /-- The separators, and whether each was used before. -/
  joiners : Array (String × Bool) := #[]
  /-- The buffers, the innermost first. -/
  buffers : List Buffer := []
  deriving Inhabited

/-- Computing with a store; a failure ends the render. -/
abbrev Run (α : Type) := StateT Store (Except Failure) α

/-- The text of an object. -/
def Store.shown (st : Store) : Value.Shown := fun printed kind id =>
  match kind with
  | .routine =>
    match (st.macros[id]?).bind (·.name) with
    | some name => "<Macro " ++ Text.quoted name ++ ">"
    | none => "<Macro anonymous>"
  | .module =>
    let m := (st.modules[id]?).getD default
    if printed then m.text else "<TemplateModule " ++ Text.quoted m.template ++ ">"
  | .space =>
    "<Namespace " ++ (Value.dict ((st.spaces[id]?).getD [])).literal Value.kindOnly ++ ">"
  | .loop =>
    let l := (st.loops[id]?).getD default
    s!"<LoopContext {l.index + 1}/{l.items.length}>"
  | .blocks =>
    "<TemplateReference " ++ Text.quoted ((st.contexts[id]?).getD default).template ++ ">"
  | kind => Value.kindOnly printed kind id

/-- The value in a slot, seen from an activation; the count bounds how many
activations are around it. -/
def Store.slotFrom? (st : Store) (slot : Slot) : Nat → Nat → Option Value
  | 0, _ => none
  | n + 1, act =>
    match st.activations[act]? with
    | none => none
    | some a =>
      if a.base ≤ slot.1 then a.cells.lookup slot
      else
        match a.outer with
        | none => none
        | some o => st.slotFrom? slot n o

/-- The activation that owns a slot, seen from an activation. -/
def Store.ownerFrom (st : Store) (slot : Slot) : Nat → Nat → Nat
  | 0, act => act
  | n + 1, act =>
    match st.activations[act]? with
    | none => act
    | some a =>
      if a.base ≤ slot.1 then act
      else
        match a.outer with
        | none => act
        | some o => st.ownerFrom slot n o

/-- The cells with a slot's value replaced, or without the slot. -/
def setCell (slot : Slot) (v : Option Value) (cells : List (Slot × Value)) :
    List (Slot × Value) :=
  let rest := cells.filter (·.1 != slot)
  match v with
  | some v => (slot, v) :: rest
  | none => rest

namespace Run

/-- A failure of some kind. -/
def fail {α : Type} (kind : FailureKind) (message : String) : Run α :=
  throw ⟨kind, message⟩

/-- The value in a slot. -/
def slot? (p : Place) (slot : Slot) : Run (Option Value) := do
  let st ← get
  return st.slotFrom? slot (st.activations.size + 1) p.activation

/-- Writes a slot; nothing empties it. -/
def setSlot (p : Place) (slot : Slot) (v : Option Value) : Run Unit :=
  modify fun st =>
    let owner := st.ownerFrom slot (st.activations.size + 1) p.activation
    { st with activations := st.activations.modify owner fun a =>
        { a with cells := setCell slot v a.cells } }

/-- Starts an activation. -/
def activate (base : Nat) (outer : Option Nat) : Run Nat :=
  modifyGet fun st =>
    (st.activations.size,
      { st with activations := st.activations.push ⟨base, [], outer, none⟩ })

/-- Makes a context. -/
def newContext (c : Context) : Run Nat :=
  modifyGet fun st => (st.contexts.size, { st with contexts := st.contexts.push c })

/-- A context. -/
def context (id : Nat) : Run Context := do
  return ((← get).contexts[id]?).getD default

/-- Changes a context. -/
def modifyContext (id : Nat) (f : Context → Context) : Run Unit :=
  modify fun st => { st with contexts := st.contexts.modify id f }

/-- The value of a name in a context. -/
def lookup? (id : Nat) (name : String) : Run (Option Value) := do
  let c ← context id
  match c.own.lookup name with
  | some v => return some v
  | none => return c.given.lookup name

/-- Adds output to the innermost buffer. -/
def write (s : String) : Run Unit :=
  modify fun st =>
    match st.buffers with
    | b :: rest => { st with buffers := { b with pieces := s :: b.pieces } :: rest }
    | [] => st

/-- Buffers with output added to the innermost one that is whole. -/
def addWhole (s : String) : List Buffer → List Buffer
  | [] => []
  | b :: rest =>
    if b.isWhole then { b with pieces := s :: b.pieces } :: rest else b :: addWhole s rest

/-- Adds output to that of the activation as a whole, past the statements
around it that collect theirs. -/
def writeWhole (s : String) : Run Unit :=
  modify fun st => { st with buffers := addWhole s st.buffers }

/-- Runs something and takes its output. -/
def capture (isWhole : Bool) (act : Run Unit) : Run String := do
  modify fun st => { st with buffers := ⟨isWhole, []⟩ :: st.buffers }
  act
  let st ← get
  match st.buffers with
  | b :: rest =>
    set { st with buffers := rest }
    return Text.joinStrings "" b.pieces.reverse
  | [] => return ""

/-- The text that printing a value gives. -/
def display (v : Value) : Run String := do
  v.display (← get).shown

/-- Makes a stream. -/
def newStream (items : List Value) (failure : Option Failure) : Run Value :=
  modifyGet fun st =>
    (.object .stream st.streams.size, { st with streams := st.streams.push ⟨items, failure⟩ })

/-- Makes a namespace. -/
def newSpace (es : List (Value × Value)) : Run Value :=
  modifyGet fun st => (.object .space st.spaces.size, { st with spaces := st.spaces.push es })

/-- Makes a reference to a block. -/
def newBlock (b : BlockCall) : Run Value :=
  modifyGet fun st => (.object .block st.blocks.size, { st with blocks := st.blocks.push b })

/-- The items of a value; those of a stream are drawn. -/
def iterate (v : Value) : Run (List Value) := do
  match v with
  | .object .stream id =>
    let s := ((← get).streams[id]?).getD default
    modify fun st => { st with streams := st.streams.modify id fun _ => ⟨[], none⟩ }
    match s.failure with
    | some f => throw f
    | none => return s.items
  | v => v.items

/-- A value that does not exist, as the state of a loop gives it. -/
def notThere (message : String) : Value :=
  .undefined { message := message }

/-- An attribute of the state of a loop. -/
def loopAttribute? (id : Nat) (l : LoopState) (name : String) : Option Value :=
  let count := l.items.length
  match name with
  | "index" => some (.int (l.index + 1))
  | "index0" => some (.int l.index)
  | "revindex" => some (.int (Int.ofNat count - l.index))
  | "revindex0" => some (.int (Int.ofNat count - l.index - 1))
  | "first" => some (.bool (l.index == 0))
  | "last" => some (.bool (l.index + 1 ≥ count))
  | "length" => some (.int count)
  | "depth" => some (.int (l.depth + 1))
  | "depth0" => some (.int l.depth)
  | "previtem" =>
    some (if l.index == 0 then notThere "there is no previous item"
      else (l.items[l.index - 1]?).getD .none)
  | "nextitem" => some ((l.items[l.index + 1]?).getD (notThere "there is no next item"))
  | "cycle" => some (.method (.object .loop id) name)
  | "changed" => some (.method (.object .loop id) name)
  | _ => none

/-- The reference to a block of the template that is rendered. -/
def blockNamed (context : Nat) (name : String) : Run (Option Value) := do
  let c ← Run.context context
  match c.blocks.lookup name with
  | some (b :: more) => return some (← newBlock ⟨name, context, b :: more, 0⟩)
  | _ => return none

/-- The block above another one, or a value that does not exist. -/
def blockAbove (b : BlockCall) : Run Value := do
  if b.depth + 1 < b.stack.length then newBlock { b with depth := b.depth + 1 }
  else return notThere s!"there is no parent block called {Text.quoted b.name}."

/-- An attribute of an object. -/
def objectAttribute? (kind : ObjectKind) (id : Nat) (name : String) : Run (Option Value) := do
  let st ← get
  match kind with
  | .routine =>
    let m := (st.macros[id]?).getD default
    match name with
    | "name" => return some ((m.name.map Value.text).getD .none)
    | "arguments" => return some (.tuple (m.parameters.map fun p => .text p.1))
    | "catch_kwargs" => return some (.bool (m.special.contains "kwargs"))
    | "catch_varargs" => return some (.bool (m.special.contains "varargs"))
    | "caller" => return some (.bool (m.special.contains "caller"))
    | _ => return none
  | .module => return (((st.modules[id]?).getD default).exports).lookup name
  | .space => return Value.findText? ((st.spaces[id]?).getD []) name
  | .loop => return loopAttribute? id ((st.loops[id]?).getD default) name
  | .blocks => blockNamed id name
  | .block =>
    if name == "super" then some <$> blockAbove ((st.blocks[id]?).getD default) else return none
  | .cycler =>
    let c := (st.cycles[id]?).getD default
    match name with
    | "current" => return some ((c.items[c.position]?).getD .none)
    | "next" => return some (.method (.object .cycler id) name)
    | "reset" => return some (.method (.object .cycler id) name)
    | "items" => return some (.tuple c.items)
    | _ => return none
  | .joiner => return none
  | .stream => return none

/-- An attribute of a value. -/
def member? (v : Value) (name : String) : Run (Option Value) :=
  match v with
  | .undefined u => Value.missing u
  | .object kind id => objectAttribute? kind id name
  | v => return v.attribute? name

/-- What a value gives under a name after a dot: an attribute, else an item,
else a value that does not exist. -/
def member (v : Value) (name : String) : Run Value := do
  match ← member? v name with
  | some w => return w
  | none =>
    match ← v.item? (.text name) with
    | some w => return w
    | none => return v.lacks (.text name) ""

/-- What a value gives under a key in brackets: an item, else an attribute,
else a value that does not exist. -/
def item (v key : Value) : Run Value := do
  match ← v.item? key with
  | some w => return w
  | none =>
    let found ← match key with
      | .text name => member? v name
      | _ => pure none
    match found with
    | some w => return w
    | none => return v.lacks key (key.literal (← get).shown)

end Run

end Template

end Stencil
