import Stencil.Template.Mention

/-!
# Scopes

Where the variables of a template live.

A scope lists the names that a body mentions and how each gets its first value
when the body is entered: from a caller, from the same name in a scope around
it, from the context by name, or not at all. It is found by reading the body
once, before it runs, so where a name is read does not depend on what runs.

A slot is a level and a name. The level of a scope is the number of scopes
around it, so sibling scopes share their slots, one after the other.

A name that only some branches of a choice write keeps its outer value on the
others; that is why branches are read apart and merged.

## Main definitions

* `Origin`: How a variable gets its first value.
* `Scope`, `Scopes`: The names of one body, and a stack of scopes.
* `Scopes.slot?`: The slot of a name.
* `Scope.ofBody`, `Scope.ofLoop`, `Scope.ofMacro`: The scopes of bodies.
* `Scopes.written`: The slots that a nested template can read.
-/

namespace Stencil

namespace Template

/-- A place for a value: the level of a scope, and a name. -/
abbrev Slot := Nat × String

/-- How a variable gets its first value. -/
inductive Origin where
  /-- From whoever enters the scope. -/
  | parameter
  /-- From the context, under its name. -/
  | context
  /-- From a slot of a scope around. -/
  | copy (slot : Slot)
  /-- Not at all. -/
  | unset
  deriving DecidableEq, Repr

/-- The names of one body. -/
structure Scope where
  /-- The names, with how each gets its first value. -/
  origins : List (String × Origin)
  /-- The names that are written. -/
  written : List String
  deriving DecidableEq, Repr, Inhabited

/-- A stack of scopes, the innermost first. -/
abbrev Scopes := List Scope

/-- The slot of a name: in the innermost scope that has it. -/
def Scopes.slot? : Scopes → String → Option Slot
  | [], _ => none
  | s :: outer, name =>
    if (s.origins.lookup name).isSome then some (outer.length, name)
    else Scopes.slot? outer name

/-- A list of pairs with the value of a key replaced, or added at the end. -/
def setPair {α : Type} (key : String) (value : α) : List (String × α) → List (String × α)
  | [] => [(key, value)]
  | (k, v) :: rest =>
    if k == key then (k, value) :: rest else (k, v) :: setPair key value rest

namespace Scope

/-- A scope without names. -/
def empty : Scope :=
  ⟨[], []⟩

/-- The scope with a name's origin. -/
def define (s : Scope) (name : String) (origin : Origin) : Scope :=
  { s with origins := setPair name origin s.origins }

/-- The scope with a name counted as written. -/
def mark (s : Scope) (name : String) : Scope :=
  if s.written.contains name then s else { s with written := s.written ++ [name] }

/-- The scope after a name is read in it. -/
def read (outer : Scopes) (s : Scope) (name : String) : Scope :=
  if (Scopes.slot? (s :: outer) name).isSome then s else s.define name .context

/-- The scope after names are read in it. -/
def readAll (outer : Scopes) (s : Scope) (names : List String) : Scope :=
  names.foldl (read outer) s

/-- The scope after a name is written in it. -/
def write (outer : Scopes) (s : Scope) (name : String) : Scope :=
  let s := s.mark name
  if (s.origins.lookup name).isSome then s
  else
    match Scopes.slot? outer name with
    | some slot => s.define name (.copy slot)
    | none => s.define name .unset

/-- The scope with a parameter. -/
def declare (s : Scope) (name : String) : Scope :=
  (s.mark name).define name .parameter

/-- The scope after a target is written in it. -/
def writeTarget (outer : Scopes) (s : Scope) (t : Target) : Scope :=
  let s := s.readAll outer t.spaces
  t.names.foldl (fun s n => s.write outer n.1) s

/-- The scope with the names of a target as parameters. -/
def declareTarget (s : Scope) (t : Target) : Scope :=
  t.names.foldl (fun s n => s.declare n.1) s

/-- The scope after branches that were read apart. A name that a branch writes
for the first time starts with its outer value, since another branch may not
write it. -/
def merge (outer : Scopes) (s : Scope) (branches : List Scope) : Scope :=
  let fresh := ((branches.flatMap (·.written)).eraseDups).filter fun n => !s.written.contains n
  let joined := branches.foldl (fun s b =>
    b.written.foldl mark (b.origins.foldl (fun s o => s.define o.1 o.2) s)) s
  fresh.foldl (fun s n =>
    match Scopes.slot? outer n with
    | some slot => s.define n (.copy slot)
    | none => s.define n .context) joined

mutual
/-- The scope after a statement is read in it. Bodies with scopes of their own
are not looked into. -/
def visit (outer : Scopes) (s : Scope) : Stmt → Scope
  | .data _ => s
  | .print e => s.readAll outer e.names
  | .loop _ items _ _ _ _ => s.readAll outer items.names
  | .branch test body others otherwise =>
    let s := s.readAll outer test.names
    s.merge outer [visitAll outer s body, visitAll outer s others, visitAll outer s otherwise]
  | .define name _ _ _ => s.write outer name
  | .callBlock f args _ _ _ => s.readAll outer (f.names ++ args.names)
  | .filterBlock f _ => s.readAll outer f.names
  | .scope _ vs _ => s.readAll outer (Expr.namesOf vs)
  | .block _ _ _ _ _ => s
  | .embed e _ _ => s.readAll outer e.names
  | .importAll e name _ => (s.readAll outer e.names).write outer name
  | .importNames e names _ _ =>
    names.foldl (fun s n => s.write outer n.2) (s.readAll outer e.names)
  | .inherit e _ => s.readAll outer e.names
  | .assign t e => (s.readAll outer e.names).writeTarget outer t
  | .capture t _ _ => s.writeTarget outer t
  | .setting _ _ => s

/-- The scope after statements are read in it. -/
def visitAll (outer : Scopes) (s : Scope) : List Stmt → Scope
  | [] => s
  | st :: rest => visitAll outer (visit outer s st) rest
end

/-- The scope of a body, with some parameters. -/
def ofBody (outer : Scopes) (parameters : List String) (body : List Stmt) : Scope :=
  visitAll outer (parameters.foldl declare empty) body

/-- The scope of a loop's body, or of its test. -/
def ofLoop (outer : Scopes) (parameters : List String) (t : Target) (body : List Stmt) : Scope :=
  visitAll outer ((parameters.foldl declare empty).declareTarget t) body

/-- The scope of a loop's test. -/
def ofTest (outer : Scopes) (t : Target) (test : Expr) : Scope :=
  (empty.declareTarget t).readAll outer test.names

/-- The scope of a macro; `special` are names that it gets besides its
parameters. -/
def ofMacro (outer : Scopes) (ps : List Parameter) (special : List String) (body : List Stmt) :
    Scope :=
  let named := (ps.map Prod.fst).foldl declare empty
  let read := named.readAll outer (ps.flatMap fun p => Expr.namesIn p.2)
  special.foldl declare (visitAll outer read body)

/-- The scope of a body that runs with variables of its own. -/
def ofBindings (outer : Scopes) (ts : List Target) (body : List Stmt) : Scope :=
  visitAll outer (ts.foldl declareTarget empty) body

/-- The scope of a body that is printed through a filter. -/
def ofFilter (outer : Scopes) (f : Expr) (body : List Stmt) : Scope :=
  (visitAll outer empty body).readAll outer f.names

/-- The scope of a body with a setting. -/
def ofSetting (outer : Scopes) (e : Expr) (body : List Stmt) : Scope :=
  visitAll outer (empty.readAll outer e.names) body

end Scope

/-- The names that are written in a stack of scopes, each with its slot. -/
def Scopes.written (ss : Scopes) : List (String × Slot) :=
  ((ss.flatMap (·.written)).eraseDups).filterMap fun n =>
    (Scopes.slot? ss n).map fun slot => (n, slot)

end Template

end Stencil
