import Stencil.Template.Token.Basic

/-!
# The Syntax of Templates

Expressions, targets and statements.

A statement that opens a scope of its own holds its body as a list, and the
places where names are written are `Target`s rather than expressions, so that
reading and writing a name cannot be confused. Lines are kept where a report
can name them and nowhere else.

## Main definitions

* `Expr`, `Arguments`: Expressions, and the arguments of a call.
* `Target`: A place that a value is written to.
* `Stmt`: Statements.
* `Expr.kindName`: How a report names the kind of an expression.
-/

namespace Stencil

namespace Template

/-- A value that is written down. -/
inductive Constant where
  /-- Nothing. -/
  | none
  /-- A truth value. -/
  | bool (b : Bool)
  /-- A whole number. -/
  | int (n : Nat)
  /-- A number with a fraction or an exponent. -/
  | float (x : Binary64)
  /-- A text. -/
  | text (s : String)
  deriving DecidableEq, Repr

/-- An operation on one value. -/
inductive UnaryOp where
  | neg | pos
  deriving DecidableEq, Repr

/-- An operation on two values. -/
inductive BinaryOp where
  | add | sub | mul | div | floorDiv | mod | pow
  deriving DecidableEq, Repr

/-- A comparison. -/
inductive CompareOp where
  | eq | ne | lt | le | gt | ge | isIn | notIn
  deriving DecidableEq, Repr

mutual
/-- An expression. -/
inductive Expr where
  /-- A value that is written down. -/
  | const (c : Constant)
  /-- A variable. -/
  | name (s : String)
  /-- A tuple. -/
  | tuple (items : List Expr)
  /-- A list. -/
  | list (items : List Expr)
  /-- A map; keys and values alternate. -/
  | dict (items : List Expr)
  /-- An operation on one value. -/
  | unary (op : UnaryOp) (e : Expr)
  /-- An operation on two values. -/
  | binary (op : BinaryOp) (a b : Expr)
  /-- Negation. -/
  | not (e : Expr)
  /-- The second value if the first one holds, else the first one. -/
  | and (a b : Expr)
  /-- The first value if it holds, else the second one. -/
  | or (a b : Expr)
  /-- The texts of values, joined. -/
  | concat (items : List Expr)
  /-- A chain of comparisons. -/
  | compare (first : Expr) (ops : List CompareOp) (rest : List Expr)
  /-- The second value if the first one holds, else the third one, if any. -/
  | cond (test yes : Expr) (no : Option Expr) (line : Nat)
  /-- An attribute. -/
  | attribute (e : Expr) (name : String)
  /-- An item. -/
  | item (e : Expr) (key : Expr)
  /-- A range of items; as an item's key it takes a part of a sequence. -/
  | slice (start stop step : Option Expr)
  /-- A call. -/
  | call (callee : Expr) (args : Arguments)
  /-- A filter; without a value it applies to what is captured around it. -/
  | filter (e : Option Expr) (name : String) (args : Arguments) (line : Nat)
  /-- A test. -/
  | test (e : Expr) (name : String) (args : Arguments) (line : Nat)

/-- The arguments of a call. -/
inductive Arguments where
  /-- Positional ones, named ones, and two expressions that stand for more. -/
  | mk (positional : List Expr) (names : List String) (values : List Expr)
    (more : Option Expr) (moreNamed : Option Expr)
end

instance : Inhabited Expr := ⟨.const .none⟩

/-- No arguments. -/
def Arguments.empty : Arguments :=
  .mk [] [] [] none none

/-- A place that a value is written to. -/
inductive Target where
  /-- A variable. -/
  | name (s : String) (line : Nat)
  /-- An attribute of a namespace. -/
  | member (space key : String)
  /-- Places for the items of a sequence. -/
  | tuple (items : List Target)
  deriving Repr, Inhabited

mutual
/-- The variables that are written. -/
def Target.names : Target → List (String × Nat)
  | .name s line => [(s, line)]
  | .member _ _ => []
  | .tuple items => Target.namesOf items

/-- The variables that are written by several. -/
def Target.namesOf : List Target → List (String × Nat)
  | [] => []
  | t :: ts => t.names ++ Target.namesOf ts
end

mutual
/-- The namespaces whose attributes are written. -/
def Target.spaces : Target → List String
  | .name _ _ => []
  | .member space _ => [space]
  | .tuple items => Target.spacesOf items

/-- The namespaces whose attributes are written by several. -/
def Target.spacesOf : List Target → List String
  | [] => []
  | t :: ts => t.spaces ++ Target.spacesOf ts
end

/-- A parameter with its default, if it has one. -/
abbrev Parameter := String × Option Expr

/-- A statement. -/
inductive Stmt where
  /-- Text. -/
  | data (s : String)
  /-- Prints a value. -/
  | print (e : Expr)
  /-- Runs a body for each item of a sequence that passes a test. -/
  | loop (target : Target) (items : Expr) (body : List Stmt) (otherwise : List Stmt)
    (test : Option Expr) (recursive : Bool)
  /-- Runs the first body whose test holds. -/
  | branch (test : Expr) (body : List Stmt) (others : List Stmt) (otherwise : List Stmt)
  /-- Defines a macro. -/
  | define (name : String) (parameters : List Parameter) (body : List Stmt) (line : Nat)
  /-- Calls with a body as an argument. -/
  | callBlock (callee : Expr) (args : Arguments) (parameters : List Parameter)
    (body : List Stmt) (line : Nat)
  /-- Prints a body through a filter. -/
  | filterBlock (filter : Expr) (body : List Stmt)
  /-- Runs a body with variables of its own. -/
  | scope (targets : List Target) (values : List Expr) (body : List Stmt)
  /-- A part that a child can replace. -/
  | block (name : String) (body : List Stmt) (isScoped isRequired : Bool) (line : Nat)
  /-- Prints another template. -/
  | embed (template : Expr) (withContext ignoreMissing : Bool)
  /-- Makes another template's exports available as one value. -/
  | importAll (template : Expr) (target : String) (withContext : Bool)
  /-- Makes some of another template's exports available: names and what they
  are called here. -/
  | importNames (template : Expr) (names : List (String × String)) (withContext : Bool)
    (line : Nat)
  /-- Makes another template the parent of this one. -/
  | inherit (template : Expr) (line : Nat)
  /-- Writes a value. -/
  | assign (target : Target) (value : Expr)
  /-- Writes the text of a body, passed through a filter. -/
  | capture (target : Target) (filter : Option Expr) (body : List Stmt)
  /-- Runs a body in a scope of its own, with a setting that has no effect. -/
  | setting (value : Expr) (body : List Stmt)

instance : Inhabited Stmt := ⟨.data ""⟩

/-- How a report names the kind of an operation on two values. -/
def BinaryOp.kindName : BinaryOp → String
  | .add => "add"
  | .sub => "sub"
  | .mul => "mul"
  | .div => "div"
  | .floorDiv => "floordiv"
  | .mod => "mod"
  | .pow => "pow"

/-- How a report names the kind of an expression. -/
def Expr.kindName : Expr → String
  | .const _ => "const"
  | .name _ => "name"
  | .tuple _ => "tuple"
  | .list _ => "list"
  | .dict _ => "dict"
  | .unary .neg _ => "neg"
  | .unary .pos _ => "pos"
  | .binary op _ _ => op.kindName
  | .not _ => "not"
  | .and _ _ => "and"
  | .or _ _ => "or"
  | .concat _ => "concat"
  | .compare _ _ _ => "compare"
  | .cond _ _ _ _ => "condexpr"
  | .attribute _ _ => "getattr"
  | .item _ _ => "getitem"
  | .slice _ _ _ => "slice"
  | .call _ _ => "call"
  | .filter _ _ _ _ => "filter"
  | .test _ _ _ _ => "test"

end Template

end Stencil
