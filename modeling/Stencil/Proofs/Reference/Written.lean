import Stencil.Reference.Directive
import Stencil.Template.Mention
import Stencil.Template.Parse.Stmt

/-!
# Written References

The references that a template makes according to its own syntax tree.

A statement that includes, extends or imports another template makes a
reference if its whole target is one text. Statements inside other statements
count as well, and the order is that of the source.

The scanner of static references reads the characters instead. It blanks out
comments before raw blocks, so the start of a comment inside of a raw block
hides what follows it up to the next end of a comment.

## Main definitions

* `Stmt.ownReference`: The reference that a statement itself makes.
* `references`: The references of statements and of those inside them.
* `Directive.key`: What a directive says about its tag and its target.

## Theorems

* `scan_ne_references`: The scanner can miss a reference after a raw block.
-/

namespace Stencil

/-- The tag and the target of a directive. -/
def Directive.key (d : Directive) : Tag × String :=
  (d.tag, d.name)

namespace Template

/-- The reference that a tag makes by its target, if that is a text. -/
def Expr.reference (tag : Tag) : Expr → List (Tag × String)
  | .const (.text s) => [(tag, s)]
  | _ => []

/-- The reference that a statement itself makes. -/
def Stmt.ownReference : Stmt → List (Tag × String)
  | .embed e _ _ => e.reference .includes
  | .inherit e _ => e.reference .inherits
  | .importAll e _ _ => e.reference .imports
  | .importNames e _ _ _ => e.reference .importsFrom
  | _ => []

/-- The references of statements and of those inside them, in order. -/
def references (body : List Stmt) : List (Tag × String) :=
  Stmt.collectAll Stmt.ownReference body

/-- A raw block that holds the start of a comment, a reference, and a comment. -/
def hiddenReference : String :=
  "\x7b% raw %\x7d\x7b#\x7b% endraw %\x7d\x7b% include 'x' %\x7d\x7b# #\x7d"

/-- The references of a statement and of those inside it. -/
def Stmt.references (s : Stmt) : List (Tag × String) :=
  s.collect Stmt.ownReference

theorem references_nil : references [] = [] :=
  rfl

theorem references_cons (s : Stmt) (ss : List Stmt) :
    references (s :: ss) = s.references ++ references ss := by
  rw [references, Stmt.collectAll]
  rfl

theorem references_append (ss us : List Stmt) :
    references (ss ++ us) = references ss ++ references us := by
  induction ss with
  | nil => rfl
  | cons s ss ih => rw [List.cons_append, references_cons, references_cons, ih, List.append_assoc]

theorem references_singleton (s : Stmt) : references [s] = s.references := by
  rw [references_cons, references_nil, List.append_nil]

namespace Stmt

theorem references_loop (t : Target) (items : Expr) (body otherwise : List Stmt)
    (test : Option Expr) (recursive : Bool) :
    (Stmt.loop t items body otherwise test recursive).references =
      Template.references body ++ Template.references otherwise :=
  rfl

theorem references_branch (test : Expr) (body others otherwise : List Stmt) :
    (Stmt.branch test body others otherwise).references =
      Template.references body ++ Template.references others ++ Template.references otherwise :=
  rfl

theorem references_define (name : String) (ps : List Parameter) (body : List Stmt) (line : Nat) :
    (Stmt.define name ps body line).references = Template.references body :=
  rfl

theorem references_callBlock (f : Expr) (args : Arguments) (ps : List Parameter)
    (body : List Stmt) (line : Nat) :
    (Stmt.callBlock f args ps body line).references = Template.references body :=
  rfl

theorem references_filterBlock (filter : Expr) (body : List Stmt) :
    (Stmt.filterBlock filter body).references = Template.references body :=
  rfl

theorem references_scope (ts : List Target) (vs : List Expr) (body : List Stmt) :
    (Stmt.scope ts vs body).references = Template.references body :=
  rfl

theorem references_block (name : String) (body : List Stmt) (isScoped isRequired : Bool)
    (line : Nat) :
    (Stmt.block name body isScoped isRequired line).references = Template.references body :=
  rfl

theorem references_capture (t : Target) (filter : Option Expr) (body : List Stmt) :
    (Stmt.capture t filter body).references = Template.references body :=
  rfl

theorem references_setting (value : Expr) (body : List Stmt) :
    (Stmt.setting value body).references = Template.references body :=
  rfl

theorem references_embed (e : Expr) (withContext ignoreMissing : Bool) :
    (Stmt.embed e withContext ignoreMissing).references = e.reference .includes :=
  List.append_nil _

theorem references_inherit (e : Expr) (line : Nat) :
    (Stmt.inherit e line).references = e.reference .inherits :=
  List.append_nil _

theorem references_importAll (e : Expr) (name : String) (withContext : Bool) :
    (Stmt.importAll e name withContext).references = e.reference .imports :=
  List.append_nil _

theorem references_importNames (e : Expr) (names : List (String × String)) (withContext : Bool)
    (line : Nat) :
    (Stmt.importNames e names withContext line).references = e.reference .importsFrom :=
  List.append_nil _

end Stmt

theorem references_hiddenReference :
    (parse hiddenReference).toOption.map references = some [(.includes, "x")] := by
  decide +kernel

theorem scan_ne_references :
    ¬ ∀ text stmts, parse text = .ok stmts →
      (Reference.scan text).map Directive.key = references stmts := by
  intro h
  have written := references_hiddenReference
  have scanned : Reference.scan hiddenReference = [] := by decide +kernel
  cases hp : parse hiddenReference with
  | error e =>
    rw [hp] at written
    exact absurd written (Option.some_ne_none _).symm
  | ok stmts =>
    rw [hp] at written
    have agreed := h hiddenReference stmts hp
    rw [scanned, Option.some.inj written] at agreed
    exact absurd agreed (by decide)

end Template

end Stencil
