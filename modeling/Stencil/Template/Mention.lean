import Stencil.Template.Syntax

/-!
# Names in Templates

Which names a piece of syntax mentions, and which statements it holds.

A mention reads a name or binds it. Mentions are listed in the order of the
parts of a statement, not of its text: a loop's test comes after its body.
`freeAmong` uses that order to find the special names that a body reads before
anything in it binds them.

## Main definitions

* `Expr.names`: The names that an expression reads.
* `Stmt.mentions`: The names that a statement reads and binds.
* `freeAmong`: The names of a list that are read before they are bound.
* `Stmt.collect`: What a function finds in a statement and those inside it.
-/

namespace Stencil

namespace Template

mutual
/-- The names that an expression reads. -/
def Expr.names : Expr → List String
  | .const _ => []
  | .name s => [s]
  | .tuple es => Expr.namesOf es
  | .list es => Expr.namesOf es
  | .dict es => Expr.namesOf es
  | .unary _ e => e.names
  | .binary _ a b => a.names ++ b.names
  | .not e => e.names
  | .and a b => a.names ++ b.names
  | .or a b => a.names ++ b.names
  | .concat es => Expr.namesOf es
  | .compare e _ es => e.names ++ Expr.namesOf es
  | .cond t y n _ => t.names ++ y.names ++ Expr.namesIn n
  | .attribute e _ => e.names
  | .item e k => e.names ++ k.names
  | .slice a b c => Expr.namesIn a ++ Expr.namesIn b ++ Expr.namesIn c
  | .call f args => f.names ++ args.names
  | .filter e _ args _ => Expr.namesIn e ++ args.names
  | .test e _ args _ => e.names ++ args.names

/-- The names that expressions read. -/
def Expr.namesOf : List Expr → List String
  | [] => []
  | e :: es => e.names ++ Expr.namesOf es

/-- The names that an expression reads, if there is one. -/
def Expr.namesIn : Option Expr → List String
  | none => []
  | some e => e.names

/-- The names that arguments read. -/
def Arguments.names : Arguments → List String
  | .mk ps _ vs m n => Expr.namesOf ps ++ Expr.namesOf vs ++ Expr.namesIn m ++ Expr.namesIn n
end

/-- A mention of a name. -/
inductive Mention where
  /-- Its value is read. -/
  | reads (name : String)
  /-- It is bound to a value. -/
  | binds (name : String)
  deriving DecidableEq, Repr

/-- The mentions of an expression. -/
def Expr.mentions (e : Expr) : List Mention :=
  e.names.map .reads

/-- The mentions of a target. -/
def Target.mentions (t : Target) : List Mention :=
  t.names.map fun n => .binds n.1

/-- The mentions of parameters: their names first, then their defaults. -/
def parameterMentions (ps : List Parameter) : List Mention :=
  ps.map (fun p => .binds p.1) ++ ps.flatMap fun p => (Expr.namesIn p.2).map .reads

mutual
/-- The names that a statement reads and binds. Blocks are not looked into. -/
def Stmt.mentions : Stmt → List Mention
  | .data _ => []
  | .print e => e.mentions
  | .loop t items body otherwise test _ =>
    t.mentions ++ items.mentions ++ Stmt.mentionsOf body ++ Stmt.mentionsOf otherwise ++
      (Expr.namesIn test).map .reads
  | .branch test body others otherwise =>
    test.mentions ++ Stmt.mentionsOf body ++ Stmt.mentionsOf others ++ Stmt.mentionsOf otherwise
  | .define _ ps body _ => parameterMentions ps ++ Stmt.mentionsOf body
  | .callBlock f args ps body _ =>
    f.mentions ++ args.names.map .reads ++ parameterMentions ps ++ Stmt.mentionsOf body
  | .filterBlock f body => Stmt.mentionsOf body ++ f.mentions
  | .scope ts vs body =>
    ts.flatMap Target.mentions ++ vs.flatMap Expr.mentions ++ Stmt.mentionsOf body
  | .block _ _ _ _ _ => []
  | .embed e _ _ => e.mentions
  | .importAll e _ _ => e.mentions
  | .importNames e _ _ _ => e.mentions
  | .inherit e _ => e.mentions
  | .assign t e => t.mentions ++ e.mentions
  | .capture t f body => t.mentions ++ (Expr.namesIn f).map .reads ++ Stmt.mentionsOf body
  | .setting e body => e.mentions ++ Stmt.mentionsOf body

/-- The names that statements read and bind. -/
def Stmt.mentionsOf : List Stmt → List Mention
  | [] => []
  | s :: ss => s.mentions ++ Stmt.mentionsOf ss
end

/-- The names among `names` that are read before they are bound. -/
def freeAmong (names : List String) : List Mention → List String
  | [] => []
  | .reads n :: ms => (if names.contains n then [n] else []) ++ freeAmong names ms
  | .binds n :: ms => freeAmong (names.filter (· != n)) ms

/-- A body reads a name before it binds it. -/
def readsFree (name : String) (body : List Stmt) : Bool :=
  !(freeAmong [name] (Stmt.mentionsOf body)).isEmpty

mutual
/-- What a function finds in a statement and then in those inside it. -/
def Stmt.collect {α : Type} (f : Stmt → List α) (s : Stmt) : List α :=
  f s ++ match s with
  | .loop _ _ body otherwise _ _ => Stmt.collectAll f body ++ Stmt.collectAll f otherwise
  | .branch _ body others otherwise =>
    Stmt.collectAll f body ++ Stmt.collectAll f others ++ Stmt.collectAll f otherwise
  | .define _ _ body _ => Stmt.collectAll f body
  | .callBlock _ _ _ body _ => Stmt.collectAll f body
  | .filterBlock _ body => Stmt.collectAll f body
  | .scope _ _ body => Stmt.collectAll f body
  | .block _ body _ _ _ => Stmt.collectAll f body
  | .capture _ _ body => Stmt.collectAll f body
  | .setting _ body => Stmt.collectAll f body
  | _ => []

/-- What a function finds in statements and those inside them. -/
def Stmt.collectAll {α : Type} (f : Stmt → List α) : List Stmt → List α
  | [] => []
  | s :: ss => s.collect f ++ Stmt.collectAll f ss
end

/-- A block of a template. -/
structure Block where
  /-- Its name. -/
  name : String
  /-- Its content. -/
  body : List Stmt
  /-- Its content reads the variables around it. -/
  isScoped : Bool
  /-- The line of its tag. -/
  line : Nat
  deriving Inhabited

/-- The blocks among statements and inside them, outer ones first. -/
def blocksOf (body : List Stmt) : List Block :=
  Stmt.collectAll (fun s => match s with
    | .block name inner isScoped _ line => [⟨name, inner, isScoped, line⟩]
    | _ => []) body

/-- The statements make another template the parent. -/
def inherits (body : List Stmt) : Bool :=
  !(Stmt.collectAll (fun s => match s with
    | .inherit _ _ => [()]
    | _ => []) body).isEmpty

/-- The variables that loops and assignments write, with their lines. -/
def writtenNames (body : List Stmt) : List (String × Nat) :=
  Stmt.collectAll (fun s => match s with
    | .loop t _ _ _ _ _ => t.names
    | .assign t _ => t.names
    | .capture t _ _ => t.names
    | _ => []) body

end Template

end Stencil
