import Stencil.Template.Exec
import Stencil.Template.Parse.Stmt

/-!
# Checks

What is refused before a template runs.

A template that can be read may still make no sense: a filter that does not
exist, two blocks of one name, a parent that is named inside a loop. Such
mistakes are reported when the template is loaded, whether or not the code
runs, in the order in which the code stands; the contents of blocks come
after everything else. A filter inside a condition may not exist as long as
it is not used.

What stands after a parent is named at the top level is not looked at where
it would only print, and nothing is after a second parent.

## Main definitions

* `Stmt.check`: The mistakes of statements.
* `Page.read`: A template from its text.
-/

namespace Stencil

namespace Template

/-- What is known about the parents of a template that is checked. -/
structure Parents where
  /-- How many were named. -/
  count : Nat := 0
  /-- One was named for certain. -/
  isKnown : Bool := false

/-- Where a check is. -/
structure Standing where
  /-- The path of the template. -/
  path : String
  /-- It is inside a condition. -/
  isSoft : Bool
  /-- It is at the top level. -/
  isTop : Bool
  /-- It is at the top level and inside no condition. -/
  isRoot : Bool
  /-- Text is left out here once there is a parent. -/
  yieldsToParent : Bool

/-- Checking. -/
abbrev Check (α : Type) := StateT Parents Outcome α

namespace Standing

/-- Inside a condition. -/
def softly (here : Standing) : Standing :=
  { here with isSoft := true, isRoot := false }

/-- In a scope of its own. -/
def within (here : Standing) : Standing :=
  { here with isSoft := false, isTop := false, isRoot := false }

/-- In a scope whose text is kept. -/
def keeping (here : Standing) : Standing :=
  { here.within with yieldsToParent := false }

/-- Refuses the template. -/
def refuse {α : Type} (here : Standing) (message : String) (line : Nat) : Check α :=
  throw (Mistake.failure { message := message, line := line, isAssertion := true } here.path)

/-- Refuses a filter that does not exist. -/
def checkFilter (here : Standing) (name : String) (line : Nat) : Check Unit :=
  if filterNames.contains name || here.isSoft then return
  else here.refuse s!"No filter named {Text.quoted name}." line

/-- Refuses a test that does not exist. -/
def checkTest (here : Standing) (name : String) (line : Nat) : Check Unit :=
  if testNames.contains name || here.isSoft then return
  else here.refuse s!"No test named {Text.quoted name}." line

end Standing

mutual
/-- Checks an expression. -/
def Expr.check (here : Standing) : Expr → Check Unit
  | .const _ => return
  | .name _ => return
  | .tuple es => Expr.checkAll here es
  | .list es => Expr.checkAll here es
  | .dict es => Expr.checkAll here es
  | .unary _ e => e.check here
  | .binary _ a b => do
    a.check here
    b.check here
  | .not e => e.check here
  | .and a b => do
    a.check here
    b.check here
  | .or a b => do
    a.check here
    b.check here
  | .concat es => Expr.checkAll here es
  | .compare e _ es => do
    e.check here
    Expr.checkAll here es
  | .cond test yes no _ => do
    yes.check here.softly
    test.check here.softly
    Expr.checkIn here.softly no
  | .attribute e _ => e.check here
  | .item e k => do
    e.check here
    k.check here
  | .slice a b s => do
    Expr.checkIn here a
    Expr.checkIn here b
    Expr.checkIn here s
  | .call f args => do
    f.check here
    args.check here
  | .filter e name args line => do
    here.checkFilter name line
    Expr.checkIn here e
    args.check here
  | .test e name args line => do
    here.checkTest name line
    e.check here
    args.check here

/-- Checks expressions. -/
def Expr.checkAll (here : Standing) : List Expr → Check Unit
  | [] => return
  | e :: es => do
    e.check here
    Expr.checkAll here es

/-- Checks an expression, if there is one. -/
def Expr.checkIn (here : Standing) : Option Expr → Check Unit
  | none => return
  | some e => e.check here

/-- Checks arguments. -/
def Arguments.check (here : Standing) : Arguments → Check Unit
  | .mk ps _ vs m n => do
    Expr.checkAll here ps
    Expr.checkAll here vs
    Expr.checkIn here m
    Expr.checkIn here n
end

/-- The engine of expressions that are evaluated before anything runs. -/
def Engine.idle : Engine :=
  ⟨.empty, fun _ => Run.fail .general "nothing runs here"⟩

/-- Refuses to print a value that is known not to exist. -/
def checkPrinted (e : Expr) : Check Unit :=
  if e.isFixed then
    match (e.eval ⟨Engine.idle, default, ""⟩).run {} with
    | .ok (.undefined u, _) => if u.isLenient then return else Value.missing u
    | _ => return
  else return

/-- Refuses the body of a macro that reads its caller although it takes one as a
parameter without a default. -/
def checkCaller (here : Standing) (ps : List Parameter) (body : List Stmt) (line : Nat) :
    Check Unit :=
  let free := freeAmong ["caller", "kwargs", "varargs"] (Stmt.mentionsOf body)
  if free.contains "caller" && ps.any fun p => p.1 == "caller" && p.2.isNone then
    here.refuse ("When defining macros or call blocks the special \"caller\" argument must be " ++
      "omitted or be given a default.") line
  else return

/-- Checks the defaults of parameters. -/
def checkDefaults (here : Standing) : List Parameter → Check Unit
  | [] => return
  | (_, e) :: ps => do
    Expr.checkIn here e
    checkDefaults here ps

/-- Notes that a parent is named, and tells whether it is worth going on. -/
def checkParent (here : Standing) (template : Expr) (line : Nat) : Check Bool := do
  if !here.isTop then here.refuse "cannot use extend from a non top-level scope" line
  else
    let ps ← get
    if ps.count > 0 && ps.isKnown then return false
    else
      template.check here
      modify fun ps => ⟨ps.count + 1, ps.isKnown || here.isRoot⟩
      return true

mutual
/-- Checks a statement, and tells whether what comes after it is looked at. -/
def Stmt.check (here : Standing) : Stmt → Check Bool
  | .data _ => return true
  | .print e => do
    if here.yieldsToParent && (← get).isKnown then return true
    else
      checkPrinted e
      e.check here
      return true
  | .loop target items body otherwise test recursive => do
    Expr.checkIn here.within test
    match (target.names ++ writtenNames (body ++ otherwise)).find? (·.1 == "loop") with
    | some (_, line) => here.refuse "Can't assign to special loop variable in for-loop" line
    | none => pure ()
    -- Of several mistakes the first one is told, so the order matters.
    if recursive then
      Stmt.checkAll here.within body
      Stmt.checkAll here.within otherwise
      items.check here
    else
      items.check here
      Stmt.checkAll here.within body
      Stmt.checkAll here.within otherwise
    return true
  | .branch test body others otherwise => do
    test.check here.softly
    Stmt.checkAll here.softly body
    Stmt.checkAll here.softly others
    Stmt.checkAll here.softly otherwise
    return true
  | .define _ ps body line => do
    checkCaller here ps body line
    checkDefaults here.keeping ps
    Stmt.checkAll here.keeping body
    return true
  | .callBlock f args ps body line => do
    checkCaller here ps body line
    checkDefaults here.keeping ps
    Stmt.checkAll here.keeping body
    f.check here
    args.check here
    return true
  | .filterBlock filter body => do
    Stmt.checkAll here.within body
    filter.check here.within
    return true
  | .scope _ values body => do
    Expr.checkAll here values
    Stmt.checkAll here.within body
    return true
  | .block _ _ _ _ _ => return true
  | .embed e _ _ => do
    e.check here
    return true
  | .importAll e _ _ => do
    e.check here
    return true
  | .importNames e _ _ _ => do
    e.check here
    return true
  | .inherit e line => checkParent here e line
  | .assign _ e => do
    e.check here
    return true
  | .capture _ filter body => do
    Stmt.checkAll here.keeping body
    Expr.checkIn here.keeping filter
    return true
  | .setting e body => do
    e.check here.within
    Stmt.checkAll here.within body
    return true

/-- Checks statements. -/
def Stmt.checkAll (here : Standing) : List Stmt → Check Unit
  | [] => return
  | s :: ss => do
    if ← s.check here then Stmt.checkAll here ss else return
end

/-- Refuses a second block of one name; `seen` holds the names so far. -/
def checkBlockNames (here : Standing) (seen : List String) : List Block → Check Unit
  | [] => return
  | b :: bs =>
    if seen.contains b.name then
      here.refuse s!"block {Text.quoted b.name} defined twice" b.line
    else checkBlockNames here (b.name :: seen) bs

/-- Checks the contents of blocks. -/
def checkBlocks (here : Standing) : List Block → Check Unit
  | [] => return
  | b :: bs => do
    Stmt.checkAll here.keeping b.body
    checkBlocks here bs

/-- Checks a template. -/
def checkTemplate (path : String) (body : List Stmt) : Check Unit := do
  let blocks := blocksOf body
  let here : Standing := ⟨path, false, true, true, inherits body⟩
  checkBlockNames here [] blocks
  Stmt.checkAll here body
  checkBlocks here blocks

/-- A template from its text. -/
def Page.read (path text : String) : Outcome Page :=
  match parse text with
  | .error m => .error (m.failure path)
  | .ok body =>
    match (checkTemplate path body).run {} with
    | .ok _ => .ok ⟨path, body, blocksOf body⟩
    | .error f => .error f

end Template

end Stencil
