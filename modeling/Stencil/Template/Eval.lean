import Stencil.Template.Engine

/-!
# Evaluation

The values of expressions.

Operands are evaluated from left to right, and all of them before the
operation is tried, with the exceptions that the choices make: `and`, `or`, a
condition, and a chain of comparisons stop as soon as the rest cannot matter.

A variable is read from the slot that its scopes assign to it. A slot without
a value gives a value that does not exist.

## Main definitions

* `Site`: Where an expression is evaluated.
* `Expr.eval`: The value of an expression.
* `Expr.isFixed`: The value does not depend on where it is evaluated.
-/

namespace Stencil

namespace Template

/-- Where an expression is evaluated. -/
structure Site where
  /-- What calls lead to. -/
  engine : Engine
  /-- The place in the template. -/
  place : Place
  /-- The text that a filter without a value applies to. -/
  held : String := ""

/-- The value of a variable. -/
def readName (p : Place) (name : String) : Run Value := do
  match Scopes.slot? p.scopes name with
  | none =>
    Run.fail .unbound (s!"Tried to resolve a name to a reference that was unknown to the " ++
      s!"frame ({Text.quoted name})")
  | some slot =>
    match ← Run.slot? p slot with
    | some v => return v
    | none => return Run.notThere s!"{Text.quoted name} is undefined"

/-- The named arguments after those of a map are added. -/
def addNamed (named : List (String × Value)) (v : Value) : Run (List (String × Value)) := do
  match v with
  | .dict es =>
    es.foldlM (fun named e => do
      match e.1 with
      | .text k =>
        if (named.lookup k).isSome then
          Run.fail .badType
            s!"jinja2.runtime.Context.call() got multiple values for keyword argument '{k}'"
        else return named ++ [(k, e.2)]
      | _ => Run.fail .badType "keywords must be strings") named
  | .undefined u => Value.missing u
  | v =>
    Run.fail .badType
      s!"jinja2.runtime.Context.call() argument after ** must be a mapping, not {v.typeName}"

/-- The positional arguments that a value stands for. -/
def moreArgs (v : Value) : Run (List Value) := do
  match v with
  | .object .stream _ => Run.iterate v
  | .undefined u => (Value.undefined u).items
  | v =>
    match v.items? with
    | some xs => return xs
    | none =>
      Run.fail .badType
        (s!"jinja2.runtime.Context.call() argument after * must be an iterable, not " ++
          v.typeName)

/-- A result of a comparison; a stream on the right is drawn. -/
def compareValues (op : CompareOp) (v w : Value) : Run Bool := do
  match op with
  | .isIn => holdsValue w v
  | .notIn => return !(← holdsValue w v)
  | op => return ← Value.compare op v w

/-- How far the names of filters that are values can lead on. -/
def filterDepth : Nat := 100

/-- The value of a conditional expression without a second choice. -/
def noChoice (template : String) (line : Nat) : Value :=
  .undefined {
    message := s!"the inline if-expression on line {line} in {Text.quoted template} " ++
      "evaluated to false and no else section was defined."
    isLenient := true }

mutual
/-- The value of an expression. -/
def Expr.eval (c : Site) : Expr → Run Value
  | .const k => return .ofConstant k
  | .name s => readName c.place s
  | .tuple es => do return .tuple (← Expr.evalAll c es)
  | .list es => do return .list (← Expr.evalAll c es)
  | .dict es => do return .dict (← Value.insertAll [] (← Expr.evalEntries c es))
  | .unary op e => do
    let v ← e.eval c
    match op with
    | .neg => return ← v.negate
    | .pos => return ← v.affirm
  | .binary op a b => do
    let v ← a.eval c
    let w ← b.eval c
    return ← v.apply (← get).shown op w
  | .not e => do return .bool !(← (← e.eval c).truth)
  | .and a b => do
    let v ← a.eval c
    if ← v.truth then b.eval c else return v
  | .or a b => do
    let v ← a.eval c
    if ← v.truth then return v else b.eval c
  | .concat es => do
    let vs ← Expr.evalAll c es
    return .text (Text.joinStrings "" (← vs.mapM Run.display))
  | .compare first ops rest => do
    let v ← first.eval c
    return .bool (← Expr.evalChain c v ops rest)
  | .cond test yes no line => do
    if ← (← test.eval c).truth then yes.eval c
    else
      match ← Expr.evalIn c no with
      | some v => return v
      | none => return noChoice c.place.template line
  | .attribute e name => do Run.member (← e.eval c) name
  | .item e key =>
    match key with
    | .slice start stop step => do
      let v ← e.eval c
      let a ← Expr.evalIn c start
      let b ← Expr.evalIn c stop
      let s ← Expr.evalIn c step
      return ← v.slice (a.getD .none) (b.getD .none) (s.getD .none)
    | key => do
      let v ← e.eval c
      Run.item v (← key.eval c)
  | .slice _ _ _ => return .none
  | .call f args => do
    let v ← f.eval c
    c.engine.call v (← args.eval c)
  | .filter e name args _ => do
    let v := (← Expr.evalIn c e).getD (.text c.held)
    let args ← args.eval c
    if filterNames.contains name then runFilter filterDepth name v args
    else Run.fail .runtime s!"No filter named {Text.quoted name} found."
  | .test e name args _ => do
    let v ← e.eval c
    return .bool (← runTest name v (← args.eval c))

/-- The values of expressions. -/
def Expr.evalAll (c : Site) : List Expr → Run (List Value)
  | [] => return []
  | e :: es => do
    let v ← e.eval c
    return v :: (← Expr.evalAll c es)

/-- The values of expressions that alternate between keys and values. -/
def Expr.evalEntries (c : Site) : List Expr → Run (List (Value × Value))
  | k :: v :: es => do
    let key ← k.eval c
    let value ← v.eval c
    return (key, value) :: (← Expr.evalEntries c es)
  | _ => return []

/-- The value of an expression, if there is one. -/
def Expr.evalIn (c : Site) : Option Expr → Run (Option Value)
  | none => return none
  | some e => do return some (← e.eval c)

/-- The result of a chain of comparisons that a value starts. -/
def Expr.evalChain (c : Site) (v : Value) : List CompareOp → List Expr → Run Bool
  | op :: ops, e :: es => do
    let w ← e.eval c
    if ← compareValues op v w then Expr.evalChain c w ops es else return false
  | _, _ => return true

/-- The values of arguments. -/
def Arguments.eval (c : Site) : Arguments → Run CallArgs
  | .mk positional names values more moreNamed => do
    let ps ← Expr.evalAll c positional
    let extra ← Expr.evalIn c more
    let ps ← match extra with
      | none => pure ps
      | some v => do pure (ps ++ (← moreArgs v))
    let vs ← Expr.evalAll c values
    let named := names.zip vs
    match ← Expr.evalIn c moreNamed with
    | none => return ⟨ps, named⟩
    | some v => return ⟨ps, ← addNamed named v⟩
end

mutual
/-- The value does not depend on where it is evaluated. -/
def Expr.isFixed : Expr → Bool
  | .const _ => true
  | .name _ => false
  | .tuple es => Expr.areFixed es
  | .list es => Expr.areFixed es
  | .dict es => Expr.areFixed es
  | .unary _ e => e.isFixed
  | .binary _ a b => a.isFixed && b.isFixed
  | .not e => e.isFixed
  | .and a b => a.isFixed && b.isFixed
  | .or a b => a.isFixed && b.isFixed
  | .concat es => Expr.areFixed es
  | .compare e _ es => e.isFixed && Expr.areFixed es
  | .cond t y n _ => t.isFixed && y.isFixed && n.isSome && Expr.isFixedIn n
  | .attribute e _ => e.isFixed
  | .item e k => e.isFixed && k.isFixed
  | .slice a b s => Expr.isFixedIn a && Expr.isFixedIn b && Expr.isFixedIn s
  | .call _ _ => false
  | .filter e name args _ =>
    e.isSome && Expr.isFixedIn e && args.isFixed && filterNames.contains name &&
      !(["map", "select", "reject", "selectattr", "rejectattr", "random"].contains name)
  | .test e name args _ => e.isFixed && args.isFixed && testNames.contains name

/-- The values do not depend on where they are evaluated. -/
def Expr.areFixed : List Expr → Bool
  | [] => true
  | e :: es => e.isFixed && Expr.areFixed es

/-- The value, if there is one, does not depend on where it is evaluated. -/
def Expr.isFixedIn : Option Expr → Bool
  | none => true
  | some e => e.isFixed

/-- The values of the arguments do not depend on where they are evaluated. -/
def Arguments.isFixed : Arguments → Bool
  | .mk ps _ vs m n =>
    Expr.areFixed ps && Expr.areFixed vs && Expr.isFixedIn m && Expr.isFixedIn n
end

end Template

end Stencil
