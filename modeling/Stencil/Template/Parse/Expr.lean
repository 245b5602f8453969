import Stencil.Template.Parse.Reader
import Stencil.Template.Syntax

/-!
# Parsing Expressions

Expressions by precedence, from the loosest: a choice, `or`, `and`, `not`,
comparisons, sums, joined texts, products, powers, signs, and at the bottom
literals and names with what follows them.

Each level is a function on the parser of the level below, so the only
recursion is from a pair of brackets back to the top. It is counted, and a
bracket takes a token, so the number of tokens bounds the count.

## Main definitions

* `expr`: An expression.
* `tupleExpr`: An expression, or several with commas between them.
* `target`, `nameTarget`: A place that a value is written to.
* `filters`, `callArguments`: What can follow a value.
-/

namespace Stencil

namespace Template

/-- The operator of products that a token is. -/
def productOp? : Token → Option (Expr → Expr → Expr)
  | .symbol .mul => some (.binary .mul)
  | .symbol .div => some (.binary .div)
  | .symbol .floorDiv => some (.binary .floorDiv)
  | .symbol .mod => some (.binary .mod)
  | _ => none

/-- The operator of sums that a token is. -/
def sumOp? : Token → Option (Expr → Expr → Expr)
  | .symbol .add => some (.binary .add)
  | .symbol .sub => some (.binary .sub)
  | _ => none

/-- The operator of powers that a token is. -/
def powerOp? : Token → Option (Expr → Expr → Expr)
  | .symbol .pow => some (.binary .pow)
  | _ => none

/-- The comparison that a token is. -/
def compareOp? : Token → Option CompareOp
  | .symbol .eq => some .eq
  | .symbol .ne => some .ne
  | .symbol .lt => some .lt
  | .symbol .le => some .le
  | .symbol .gt => some .gt
  | .symbol .ge => some .ge
  | .name "in" => some .isIn
  | _ => none

/-- A level of operators that join from the left. -/
def leftLevel (operator? : Token → Option (Expr → Expr → Expr)) (operand : Parse Expr) :
    Parse Expr := do
  chain operator? operand (← bound) (← operand)

/-- Operands joined as texts: the ones after the first. -/
def concatRest (operand : Parse Expr) : Nat → Parse (List Expr)
  | 0 => return []
  | n + 1 => do
    if ← skipIf (.symbol .tilde) then
      let e ← operand
      return e :: (← concatRest operand n)
    else return []

/-- The level of joined texts. -/
def concatLevel (operand : Parse Expr) : Parse Expr := do
  let first ← operand
  match ← concatRest operand (← bound) with
  | [] => return first
  | rest => return .concat (first :: rest)

/-- The comparison at the current place, passed; `not in` is one of two words. -/
def comparison? : Parse (Option CompareOp) := do
  let t := (← current).token
  match compareOp? t with
  | some op =>
    let _ ← advance
    return some op
  | none =>
    if t == .name "not" then
      if (← look) == .name "in" then
        let _ ← advance
        let _ ← advance
        return some .notIn
      else return none
    else return none

/-- The comparisons after the first operand. -/
def compareRest (operand : Parse Expr) : Nat → Parse (List (CompareOp × Expr))
  | 0 => return []
  | n + 1 => do
    match ← comparison? with
    | none => return []
    | some op =>
      let e ← operand
      return (op, e) :: (← compareRest operand n)

/-- The level of comparisons. -/
def compareLevel (operand : Parse Expr) : Parse Expr := do
  let first ← operand
  match ← compareRest operand (← bound) with
  | [] => return first
  | rest => return .compare first (rest.map Prod.fst) (rest.map Prod.snd)

/-- The level of negation. -/
def notLevel (operand : Parse Expr) : Nat → Parse Expr
  | 0 => operand
  | n + 1 => do
    if ← skipIf (.name "not") then return .not (← notLevel operand n)
    else operand

/-- The operator that a word is. -/
def wordOp? (word : String) (join : Expr → Expr → Expr) (t : Token) :
    Option (Expr → Expr → Expr) :=
  if t == .name word then some join else none

/-- The level of `or` and what binds tighter, over the level of signs. -/
def orLevel (unary : Parse Expr) : Parse Expr :=
  let power := leftLevel powerOp? unary
  let product := leftLevel productOp? power
  let sum := leftLevel sumOp? (concatLevel product)
  let negation : Parse Expr := do notLevel (compareLevel sum) (← bound)
  leftLevel (wordOp? "or" .or) (leftLevel (wordOp? "and" .and) negation)

/-- The choices after a value. -/
def choices (operand : Parse Expr) : Nat → Nat → Expr → Parse Expr
  | 0, _, e => return e
  | n + 1, line, e => do
    if ← skipIf (.name "if") then
      let test ← operand
      let no ← if ← skipIf (.name "else") then do
          let l := (← current).line
          let first ← operand
          some <$> choices operand n l first
        else pure none
      choices operand n (← current).line (.cond test e no line)
    else return e

/-- The level of choices. -/
def choiceLevel (operand : Parse Expr) : Parse Expr := do
  let line := (← current).line
  choices operand (← bound) line (← operand)

/-- The tokens that end a tuple everywhere. -/
def endsTuple : Token → Bool
  | .closePrint => true
  | .closeBlock => true
  | .symbol .closeParen => true
  | _ => false

/-- What several items with commas between them are as an expression; one
without a comma is itself. Nothing at all is a tuple inside parentheses only. -/
def ofTupleItems (inParens : Bool) (found : List Expr × Bool) : Parse Expr := do
  match found with
  | ([e], false) => return e
  | ([], false) =>
    if inParens then return .tuple []
    else fail s!"Expected an expression, got {Text.quoted (← current).token.wording}"
  | (items, _) => return .tuple items

/-- What stands in the place of one argument. -/
inductive Argument where
  /-- A value. -/
  | positional (e : Expr)
  /-- A value with a name. -/
  | named (name : String) (e : Expr)
  /-- Several values. -/
  | more (e : Expr)
  /-- Several values with names. -/
  | moreNamed (e : Expr)

/-- Adds an argument, unless it cannot stand after those before it. -/
def Arguments.add? : Arguments → Argument → Option Arguments
  | .mk ps ns vs none none, .positional e => if ns.isEmpty then some (.mk (ps ++ [e]) ns vs none none)
    else none
  | .mk ps ns vs m none, .named n e => some (.mk ps (ns ++ [n]) (vs ++ [e]) m none)
  | .mk ps ns vs none none, .more e => some (.mk ps ns vs (some e) none)
  | .mk ps ns vs m none, .moreNamed e => some (.mk ps ns vs m (some e))
  | _, _ => none

/-- One argument. Whether it can stand here is decided before its value is
read: `check` gets an argument of the same form. -/
def argument (expr : Parse Expr) (check : Argument → Parse Unit) : Parse Argument := do
  let t := (← current).token
  if t == .symbol .mul then
    check (.more default)
    let _ ← advance
    return .more (← expr)
  else if t == .symbol .pow then
    check (.moreNamed default)
    let _ ← advance
    return .moreNamed (← expr)
  else
    match t with
    | .name key =>
      if (← look) == .symbol .assign then
        check (.named key default)
        let _ ← advance
        let _ ← advance
        return .named key (← expr)
      else
        check (.positional default)
        return .positional (← expr)
    | _ =>
      check (.positional default)
      return .positional (← expr)

/-- The arguments up to the closing parenthesis; `line` is that of the opening
one. -/
def argumentsFrom (expr : Parse Expr) (line : Nat) (started : Bool) (args : Arguments) :
    Nat → Parse Arguments
  | 0 => return args
  | n + 1 => do
    if ← currentIs (.symbol .closeParen) then return args
    if started then
      let _ ← expectSymbol .comma
      if ← currentIs (.symbol .closeParen) then return args
    let check (a : Argument) : Parse Unit :=
      if (args.add? a).isSome then pure ()
      else failAt line "invalid syntax for function call expression"
    let a ← argument expr check
    argumentsFrom expr line true ((args.add? a).getD args) n

/-- The arguments of a call, in parentheses. -/
def callArguments (expr : Parse Expr) : Parse Arguments := do
  let l ← expectSymbol .openParen
  let args ← argumentsFrom expr l.line false .empty (← bound)
  let _ ← expectSymbol .closeParen
  return args

/-- The rest of a name with dots in it. -/
def dottedRest : Nat → String → Parse String
  | 0, s => return s
  | n + 1, s => do
    if ← skipIf (.symbol .dot) then
      let (part, _) ← expectName
      dottedRest n (s ++ "." ++ part)
    else return s

/-- A name that may have dots in it, and its line. -/
def dottedName : Parse (String × Nat) := do
  let (s, line) ← expectName
  return (← dottedRest (← bound) s, line)

/-- The arguments of a call if a parenthesis opens here. -/
def optionalArguments (expr : Parse Expr) : Parse Arguments := do
  if ← currentIs (.symbol .openParen) then callArguments expr else return .empty

/-- One filter, applied to a value or to what is captured. -/
def oneFilter (expr : Parse Expr) (e : Option Expr) : Parse Expr := do
  let (name, line) ← dottedName
  let args ← optionalArguments expr
  return .filter e name args line

/-- The filters that follow. -/
def filters (expr : Parse Expr) : Nat → Option Expr → Parse (Option Expr)
  | 0, e => return e
  | n + 1, e => do
    if ← skipIf (.symbol .bar) then
      let e' ← oneFilter expr e
      filters expr n (some e')
    else return e

/-- The end of a slice or its step, if it is there. -/
def slicePart (expr : Parse Expr) : Parse (Option Expr) := do
  let t := (← current).token
  if t == .symbol .closeBracket || t == .symbol .comma then return none
  else some <$> expr

/-- What stands between brackets: an expression or a slice. -/
def subscript (expr : Parse Expr) : Parse Expr := do
  let start ← if ← currentIs (.symbol .colon) then pure none else some <$> expr
  if ← skipIf (.symbol .colon) then
    let stop ← if ← currentIs (.symbol .colon) then pure none else slicePart expr
    let step ← if ← skipIf (.symbol .colon) then slicePart expr else pure none
    return .slice start stop step
  else return start.getD default

/-- An attribute or an item of a value. -/
def accessor (expr : Parse Expr) (e : Expr) : Parse Expr := do
  let l ← advance
  if l.token == .symbol .dot then
    let key ← advance
    match key.token with
    | .name s => return .attribute e s
    | .integer n => return .item e (.const (.int n))
    | _ => failAt key.line "expected name or number"
  else
    let keys ← listItems .closeBracket false (subscript expr) false (← bound)
    let _ ← expectSymbol .closeBracket
    match keys with
    | [key] => return .item e key
    | _ => return .item e (.tuple keys)

/-- What follows a value: attributes, items and calls. -/
def accessors (expr : Parse Expr) : Nat → Expr → Parse Expr
  | 0, e => return e
  | n + 1, e => do
    match (← current).token with
    | .symbol .dot => accessors expr n (← accessor expr e)
    | .symbol .openBracket => accessors expr n (← accessor expr e)
    | .symbol .openParen => accessors expr n (.call e (← callArguments expr))
    | _ => return e

/-- The token can start the one argument that a test has without parentheses. -/
def startsTestArgument : Token → Bool
  | .name s => s != "else" && s != "or" && s != "and"
  | .string _ => true
  | .integer _ => true
  | .float _ => true
  | .symbol .openBracket => true
  | .symbol .openBrace => true
  | _ => false

/-- A test of a value, after the word that starts it; `operand` is a literal
or a name with what follows it. -/
def testOf (expr operand : Parse Expr) (e : Expr) (line : Nat) : Parse Expr := do
  let negated ← skipIf (.name "not")
  let (name, _) ← dottedName
  let t := (← current).token
  let args ←
    if t == .symbol .openParen then callArguments expr
    else if startsTestArgument t then
      if t == .name "is" then fail "You cannot chain multiple tests with is"
      else do
        let a ← operand
        pure (.mk [a] [] [] none none)
    else pure .empty
  let test := Expr.test e name args line
  return if negated then .not test else test

/-- What follows a value at the level of signs: filters, tests and calls. -/
def trailers (expr operand : Parse Expr) : Nat → Expr → Parse Expr
  | 0, e => return e
  | n + 1, e => do
    let l ← current
    if l.token == .symbol .bar then
      let filtered ← filters expr (← bound) (some e)
      trailers expr operand n (filtered.getD e)
    else if l.token == .name "is" then
      let _ ← advance
      trailers expr operand n (← testOf expr operand e l.line)
    else if l.token == .symbol .openParen then
      trailers expr operand n (.call e (← callArguments expr))
    else return e

/-- The texts that follow a text are joined to it. -/
def adjacentTexts : Nat → String → Parse String
  | 0, s => return s
  | n + 1, s => do
    match (← current).token with
    | .string t =>
      let _ ← advance
      adjacentTexts n (s ++ t)
    | _ => return s

/-- The value that a word stands for, or the variable that it names. -/
def ofWord (s : String) : Expr :=
  if s == "true" || s == "True" then .const (.bool true)
  else if s == "false" || s == "False" then .const (.bool false)
  else if s == "none" || s == "None" then .const .none
  else .name s

/-- A key and a value of a map. -/
def entry (expr : Parse Expr) : Parse (Expr × Expr) := do
  let k ← expr
  let _ ← expectSymbol .colon
  return (k, ← expr)

/-- A literal, a name, or an expression in brackets. -/
def primary (expr : Parse Expr) : Parse Expr := do
  let l ← current
  match l.token with
  | .name s =>
    let _ ← advance
    return ofWord s
  | .string s =>
    let _ ← advance
    return .const (.text (← adjacentTexts (← bound) s))
  | .integer n =>
    let _ ← advance
    return .const (.int n)
  | .float x =>
    let _ ← advance
    return .const (.float x)
  | .symbol .openParen =>
    let _ ← advance
    let e ← ofTupleItems true (← tupleItems expr endsTuple (← bound))
    let _ ← expectSymbol .closeParen
    return e
  | .symbol .openBracket =>
    let _ ← advance
    let items ← listItems .closeBracket true expr false (← bound)
    let _ ← expectSymbol .closeBracket
    return .list items
  | .symbol .openBrace =>
    let _ ← advance
    let entries ← listItems .closeBrace true (entry expr) false (← bound)
    let _ ← expectSymbol .closeBrace
    return .dict (entries.flatMap fun e => [e.1, e.2])
  | t => failAt l.line s!"unexpected {Text.quoted t.wording}"

/-- A literal or name with attributes, items and calls. -/
def operand (expr : Parse Expr) : Parse Expr := do
  let e ← primary expr
  accessors expr (← bound) e

/-- Signs, and what they stand before. -/
def signed (expr : Parse Expr) : Nat → Parse Expr
  | 0 => operand expr
  | n + 1 => do
    if ← skipIf (.symbol .sub) then
      let e ← signed expr n
      accessors expr (← bound) (.unary .neg e)
    else if ← skipIf (.symbol .add) then
      let e ← signed expr n
      accessors expr (← bound) (.unary .pos e)
    else operand expr

/-- The level of signs, with filters and tests. -/
def unaryLevel (expr : Parse Expr) : Parse Expr := do
  let e ← signed expr (← bound)
  trailers expr (operand expr) (← bound) e

/-- An expression, with or without a choice at its top; the count bounds how
deep brackets are nested. -/
def exprFrom : Nat → Bool → Parse Expr
  | 0, _ => fail "too many brackets"
  | n + 1, withChoice =>
    let level := orLevel (unaryLevel (exprFrom n true))
    if withChoice then choiceLevel level else level

/-- An expression. -/
def expr : Parse Expr := do
  exprFrom (← bound) true

/-- An expression, or several with commas between them. -/
def tupleExpr (withChoice : Bool) (endWords : List String) : Parse Expr := do
  let isEnd (t : Token) : Bool := endsTuple t || endWords.any fun w => t == .name w
  let item : Parse Expr := do exprFrom (← bound) withChoice
  ofTupleItems false (← tupleItems item isEnd (← bound))

/-- The words that cannot be written to. -/
def reservedWords : List String :=
  ["true", "false", "none", "True", "False", "None"]

/-- Targets that are all there. -/
def allTargets {α : Type} : List (Option α) → Option (List α)
  | [] => some []
  | none :: _ => none
  | some a :: rest => (allTargets rest).map (a :: ·)

mutual
/-- The place that an expression names, if values can be written there. -/
def Expr.target? (line : Nat) : Expr → Option Target
  | .name s => some (.name s line)
  | .tuple items => (Expr.targets? line items).map .tuple
  | _ => none

/-- The places that expressions name. -/
def Expr.targets? (line : Nat) : List Expr → Option (List Target)
  | [] => some []
  | e :: es =>
    match e.target? line, Expr.targets? line es with
    | some t, some ts => some (t :: ts)
    | _, _ => none
end

/-- A place, or the kind of the expression that stands where one should. -/
abbrev Written := Except String Target

/-- One place in a target. An attribute can be one only where `attributes`
allows it. -/
def place (attributes : Bool) : Parse Written := do
  let l ← current
  let e ← primary expr
  match e with
  | .name s =>
    if attributes && l.token == .name s && (← currentIs (.symbol .dot)) then
      let _ ← advance
      let (key, _) ← expectName
      return .ok (.member s key)
    else return .ok (.name s l.line)
  | _ =>
    match e.target? l.line with
    | some t => return .ok t
    | none => return .error e.kindName

/-- Gives up on something that cannot be written to. -/
def failTarget {α : Type} (kind : String) (line : Nat) : Parse α :=
  failAt line s!"can't assign to {Text.quoted kind}"

/-- A place that a value is written to, or several with commas between them. -/
def target (attributes : Bool) (endWords : List String) : Parse Target := do
  let line := (← current).line
  let isEnd (t : Token) : Bool := endsTuple t || endWords.any fun w => t == .name w
  match ← tupleItems (place attributes) isEnd (← bound) with
  | ([.ok t], false) => return t
  | ([.error kind], false) => failTarget kind line
  | ([], false) => fail s!"Expected an expression, got {Text.quoted (← current).token.wording}"
  | (places, _) =>
    match allTargets (places.map Except.toOption) with
    | some ts => return .tuple ts
    | none => failTarget "tuple" line

/-- A name that a value is written to, and its line. -/
def nameTarget : Parse (String × Nat) := do
  let (s, line) ← expectName
  if reservedWords.contains s then failTarget "name" line
  else return (s, line)

end Template

end Stencil
