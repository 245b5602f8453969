import Stencil.Template.Parse.Expr
import Stencil.Template.Token.Scan
import Stencil.Text.Blank

/-!
# Parsing Statements

Statements, and the template that they make up.

A body goes on until a tag whose word it waits for; the statement that opened
it decides what that word means. Bodies are the only recursion here. It is
counted, and since every body is opened by a tag, the number of tokens bounds
the count.

## Main definitions

* `statement`: A statement, after the token that opens its tag.
* `statements`: Statements up to a word that ends them.
* `parse`: The statements of a template.
-/

namespace Stencil

namespace Template

/-- What parses a body, given the words that end it. The word that is met
stays current. -/
abbrev Body := List String → Parse (List Stmt)

/-- A body after the rest of the tag that opens it. -/
def bodyUntil (body : Body) (ends : List String) : Parse (List Stmt) := do
  let _ ← skipIf (.symbol .colon)
  let _ ← expect .closeBlock
  let found ← body ends
  if ← currentIs .eof then failEof ends else return found

/-- A body, and the word that ends it, passed. -/
def wholeBody (body : Body) (ends : List String) : Parse (List Stmt × String) := do
  let found ← bodyUntil body ends
  match (← advance).token with
  | .name s => return (found, s)
  | _ => return (found, "")

/-- A loop. -/
def loopStmt (body : Body) : Parse Stmt := do
  let _ ← expect (.name "for")
  let target ← target false ["in"]
  let _ ← expect (.name "in")
  let items ← tupleExpr false ["recursive"]
  let test ← if ← skipIf (.name "if") then some <$> expr else pure none
  let recursive ← skipIf (.name "recursive")
  let (inner, word) ← wholeBody body ["endfor", "else"]
  let otherwise ←
    if word == "endfor" then pure []
    else Prod.fst <$> wholeBody body ["endfor"]
  return .loop target items inner otherwise test recursive

/-- The branches after the first one. -/
def otherBranches (body : Body) : Nat → String → Parse (List Stmt × List Stmt)
  | 0, _ => return ([], [])
  | n + 1, word => do
    if word == "elif" then
      let test ← tupleExpr false []
      let (inner, word') ← wholeBody body ["elif", "else", "endif"]
      let (others, otherwise) ← otherBranches body n word'
      return (.branch test inner [] [] :: others, otherwise)
    else if word == "else" then
      return ([], Prod.fst (← wholeBody body ["endif"]))
    else return ([], [])

/-- A choice between bodies. -/
def branchStmt (body : Body) : Parse Stmt := do
  let _ ← expect (.name "if")
  let test ← tupleExpr false []
  let (inner, word) ← wholeBody body ["elif", "else", "endif"]
  let (others, otherwise) ← otherBranches body (← bound) word
  return .branch test inner others otherwise

/-- A parameter; after one with a default all need one. -/
def parameter (needsDefault : Bool) : Parse Parameter := do
  let (name, _) ← nameTarget
  if ← skipIf (.symbol .assign) then return (name, some (← expr))
  else if needsDefault then fail "non-default argument follows default argument"
  else return (name, none)

/-- The parameters up to the closing parenthesis. -/
def parametersFrom (started needsDefault : Bool) : Nat → Parse (List Parameter)
  | 0 => return []
  | n + 1 => do
    if ← currentIs (.symbol .closeParen) then return []
    if started then
      let _ ← expectSymbol .comma
    let p ← parameter needsDefault
    return p :: (← parametersFrom true p.2.isSome n)

/-- Parameters in parentheses. -/
def parameters : Parse (List Parameter) := do
  let _ ← expectSymbol .openParen
  let found ← parametersFrom false false (← bound)
  let _ ← expectSymbol .closeParen
  return found

/-- A macro. -/
def defineStmt (body : Body) : Parse Stmt := do
  let l ← advance
  let (name, _) ← nameTarget
  let ps ← parameters
  let (inner, _) ← wholeBody body ["endmacro"]
  return .define name ps inner l.line

/-- A call with a body. -/
def callStmt (body : Body) : Parse Stmt := do
  let l ← advance
  let ps ← if ← currentIs (.symbol .openParen) then parameters else pure []
  match ← expr with
  | .call callee args =>
    let (inner, _) ← wholeBody body ["endcall"]
    return .callBlock callee args ps inner l.line
  | _ => failAt l.line "expected call"

/-- A body printed through a filter. -/
def filterStmt (body : Body) : Parse Stmt := do
  let _ ← advance
  let first ← oneFilter expr none
  let all ← filters expr (← bound) (some first)
  let (inner, _) ← wholeBody body ["endfilter"]
  return .filterBlock (all.getD first) inner

/-- The variables of a scope, with their values. -/
def bindings (started : Bool) : Nat → Parse (List (Target × Expr))
  | 0 => return []
  | n + 1 => do
    if ← currentIs .closeBlock then return []
    if started then
      let _ ← expectSymbol .comma
    let t ← target false []
    let _ ← expectSymbol .assign
    let e ← expr
    return (t, e) :: (← bindings true n)

/-- A scope. -/
def scopeStmt (body : Body) : Parse Stmt := do
  let _ ← advance
  let found ← bindings false (← bound)
  let (inner, _) ← wholeBody body ["endwith"]
  return .scope (found.map Prod.fst) (found.map Prod.snd) inner

/-- A setting, which holds for a body. -/
def settingStmt (body : Body) : Parse Stmt := do
  let _ ← advance
  let e ← expr
  let (inner, _) ← wholeBody body ["endautoescape"]
  return .setting e inner

/-- The statement is blank text. -/
def Stmt.isBlankData : Stmt → Bool
  | .data s => Text.isAllBlank s
  | _ => false

/-- A part that a child can replace. -/
def blockStmt (body : Body) : Parse Stmt := do
  let l ← advance
  let (name, _) ← expectName
  let isScoped ← skipIf (.name "scoped")
  let isRequired ← skipIf (.name "required")
  if ← currentIs (.symbol .sub) then
    fail ("Block names in Jinja have to be valid Python identifiers and may not" ++
      " contain hyphens, use an underscore instead.")
  let (inner, _) ← wholeBody body ["endblock"]
  if isRequired && !inner.all Stmt.isBlankData then
    fail "Required blocks can only contain comments or whitespace"
  -- The name may be repeated at the end.
  let _ ← skipIf (.name name)
  return .block name inner isScoped isRequired l.line

/-- The words about the context, if they stand here. -/
def contextWords? : Parse (Option Bool) := do
  let t := (← current).token
  if t == .name "with" || t == .name "without" then
    if (← look) == .name "context" then
      let _ ← advance
      let _ ← advance
      return some (t == .name "with")
    else return none
  else return none

/-- Prints another template. -/
def embedStmt : Parse Stmt := do
  let _ ← advance
  let template ← expr
  let ignoreMissing ←
    if ← currentIs (.name "ignore") then
      if (← look) == .name "missing" then do
        let _ ← advance
        let _ ← advance
        pure true
      else pure false
    else pure false
  return .embed template ((← contextWords?).getD true) ignoreMissing

/-- Makes another template's exports available. -/
def importStmt : Parse Stmt := do
  let _ ← advance
  let template ← expr
  let _ ← expect (.name "as")
  let (name, _) ← nameTarget
  return .importAll template name ((← contextWords?).getD false)

/-- One name to import, with the name it gets here. -/
def importedName : Parse (String × String) := do
  let (name, line) ← nameTarget
  if Text.startsWith ['_'] name.toList then
    throw
      { message := "names starting with an underline can not be imported", line := line,
        isAssertion := true }
  if ← skipIf (.name "as") then return (name, (← nameTarget).1)
  else return (name, name)

/-- The names to import, and what is said about the context after them. -/
def importedNames (started : Bool) : Nat → Parse (List (String × String) × Bool)
  | 0 => return ([], false)
  | n + 1 => do
    if started then
      let _ ← expectSymbol .comma
    if (← current).token.isName then
      match ← contextWords? with
      | some context => return ([], context)
      | none =>
        let name ← importedName
        match ← contextWords? with
        | some context => return ([name], context)
        | none =>
          if ← currentIs (.symbol .comma) then
            let (names, context) ← importedNames true n
            return (name :: names, context)
          else return ([name], false)
    else
      -- This is refused, as no name is ahead.
      let _ ← expectName
      return ([], false)

/-- Makes some of another template's exports available. -/
def importNamesStmt : Parse Stmt := do
  let l ← advance
  let template ← expr
  let _ ← expect (.name "import")
  let (names, withContext) ← importedNames false (← bound)
  return .importNames template names withContext l.line

/-- Makes another template the parent. -/
def inheritStmt : Parse Stmt := do
  let l ← advance
  return .inherit (← expr) l.line

/-- Writes a value, or the text of a body. -/
def assignStmt (body : Body) : Parse Stmt := do
  let _ ← advance
  let t ← target true []
  if ← skipIf (.symbol .assign) then return .assign t (← tupleExpr true [])
  else
    let filter ← filters expr (← bound) none
    let (inner, _) ← wholeBody body ["endset"]
    return .capture t filter inner

/-- Values to print, up to the end of the tag. -/
def printed (started : Bool) : Nat → Parse (List Stmt)
  | 0 => return []
  | n + 1 => do
    if ← currentIs .closeBlock then return []
    if started then
      let _ ← expectSymbol .comma
    let e ← expr
    return .print e :: (← printed true n)

/-- What a word at the start of a tag does; nothing if it is not known. -/
def statementOf? (body : Body) (word : String) : Option (Parse (List Stmt)) :=
  let one (p : Parse Stmt) : Option (Parse (List Stmt)) := some do return [← p]
  match word with
  | "for" => one (loopStmt body)
  | "if" => one (branchStmt body)
  | "block" => one (blockStmt body)
  | "extends" => one inheritStmt
  | "print" => some do
    let _ ← advance
    printed false (← bound)
  | "macro" => one (defineStmt body)
  | "include" => one embedStmt
  | "from" => one importNamesStmt
  | "import" => one importStmt
  | "set" => one (assignStmt body)
  | "with" => one (scopeStmt body)
  | "autoescape" => one (settingStmt body)
  | "call" => one (callStmt body)
  | "filter" => one (filterStmt body)
  | _ => none

/-- A statement, after the token that opens its tag. -/
def statement (body : Body) : Parse (List Stmt) := do
  let l ← current
  match l.token with
  | .name word =>
    match statementOf? body word with
    | none => failUnknown word l.line
    | some p =>
      -- A word that is not known is explained by the tags that are open.
      modify fun r => { r with opened := word :: r.opened }
      let found ← p
      modify fun r => { r with opened := r.opened.tail }
      return found
  | _ => failAt l.line "tag name expected"

/-- Statements up to the end of the text, or to a tag with a word that ends
them. -/
def statementsFrom (body : Body) (ends : List String) : Nat → Parse (List Stmt)
  | 0 => return []
  | n + 1 => do
    match (← current).token with
    | .data s =>
      let _ ← advance
      return .data s :: (← statementsFrom body ends n)
    | .openPrint =>
      let _ ← advance
      let e ← tupleExpr true []
      let _ ← expect .closePrint
      return .print e :: (← statementsFrom body ends n)
    | .openBlock =>
      let _ ← advance
      let t := (← current).token
      if ends.any fun w => t == .name w then return []
      else
        let found ← statement body
        let _ ← expect .closeBlock
        return found ++ (← statementsFrom body ends n)
    | _ => return []

/-- Statements up to a word that ends them; the count bounds how deep bodies
are nested. -/
def statements : Nat → List String → Parse (List Stmt)
  | 0, _ => fail "too many bodies"
  | n + 1, ends => do
    modify fun r => { r with awaited := ends :: r.awaited }
    let found ← statementsFrom (statements n) ends (← bound)
    modify fun r => { r with awaited := r.awaited.tail }
    return found

/-- The statements of a template. -/
def parse (text : String) : Except Mistake (List Stmt) :=
  (tokens text).parse do
    let n ← bound
    statementsFrom (statements n) [] n

end Template

end Stencil
