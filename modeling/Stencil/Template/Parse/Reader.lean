import Stencil.Template.Token.Basic
import Stencil.Text.Quoted

/-!
# Reading Tokens

The operations that the parser is built from.

A reader holds the tokens that are left. The first one is current; the token
after it can be looked at as well, and both fail if a mistake stands in their
place. Two stacks serve reports only: the statements that are open, and the
words that each of them waits for.

Loops are recursions on a count. `bound` gives one that is large enough, since
each turn of a loop passes a token.

## Main definitions

* `Reader`, `Parse`: Tokens that are left, and parsing with them.
* `current`, `advance`, `look`, `expect`: Reading tokens.
* `fail`, `failUnknown`, `failEof`: Reports.
* `tupleItems`, `listItems`, `chain`: Loops.
-/

namespace Stencil

namespace Template

/-- Tokens that are left, and what is open. -/
structure Reader where
  /-- The tokens. -/
  items : List Lexeme
  /-- The mistake after them. -/
  mistake : Option Mistake
  /-- The line of the end, once it is reached. -/
  last : Nat
  /-- The statements that are open, the innermost first. -/
  opened : List String
  /-- What the open bodies wait for, the innermost first. -/
  awaited : List (List String)

/-- Parsing: a value and the tokens after it, or a mistake. -/
abbrev Parse (α : Type) := StateT Reader (Except Mistake) α

/-- The current token. -/
def current : Parse Lexeme := do
  let r ← get
  match r.items with
  | l :: _ => return l
  | [] => return ⟨.eof, r.last⟩

/-- A count that no loop over the tokens exceeds. -/
def bound : Parse Nat := do
  return (← get).items.length + 1

/-- Passes the current token and returns it. -/
def advance : Parse Lexeme := do
  let r ← get
  match r.items with
  | [] => return ⟨.eof, r.last⟩
  | [l] =>
    match r.mistake with
    | some m => throw m
    | none =>
      set { r with items := [], last := l.line }
      return l
  | l :: rest =>
    set { r with items := rest, last := l.line }
    return l

/-- The token after the current one. -/
def look : Parse Token := do
  let r ← get
  match r.items with
  | _ :: l :: _ => return l.token
  | _ =>
    match r.mistake with
    | some m => throw m
    | none => return .eof

/-- Gives up at a line. -/
def failAt {α : Type} (line : Nat) (message : String) : Parse α :=
  throw { message := message, line := line }

/-- Gives up at the current token. -/
def fail {α : Type} (message : String) : Parse α := do
  failAt (← current).line message

/-- The current token is the one given. -/
def currentIs (t : Token) : Parse Bool := do
  return (← current).token == t

/-- Passes a token that may stand here, and tells whether it did. -/
def skipIf (t : Token) : Parse Bool := do
  if ← currentIs t then
    let _ ← advance
    return true
  else return false

/-- Passes a token that has to pass a test; `wording` names it in reports. -/
def expectThat (wording : String) (ok : Token → Bool) : Parse Lexeme := do
  let l ← current
  if ok l.token then advance
  else if l.token == .eof then
    failAt l.line s!"unexpected end of template, expected {Text.quoted wording}."
  else
    failAt l.line
      s!"expected token {Text.quoted wording}, got {Text.quoted l.token.wording}"

/-- Passes a token that has to stand here. -/
def expect (t : Token) : Parse Lexeme :=
  expectThat t.wording (· == t)

/-- Passes a symbol that has to stand here. -/
def expectSymbol (s : Symbol) : Parse Lexeme :=
  expect (.symbol s)

/-- The token is a name. -/
def Token.isName : Token → Bool
  | .name _ => true
  | _ => false

/-- Passes a name and returns it with its line. -/
def expectName : Parse (String × Nat) := do
  let l ← expectThat "name" Token.isName
  match l.token with
  | .name s => return (s, l.line)
  | _ => return ("", l.line)

/-- The report of a tag that fits nowhere, or of an end that comes too early:
what the innermost body waits for, and the statement it belongs to. -/
def misplaced (name : Option String) (awaited : List (List String)) (opened : List String) :
    String :=
  let first := match name with
    | some n => s!"Encountered unknown tag {Text.quoted n}."
    | none => "Unexpected end of template."
  let looking := match awaited with
    | ws :: _ => Text.joinStrings " or " (ws.map Text.quoted)
    | [] => ""
  let hint :=
    if looking.isEmpty then []
    else if name.any fun n => awaited.any (·.contains n) then
      ["You probably made a nesting mistake. Jinja is expecting this tag, but currently " ++
        s!"looking for {looking}."]
    else [s!"Jinja was looking for the following tags: {looking}."]
  let innermost := match opened with
    | tag :: _ => [s!"The innermost block that needs to be closed is {Text.quoted tag}."]
    | [] => []
  Text.joinStrings " " (first :: hint ++ innermost)

/-- Gives up at a tag that is not known here. -/
def failUnknown {α : Type} (name : String) (line : Nat) : Parse α := do
  let r ← get
  failAt line (misplaced (some name) r.awaited r.opened)

/-- Gives up at an end that comes too early. -/
def failEof {α : Type} (waiting : List String) : Parse α := do
  let r ← get
  fail (misplaced none (waiting :: r.awaited) r.opened)

/-- Items with commas between them, up to a token that ends them or an item
without a comma after it. The flag tells whether there was a comma. -/
def tupleItems {α : Type} (item : Parse α) (isEnd : Token → Bool) : Nat → Parse (List α × Bool)
  | 0 => return ([], false)
  | n + 1 => do
    if isEnd (← current).token then return ([], false)
    let a ← item
    if ← skipIf (.symbol .comma) then
      let (rest, _) ← tupleItems item isEnd n
      return (a :: rest, true)
    else return ([a], false)

/-- Items up to a closing bracket, with commas between them; `started` says
that one came before, and `trailing` allows a comma after the last one. -/
def listItems {α : Type} (close : Symbol) (trailing : Bool) (item : Parse α) (started : Bool) :
    Nat → Parse (List α)
  | 0 => return []
  | n + 1 => do
    if ← currentIs (.symbol close) then return []
    if started then
      let _ ← expectSymbol .comma
      if trailing && (← currentIs (.symbol close)) then return []
    let a ← item
    return a :: (← listItems close trailing item true n)

/-- Operands with operators between them, joined from the left. -/
def chain {α : Type} (operator? : Token → Option (α → α → α)) (operand : Parse α) :
    Nat → α → Parse α
  | 0, a => return a
  | n + 1, a => do
    match operator? (← current).token with
    | none => return a
    | some join =>
      let _ ← advance
      let b ← operand
      chain operator? operand n (join a b)

/-- Parses all tokens of a text. -/
def Lexemes.parse {α : Type} (ls : Lexemes) (p : Parse α) : Except Mistake α :=
  match ls.items, ls.mistake with
  | [], some m => .error m
  | items, mistake => (p.run ⟨items, mistake, 1, [], []⟩).map Prod.fst

end Template

end Stencil
