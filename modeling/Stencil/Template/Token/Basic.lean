import Stencil.Number.Binary64

/-!
# Tokens

What template text consists of.

Text outside of tags is one kind of token. A tag opens and closes with a token
of its own, and holds names, literals and operators. The end of a text is a
token as well, so that there is always a current one to report.

Reports name a token by its own spelling if it has one, and otherwise by what
it is.

## Main definitions

* `Symbol`: The operators and brackets.
* `Token`, `Lexeme`: A token, and a token with its line.
* `Token.wording`: How a report names a token.
-/

namespace Stencil

namespace Template

/-- An operator or a bracket. -/
inductive Symbol where
  | add | sub | mul | div | floorDiv | mod | pow | tilde
  | openBracket | closeBracket | openParen | closeParen | openBrace | closeBrace
  | eq | ne | gt | ge | lt | le
  | assign | dot | colon | bar | comma | semicolon
  deriving DecidableEq, Repr

/-- The spelling of a symbol. -/
def Symbol.text : Symbol → String
  | .add => "+"
  | .sub => "-"
  | .mul => "*"
  | .div => "/"
  | .floorDiv => "//"
  | .mod => "%"
  | .pow => "**"
  | .tilde => "~"
  | .openBracket => "["
  | .closeBracket => "]"
  | .openParen => "("
  | .closeParen => ")"
  | .openBrace => "\x7b"
  | .closeBrace => "\x7d"
  | .eq => "=="
  | .ne => "!="
  | .gt => ">"
  | .ge => ">="
  | .lt => "<"
  | .le => "<="
  | .assign => "="
  | .dot => "."
  | .colon => ":"
  | .bar => "|"
  | .comma => ","
  | .semicolon => ";"

/-- A token. -/
inductive Token where
  /-- Text outside of tags. -/
  | data (s : String)
  /-- A tag that prints opens. -/
  | openPrint
  /-- A tag that prints closes. -/
  | closePrint
  /-- A statement opens. -/
  | openBlock
  /-- A statement closes. -/
  | closeBlock
  /-- A name or a keyword. -/
  | name (s : String)
  /-- A text in quotes, its escapes resolved. -/
  | string (s : String)
  /-- A whole number. -/
  | integer (n : Nat)
  /-- A number with a fraction or an exponent. -/
  | float (x : Binary64)
  /-- An operator or a bracket. -/
  | symbol (s : Symbol)
  /-- The end of the text. -/
  | eof
  deriving DecidableEq, Repr

/-- How a report names a token. -/
def Token.wording : Token → String
  | .data _ => "template data / text"
  | .openPrint => "begin of print statement"
  | .closePrint => "end of print statement"
  | .openBlock => "begin of statement block"
  | .closeBlock => "end of statement block"
  | .name s => s
  | .string _ => "string"
  | .integer _ => "integer"
  | .float _ => "float"
  | .symbol s => s.text
  | .eof => "end of template"

/-- A token and the line on which it starts. -/
structure Lexeme where
  /-- The token. -/
  token : Token
  /-- Its line, from one. -/
  line : Nat
  deriving DecidableEq, Repr

/-- Why a text is no template: the report, and its line. -/
structure Mistake where
  /-- The report. -/
  message : String
  /-- The line, from one. -/
  line : Nat
  /-- The text can be read, but not made sense of. -/
  isAssertion : Bool := false
  /-- The report does not name the template. -/
  isAnonymous : Bool := false
  deriving DecidableEq, Repr

/-- The tokens of a text. They end at the end of the text, or at a mistake. -/
structure Lexemes where
  /-- The tokens. -/
  items : List Lexeme
  /-- The mistake after them. -/
  mistake : Option Mistake
  deriving DecidableEq, Repr

end Template

end Stencil
