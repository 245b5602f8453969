import Stencil.Template.Token.Basic
import Stencil.Template.Token.Literal
import Stencil.Text.Blank
import Stencil.Text.Lines
import Stencil.Text.Name
import Stencil.Text.Search

/-!
# Scanning Templates

From template text to tokens.

Outside of tags everything is text up to the next `{%`, `{{` or `{#`. A minus
sign just inside a tag removes the blanks on its other side. Comments leave no
token, and the inside of a raw block is text whatever it holds. Inside a tag
brackets have to match, and as long as one is open the tag does not close.

A cursor knows the characters that are left, how many were passed, on which
line they start, and the last character that was passed. It moves by dropping
a count of characters, so the line of every token is right by construction.

## Main definitions

* `Cursor`: A place in a text.
* `Cursor.scan`: The tokens of a text from a place on.
* `tokens`: The tokens of a text.

## Theorems

* `Cursor.advance_position`: Moving adds to the position what it takes from
  the characters that are left.
-/

namespace Stencil

namespace Template

open Text

/-- A place in a text. -/
structure Cursor where
  /-- The characters that are left. -/
  rest : List Char
  /-- How many characters precede. -/
  position : Nat
  /-- The line of the first character that is left. -/
  line : Nat
  /-- The character before it. -/
  before : Option Char
  deriving Repr

namespace Cursor

/-- The start of a text. -/
def start (cs : List Char) : Cursor :=
  ⟨cs, 0, 1, none⟩

/-- The place a number of characters further on. -/
def advance (c : Cursor) : Nat → Cursor
  | 0 => c
  | n + 1 =>
    match c.rest with
    | [] => c
    | ch :: rest =>
      advance ⟨rest, c.position + 1, if ch == '\n' then c.line + 1 else c.line, some ch⟩ n

theorem advance_position (c : Cursor) (n : Nat) :
    (c.advance n).position + (c.advance n).rest.length = c.position + c.rest.length := by
  induction n generalizing c with
  | zero => rfl
  | succ n ih =>
    unfold advance
    split
    · rfl
    · next ch rest h =>
      rw [ih, h]
      simp only [List.length_cons]
      omega

end Cursor

/-- How many blanks a list starts with. -/
def blankCount (cs : List Char) : Nat :=
  (cs.takeWhile isBlank).length

/-- A kind of tag that closes with a token. -/
inductive TagKind where
  /-- It prints a value. -/
  | print
  /-- It is a statement. -/
  | block
  deriving DecidableEq, Repr

/-- How many characters the close of a tag takes, with the blanks that a minus
sign removes. -/
def closeLength? (kind : TagKind) (cs : List Char) : Option Nat :=
  match kind, cs with
  | .print, '\x7d' :: '\x7d' :: _ => some 2
  | .print, '-' :: '\x7d' :: '\x7d' :: rest => some (3 + blankCount rest)
  | .block, '%' :: '\x7d' :: _ => some 2
  | .block, '+' :: '%' :: '\x7d' :: _ => some 3
  | .block, '-' :: '%' :: '\x7d' :: rest => some (3 + blankCount rest)
  | _, _ => none

/-- How many characters a sign just inside a tag takes. -/
def signLength : List Char → Nat
  | '-' :: _ => 1
  | '+' :: _ => 1
  | _ => 0

/-- How many characters a word takes at the start of a list, with blanks
allowed around it. -/
def spacedWord? (word : String) (cs : List Char) : Option Nat :=
  let lead := blankCount cs
  (dropPrefix? word.toList (cs.drop lead)).map fun rest =>
    lead + word.length + blankCount rest

/-- How many characters the tag that starts a raw block takes. -/
def rawOpenLength? : List Char → Option Nat
  | '\x7b' :: '%' :: rest =>
    let sign := signLength rest
    let inner := rest.drop sign
    match spacedWord? "raw" inner with
    | none => none
    | some n =>
      match inner.drop n with
      -- Only a minus sign is accepted before the end of this tag.
      | '%' :: '\x7d' :: _ => some (2 + sign + n + 2)
      | '-' :: '%' :: '\x7d' :: after => some (2 + sign + n + 3 + blankCount after)
      | _ => none
  | _ => none

/-- How many characters the tag that ends a raw block takes. -/
def rawCloseLength? : List Char → Option Nat
  | '\x7b' :: '%' :: rest =>
    let sign := signLength rest
    let inner := rest.drop sign
    match spacedWord? "endraw" inner with
    | none => none
    | some n => (closeLength? .block (inner.drop n)).map (2 + sign + n + ·)
  | _ => none

/-- How many characters the end of a comment takes. -/
def commentCloseLength? : List Char → Option Nat
  | '#' :: '\x7d' :: _ => some 2
  | '+' :: '#' :: '\x7d' :: _ => some 3
  | '-' :: '#' :: '\x7d' :: rest => some (3 + blankCount rest)
  | _ => none

/-- Where a list first has something that takes a count of characters: the
characters before it, and that count. -/
def findLength? (length? : List Char → Option Nat) : List Char → Option (List Char × Nat)
  | [] => (length? []).map fun n => ([], n)
  | c :: cs =>
    match length? (c :: cs) with
    | some n => some ([], n)
    | none => (findLength? length? cs).map fun (head, n) => (c :: head, n)

/-- What opens at the start of a list. -/
inductive Opening where
  /-- A raw block. -/
  | raw
  /-- A comment. -/
  | comment
  /-- A tag. -/
  | tag (kind : TagKind)
  deriving DecidableEq, Repr

/-- What opens at the start of a list, and how many characters the opening
takes. -/
def opening? (cs : List Char) : Option (Opening × Nat) :=
  match rawOpenLength? cs with
  | some n => some (.raw, n)
  | none =>
    match cs with
    | '\x7b' :: '#' :: rest => some (.comment, 2 + signLength rest)
    | '\x7b' :: '%' :: rest => some (.tag .block, 2 + signLength rest)
    | '\x7b' :: '\x7b' :: rest => some (.tag .print, 2 + signLength rest)
    | _ => none

/-- Text before a tag that has a minus sign inside loses its last blanks. -/
def beforeTag (tag data : List Char) : List Char :=
  match tag with
  | _ :: _ :: '-' :: _ => dropRightWhile isBlank data
  | _ => data

/-- The token of some text, unless it is empty. -/
def dataLexeme (line : Nat) (cs : List Char) : List Lexeme :=
  if cs.isEmpty then [] else [⟨.data (String.ofList cs), line⟩]

/-- The symbol at the start of a list; a longer one wins. -/
def symbol? : List Char → Option Symbol
  | '/' :: '/' :: _ => some .floorDiv
  | '*' :: '*' :: _ => some .pow
  | '=' :: '=' :: _ => some .eq
  | '!' :: '=' :: _ => some .ne
  | '>' :: '=' :: _ => some .ge
  | '<' :: '=' :: _ => some .le
  | '+' :: _ => some .add
  | '-' :: _ => some .sub
  | '/' :: _ => some .div
  | '*' :: _ => some .mul
  | '%' :: _ => some .mod
  | '~' :: _ => some .tilde
  | '[' :: _ => some .openBracket
  | ']' :: _ => some .closeBracket
  | '(' :: _ => some .openParen
  | ')' :: _ => some .closeParen
  | '\x7b' :: _ => some .openBrace
  | '\x7d' :: _ => some .closeBrace
  | '>' :: _ => some .gt
  | '<' :: _ => some .lt
  | '=' :: _ => some .assign
  | '.' :: _ => some .dot
  | ':' :: _ => some .colon
  | '|' :: _ => some .bar
  | ',' :: _ => some .comma
  | ';' :: _ => some .semicolon
  | _ => none

/-- The bracket that closes the one that a symbol opens. -/
def Symbol.closing? : Symbol → Option Symbol
  | .openBrace => some .closeBrace
  | .openParen => some .closeParen
  | .openBracket => some .closeBracket
  | _ => none

/-- The symbol closes a bracket. -/
def Symbol.isClosing : Symbol → Bool
  | .closeBrace => true
  | .closeParen => true
  | .closeBracket => true
  | _ => false

/-- The open brackets after a symbol: a list of those that would close them,
the innermost first. -/
def bracketsAfter (line : Nat) (opened : List Symbol) (s : Symbol) :
    Except Mistake (List Symbol) :=
  match s.closing? with
  | some close => .ok (close :: opened)
  | none =>
    if s.isClosing then
      match opened with
      | [] => .error { message := s!"unexpected '{s.text}'", line := line }
      | due :: rest =>
        if due == s then .ok rest
        else
          .error
            { message := s!"unexpected '{s.text}', expected '{due.text}'", line := line }
    else .ok opened

/-- A token inside a tag: blanks have none. -/
structure Piece where
  /-- The token. -/
  token : Option Token
  /-- How many characters it takes. -/
  count : Nat
  /-- The open brackets after it. -/
  opened : List Symbol

/-- The quoted text at the start of a list. -/
def stringPiece? (line : Nat) (opened : List Symbol) (cs : List Char) :
    Option (Except Mistake Piece) :=
  match cs with
  | q :: rest =>
    if q == '\'' || q == '"' then
      (quotedLength? q rest).map fun n =>
        match unescape 0 (rest.take (n - 1)) with
        | .ok s => .ok ⟨some (.string (String.ofList s)), n + 1, opened⟩
        | .error e => .error { message := e.message, line := line }
    else none
  | [] => none

/-- The token at a place inside a tag. -/
def piece (c : Cursor) (opened : List Symbol) : Except Mistake Piece :=
  let cs := c.rest
  let blanks := blankCount cs
  if blanks > 0 then .ok ⟨none, blanks, opened⟩
  else
    -- Digits behind a dot are an index, and a dot after them belongs to the next one.
    match if c.before == some '.' then none else takeFloat? cs with
    | some (x, n) => .ok ⟨some (.float x), n, opened⟩
    | none =>
      match takeInteger? cs with
      | some (k, n) => .ok ⟨some (.integer k), n, opened⟩
      | none =>
        let word := cs.takeWhile continuesWord
        if !word.isEmpty then
          if isName word then .ok ⟨some (.name (String.ofList word)), word.length, opened⟩
          else .error { message := "Invalid character in identifier", line := c.line }
        else
          match stringPiece? c.line opened cs with
          | some found => found
          | none =>
            match symbol? cs with
            | some s =>
              (bracketsAfter c.line opened s).map fun opened =>
                ⟨some (.symbol s), s.text.length, opened⟩
            | none =>
              let shown := String.ofList (quotedChars (cs.take 1))
              .error { message := s!"unexpected char {shown} at {c.position}", line := c.line }

/-- Where scanning stands: outside of tags, or inside one with open brackets. -/
inductive Mode where
  /-- Outside of tags. -/
  | outside
  /-- Inside a tag. -/
  | inside (kind : TagKind) (opened : List Symbol)

/-- The token that opens a tag. -/
def TagKind.open : TagKind → Token
  | .print => .openPrint
  | .block => .openBlock

/-- The token that closes a tag. -/
def TagKind.close : TagKind → Token
  | .print => .closePrint
  | .block => .closeBlock

/-- A result of scanning with more tokens in front. -/
def Lexemes.prepend (ls : List Lexeme) (r : Lexemes) : Lexemes :=
  { r with items := ls ++ r.items }

/-- What a step of scanning finds: tokens, and where and how to go on, unless
the text ends or a mistake is met. -/
structure Found where
  /-- The tokens. -/
  items : List Lexeme
  /-- Where to go on. -/
  next : Except (Option Mistake) (Cursor × Mode)

/-- A part of a text that ends with a closing tag and whose inside is `body`:
the tokens of the body, if it is text, and the place after the tag. -/
def enclosed (c : Cursor) (isText : Bool) (close? : List Char → Option Nat)
    (missing : String) : Found :=
  match findLength? close? c.rest with
  | some (body, n) =>
    let tag := c.rest.drop body.length
    let items := if isText then dataLexeme c.line (beforeTag tag body) else []
    ⟨items, .ok (c.advance (body.length + n), .outside)⟩
  | none =>
    -- Nothing is missing where the text ends right after the opening.
    ⟨[], .error (if c.rest.isEmpty then none
      else some { message := missing, line := c.line, isAnonymous := true })⟩

/-- A step outside of tags. -/
def outsideStep (c : Cursor) : Found :=
  match findLength? (fun cs => (opening? cs).map Prod.snd) c.rest with
  | none => ⟨dataLexeme c.line c.rest, .error none⟩
  | some (data, n) =>
    let tag := c.rest.drop data.length
    let text := dataLexeme c.line (beforeTag tag data)
    let there := c.advance data.length
    let inner := there.advance n
    match opening? tag with
    | some (.tag kind, _) =>
      ⟨text ++ [⟨kind.open, there.line⟩], .ok (inner, .inside kind [])⟩
    | some (.comment, _) =>
      let found := enclosed inner false commentCloseLength? "Missing end of comment tag"
      ⟨text ++ found.items, found.next⟩
    | _ =>
      let found := enclosed inner true rawCloseLength? "Missing end of raw directive"
      ⟨text ++ found.items, found.next⟩

/-- A step inside a tag. -/
def insideStep (c : Cursor) (kind : TagKind) (opened : List Symbol) : Found :=
  if c.rest.isEmpty then ⟨[], .error none⟩
  else
    -- While a bracket is open, closing braces close brackets.
    match if opened.isEmpty then closeLength? kind c.rest else none with
    | some n => ⟨[⟨kind.close, c.line⟩], .ok (c.advance n, .outside)⟩
    | none =>
      match piece c opened with
      | .error e => ⟨[], .error (some e)⟩
      | .ok p =>
        ⟨p.token.toList.map (⟨·, c.line⟩), .ok (c.advance p.count, .inside kind p.opened)⟩

/-- The tokens of a text from a place on. Every step passes a character, so
their number bounds the steps. -/
def Cursor.scan (c : Cursor) (mode : Mode) : Nat → Lexemes
  | 0 => ⟨[], none⟩
  | steps + 1 =>
    let found := match mode with
      | .outside => outsideStep c
      | .inside kind opened => insideStep c kind opened
    match found.next with
    | .error mistake => ⟨found.items, mistake⟩
    | .ok (c', mode') => (c'.scan mode' steps).prepend found.items

/-- The tokens of a text. -/
def tokens (text : String) : Lexemes :=
  let cs := unifyBreaks text.toList
  (Cursor.start cs).scan .outside (cs.length + 1)

end Template

end Stencil
