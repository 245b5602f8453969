import Stencil.Yaml.Token.Scalar

/-!
# Token Streams

The tokens of a text, found as far as they are asked for.

A colon makes what stands before it on its line a key, and the token that
says so comes before it. So a token that could start a key is handed out only
when it is known whether it does. At most one such place is open at every
depth of brackets; it lapses at the end of its line, and after 1024
characters. Where a key has to start, a lapsed place is a fault.

Outside of brackets the column of a token decides where blocks start and end.

## Main definitions

* `TokenStream`: The tokens at hand, and the state of the text behind them.
* `TokenStream.fetch`: Finds more tokens.
* `TokenStream.peek`, `TokenStream.drop`: The token in front, and the stream
  after it.
-/

namespace Stencil

namespace Yaml

/-- A place where a key may start. -/
structure KeyPlace where
  /-- The number of the token that stands there. -/
  number : Nat
  /-- A key has to start there. -/
  isRequired : Bool
  /-- Where it is. -/
  cursor : Cursor
  deriving Repr, Inhabited

/-- The tokens of a text, found as far as they were asked for. -/
structure TokenStream where
  /-- Where the text is read on. -/
  cursor : Cursor
  /-- The text has ended. -/
  isDone : Bool
  /-- How deep in brackets the text is. -/
  depth : Int
  /-- The tokens that were not taken. -/
  queue : List Token
  /-- How many tokens were taken. -/
  taken : Nat
  /-- The column of the innermost block. -/
  indent : Int
  /-- The columns of the blocks around it. -/
  outer : List Int
  /-- A key may start here. -/
  allowsKey : Bool
  /-- The open places, by depth. -/
  places : List (Int × KeyPlace)
  deriving Repr, Inhabited

namespace TokenStream

/-- The tokens of a text. -/
def ofList (cs : List Char) : TokenStream where
  cursor := .ofList cs
  isDone := false
  depth := 0
  queue := []
  taken := 0
  indent := -1
  outer := []
  allowsKey := true
  places := []

/-- The text is read outside of brackets. -/
def inBlock (s : TokenStream) : Bool :=
  s.depth == 0

/-- The stream with a token at its end. -/
def push (s : TokenStream) (t : Token) : TokenStream :=
  { s with queue := s.queue ++ [t] }

/-- Closes the places that lapsed. -/
def lapse (s : TokenStream) : Except Fault TokenStream :=
  let hasLapsed (p : Int × KeyPlace) : Bool :=
    p.2.cursor.line != s.cursor.line || s.cursor.index - p.2.cursor.index > 1024
  if s.places.any fun p => hasLapsed p && p.2.isRequired then noToken
  else .ok { s with places := s.places.filter fun p => !hasLapsed p }

/-- Closes the place at this depth. -/
def closePlace (s : TokenStream) : Except Fault TokenStream :=
  match s.places.lookup s.depth with
  | none => .ok s
  | some p =>
    if p.isRequired then noToken
    else .ok { s with places := s.places.filter (·.1 != s.depth) }

/-- Opens a place for the token that comes next, if a key may start here. -/
def openPlace (s : TokenStream) : Except Fault TokenStream :=
  if s.allowsKey then do
    let required := s.inBlock && s.indent == Int.ofNat s.cursor.column
    let s ← s.closePlace
    let place : KeyPlace := ⟨s.taken + s.queue.length, required, s.cursor⟩
    return { s with places := s.places ++ [(s.depth, place)] }
  else .ok s

/-- Ends the blocks that start right of a column; the count bounds them. -/
def endBlocks (column : Int) : Nat → TokenStream → TokenStream
  | 0, s => s
  | n + 1, s =>
    if s.indent > column then
      endBlocks column n
        { s.push .blockEnd with indent := s.outer.headD (-1), outer := s.outer.tail }
    else s

/-- Ends the blocks that start right of a column, outside of brackets. -/
def unwind (s : TokenStream) (column : Int) : TokenStream :=
  if s.inBlock then endBlocks column (s.outer.length + 1) s else s

/-- Starts a block at a column if it is right of the innermost one, and tells
whether it did. -/
def startBlock (s : TokenStream) (column : Int) : Bool × TokenStream :=
  if s.indent < column then
    (true, { s with outer := s.indent :: s.outer, indent := column })
  else (false, s)

/-- The stream with a token for the next characters. -/
def take (s : TokenStream) (count : Nat) (t : Token) : TokenStream :=
  { s with cursor := s.cursor.advance count, queue := s.queue ++ [t] }

/-- The stream with a token that ends elsewhere. -/
def accept (s : TokenStream) (found : Token × Cursor) : TokenStream :=
  { s with cursor := found.2, queue := s.queue ++ [found.1] }

/-- The stream where a key may start, or not. -/
def allow (s : TokenStream) (allowsKey : Bool) : TokenStream :=
  { s with allowsKey := allowsKey }

/-- The end of the text. -/
def fetchEnd (s : TokenStream) : Except Fault TokenStream := do
  let s ← (s.unwind (-1)).closePlace
  return { (s.push .finish).allow false with places := [], isDone := true }

/-- A directive or a mark between documents. -/
def fetchMark (s : TokenStream) (scan : Cursor → Except Fault (Token × Cursor)) :
    Except Fault TokenStream := do
  let s ← (s.unwind (-1)).closePlace
  return (s.allow false).accept (← scan s.cursor)

/-- An opening bracket. -/
def fetchOpen (s : TokenStream) (t : Token) : Except Fault TokenStream := do
  let s ← s.openPlace
  return ({ s with depth := s.depth + 1 }.allow true).take 1 t

/-- A closing bracket. -/
def fetchClose (s : TokenStream) (t : Token) : Except Fault TokenStream := do
  let s ← s.closePlace
  return ({ s with depth := s.depth - 1 }.allow false).take 1 t

/-- A comma. -/
def fetchComma (s : TokenStream) : Except Fault TokenStream := do
  let s ← (s.allow true).closePlace
  return s.take 1 .comma

/-- The stream with a block that starts here, unless one does already. Nothing
may start here if no key may. -/
def startHere (s : TokenStream) (t : Token) : Except Fault TokenStream :=
  if s.inBlock then
    if !s.allowsKey then noToken
    else
      let (started, s) := s.startBlock s.cursor.column
      .ok (if started then s.push t else s)
  else .ok s

/-- A dash in front of an item. -/
def fetchItem (s : TokenStream) : Except Fault TokenStream := do
  let s ← s.startHere .sequenceStart
  let s ← (s.allow true).closePlace
  return s.take 1 .item

/-- A question mark in front of a key. -/
def fetchKey (s : TokenStream) : Except Fault TokenStream := do
  let s ← s.startHere .mapStart
  let s ← (s.allow s.inBlock).closePlace
  return s.take 1 .key

/-- A colon in front of a value. -/
def fetchValue (s : TokenStream) : Except Fault TokenStream :=
  match s.places.lookup s.depth with
  -- The key has been passed, so its mark is put in front of it.
  | some p =>
    let s := { s with places := s.places.filter (·.1 != s.depth) }
    let at_ := p.number - s.taken
    let (started, s) := if s.inBlock then s.startBlock p.cursor.column else (false, s)
    let marks := if started then [Token.mapStart, .key] else [.key]
    let s := { s with queue := s.queue.take at_ ++ marks ++ s.queue.drop at_ }
    .ok ((s.allow false).take 1 .value)
  | none => do
    let s ← s.startHere .mapStart
    let s ← (s.allow s.inBlock).closePlace
    return s.take 1 .value

/-- A token that may start a key but after which none may start. -/
def fetchSimple (s : TokenStream) (scan : Cursor → Except Fault (Token × Cursor)) :
    Except Fault TokenStream := do
  let s ← s.openPlace
  return (s.allow false).accept (← scan s.cursor)

/-- A text without quotes. -/
def fetchPlain (s : TokenStream) : Except Fault TokenStream := do
  let s ← s.openPlace
  let (token, allowsKey, after) := scanPlain (!s.inBlock) s.indent s.cursor
  return (s.allow allowsKey).accept (token, after)

/-- A text told by indentation. -/
def fetchBlock (s : TokenStream) (folds : Bool) : Except Fault TokenStream := do
  let s ← (s.allow true).closePlace
  return s.accept (← scanBlock folds s.indent s.cursor)

/-- The blanks, comments and line breaks before the next token; a key may start
after a line break outside of brackets. The count bounds the lines. -/
def skipGaps : Nat → TokenStream → TokenStream
  | 0, s => s
  | n + 1, s =>
    let after := (skipSpaces s.cursor).skipComment
    match after.lineBreak with
    | ([], after) => { s with cursor := after }
    | (_, after) =>
      skipGaps n { s with cursor := after, allowsKey := s.allowsKey || s.inBlock }

/-- The start of the next token. -/
def skipToToken (s : TokenStream) : TokenStream :=
  let c := s.cursor
  let start := if c.index == 0 && c.peek == byteOrderMark then c.next else c
  skipGaps (start.rest.length + 1) { s with cursor := start }

/-- A text without quotes starts here. -/
def startsPlain (s : TokenStream) : Bool :=
  let ch := s.cursor.peek
  !(isWhite ch || "-?:,[]\x7b\x7d#&*!|>'\"%@\x60".toList.contains ch) ||
    (!isWhite (s.cursor.peek 1) && (ch == '-' || (s.inBlock && (ch == '?' || ch == ':'))))

/-- Finds the token at the cursor. -/
def fetchHere (s : TokenStream) : Except Fault TokenStream :=
  let c := s.cursor
  let ch := c.peek
  let atStart := c.column == 0
  let alone := isWhite (c.peek 1)
  if ch == endMark then s.fetchEnd
  else if ch == '%' && atStart then s.fetchMark scanDirective
  else if atStart && c.startsMark ['-', '-', '-'] then
    s.fetchMark fun c => .ok (.documentStart, c.advance 3)
  else if atStart && c.startsMark ['.', '.', '.'] then
    s.fetchMark fun c => .ok (.documentEnd, c.advance 3)
  else if ch == '[' then s.fetchOpen .listOpen
  else if ch == '\x7b' then s.fetchOpen .mapOpen
  else if ch == ']' then s.fetchClose .listClose
  else if ch == '\x7d' then s.fetchClose .mapClose
  else if ch == ',' then s.fetchComma
  else if ch == '-' && alone then s.fetchItem
  else if ch == '?' && (alone || !s.inBlock) then s.fetchKey
  else if ch == ':' && (alone || !s.inBlock) then s.fetchValue
  else if ch == '*' then
    s.fetchSimple fun c => (scanAnchor c).map fun f => (.aliased f.1, f.2)
  else if ch == '&' then
    s.fetchSimple fun c => (scanAnchor c).map fun f => (.anchor f.1, f.2)
  else if ch == '!' then s.fetchSimple scanTag
  else if ch == '|' && s.inBlock then s.fetchBlock false
  else if ch == '>' && s.inBlock then s.fetchBlock true
  else if ch == '\'' || ch == '"' then s.fetchSimple scanQuoted
  else if s.startsPlain then s.fetchPlain
  else noToken

/-- Finds more tokens. -/
def fetch (s : TokenStream) : Except Fault TokenStream := do
  let s ← s.skipToToken.lapse
  (s.unwind s.cursor.column).fetchHere

/-- The token in front may turn out to start a key. -/
def isOpen (s : TokenStream) : Bool :=
  s.places.any fun p => p.2.number == s.taken

/-- Finds tokens until the one in front is settled; the count bounds them. -/
def settleFrom : Nat → TokenStream → Except Fault TokenStream
  | 0, s => .ok s
  | n + 1, s =>
    if s.isDone then .ok s
    else if s.queue.isEmpty then do settleFrom n (← s.fetch)
    else do
      let s ← s.lapse
      if s.isOpen then settleFrom n (← s.fetch) else return s

/-- The stream with the token in front settled. -/
def settle (s : TokenStream) : Except Fault TokenStream :=
  settleFrom (s.cursor.rest.length + 2) s

/-- The token in front, and the stream with it settled. -/
def peek (s : TokenStream) : Except Fault (Token × TokenStream) := do
  let s ← s.settle
  return (s.queue.headD .finish, s)

/-- The stream after the token in front. -/
def drop (s : TokenStream) : TokenStream :=
  match s.queue with
  | [] => s
  | _ :: rest => { s with queue := rest, taken := s.taken + 1 }

end TokenStream

end Yaml

end Stencil
