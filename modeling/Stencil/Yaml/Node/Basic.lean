import Stencil.Yaml.Tag
import Stencil.Yaml.Token.Stream

/-!
# Nodes

The structure of a document: texts, sequences and maps, each with its type.

A node is composed while its tokens are read, so that the fault that comes
first in the text is the one that is found: a name that is used twice or not
known is met before a bad token after it.

A name stands for the node that it was given to. Within that node it stands
for something that is not complete, which no finite value can be.

## Main definitions

* `Node`: A node.
* `Compose`: Composing nodes from tokens.
* `Node.ofText`: The node of the only document of a text.
-/

namespace Stencil

namespace Yaml

/-- A node. -/
inductive Node where
  /-- A text. -/
  | scalar (tag : Tag) (text : String)
  /-- A sequence. -/
  | list (tag : Tag) (items : List Node)
  /-- A map, its entries in order. -/
  | map (tag : Tag) (entries : List (Node × Node))
  /-- A node that stands within itself. -/
  | loop
  deriving Inhabited

/-- What is known while nodes are composed. -/
structure Composition where
  /-- The tokens. -/
  tokens : TokenStream
  /-- What handles stand for. -/
  handles : List (String × String)
  /-- The nodes with names; one that is not complete has no node yet. -/
  anchors : List (String × Option Node)

/-- Composing nodes from tokens. -/
abbrev Compose (α : Type) := StateT Composition (Except Fault) α

namespace Compose

/-- The token in front. -/
def peek : Compose Token := do
  let c ← get
  let (t, tokens) ← c.tokens.peek
  set { c with tokens := tokens }
  return t

/-- Takes the token in front. -/
def skip : Compose Unit :=
  modify fun c => { c with tokens := c.tokens.drop }

/-- The token in front is one of some. -/
def isAt (ts : List Token) : Compose Bool := do
  return ts.contains (← peek)

/-- The tokens do not fit together. -/
def misfit {α : Type} : Compose α :=
  throw .grammar

/-- A number that no count of tokens, entries or levels exceeds. -/
def bound : Compose Nat := do
  let c ← get
  return 4 * c.tokens.cursor.rest.length + 2 * c.tokens.queue.length + 16

/-- A node of an empty text. -/
def emptyNode : Node :=
  .scalar .null ""

/-- Refuses a second node with a name. -/
def declare (anchor : Option String) : Compose Unit := do
  match anchor with
  | none => return
  | some name =>
    if ((← get).anchors.lookup name).isSome then throw .reference else return

/-- Gives a name to a node, or to one that is not complete. -/
def name (anchor : Option String) (node : Option Node) : Compose Unit :=
  match anchor with
  | none => return
  | some a => modify fun c => { c with anchors := (a, node) :: c.anchors.filter (·.1 != a) }

/-- The node with a name. -/
def named (a : String) : Compose Node := do
  match (← get).anchors.lookup a with
  | none => throw .reference
  | some none => return .loop
  | some (some node) => return node

/-- What is written in front of a node: a name and a tag, in either order. -/
def properties : Compose (Option String × Option (Option String × String)) := do
  let tag? : Compose (Option (Option String × String)) := do
    match ← peek with
    | .tag handle suffix =>
      skip
      return some (handle, suffix)
    | _ => return none
  let anchor? : Compose (Option String) := do
    match ← peek with
    | .anchor a =>
      skip
      return some a
    | _ => return none
  match ← anchor? with
  | some a => return (some a, ← tag?)
  | none =>
    match ← tag? with
    | some t => return (← anchor?, some t)
    | none => return (none, none)

/-- The name of a type as a tag gives it. -/
def tagName (tag : Option String × String) : Compose String := do
  match tag.1 with
  | none => return tag.2
  | some handle =>
    match (← get).handles.lookup handle with
    | some lead => return lead ++ tag.2
    | none => misfit

/-- The type of a text. The bare exclamation mark counts as no tag, and makes a
text plain. -/
def scalarTag (tag : Option String) (text : String) (isPlain : Bool) : Tag :=
  match tag with
  | none => if isPlain then .ofPlain text else .text
  | some t => if t == "!" then .ofPlain text else .ofName t

/-- The type of a collection. -/
def collectionTag (tag : Option String) (usual : Tag) : Tag :=
  match tag with
  | none => usual
  | some t => if t == "!" then usual else .ofName t

/-- The items of a sequence told by indentation; the count bounds them. -/
def blockItems (item : Compose Node) : Nat → Compose (List Node)
  | 0 => misfit
  | n + 1 => do
    match ← peek with
    | .item =>
      skip
      let node ← if ← isAt [.item, .blockEnd] then pure emptyNode else item
      return node :: (← blockItems item n)
    | .blockEnd =>
      skip
      return []
    | _ => misfit

/-- The items of a sequence that stands where its map does; the count bounds
them. -/
def bareItems (item : Compose Node) : Nat → Compose (List Node)
  | 0 => misfit
  | n + 1 => do
    match ← peek with
    | .item =>
      skip
      let node ← if ← isAt [.item, .key, .value, .blockEnd] then pure emptyNode else item
      return node :: (← bareItems item n)
    | _ => return []

/-- The node after a key's mark or a value's, which may be left out. -/
def blockPart (item : Compose Node) : Compose Node := do
  skip
  if ← isAt [.key, .value, .blockEnd] then return emptyNode else item

/-- The entries of a map told by indentation; the count bounds them. -/
def blockEntries (item : Compose Node) : Nat → Compose (List (Node × Node))
  | 0 => misfit
  | n + 1 => do
    match ← peek with
    | .key =>
      let key ← blockPart item
      let value ← if ← isAt [.value] then blockPart item else pure emptyNode
      return (key, value) :: (← blockEntries item n)
    | .blockEnd =>
      skip
      return []
    | _ => misfit

/-- The comma between items in brackets. -/
def separator (isFirst : Bool) : Compose Unit := do
  if isFirst then return
  else if ← isAt [.comma] then skip
  else misfit

/-- A node in brackets after a mark; it may be left out before some tokens. -/
def flowPart (item : Compose Node) (ends : List Token) : Compose Node := do
  skip
  if ← isAt ends then return emptyNode else item

/-- The value of an entry in brackets, if there is one. -/
def flowValue (item : Compose Node) (close : Token) : Compose Node := do
  if ← isAt [.value] then flowPart item [.comma, close] else return emptyNode

/-- The items in square brackets; the count bounds them. -/
def flowItems (item : Compose Node) : Nat → Bool → Compose (List Node)
  | 0, _ => misfit
  | n + 1, isFirst => do
    if ← isAt [.listClose] then
      skip
      return []
    else
      separator isFirst
      match ← peek with
      | .key =>
        let key ← flowPart item [.value, .comma, .listClose]
        let value ← flowValue item .listClose
        -- An entry in square brackets is a map of its own.
        return .map .map [(key, value)] :: (← flowItems item n false)
      | .listClose =>
        skip
        return []
      | _ =>
        let node ← item
        return node :: (← flowItems item n false)

/-- The entries in braces; the count bounds them. -/
def flowEntries (item : Compose Node) : Nat → Bool → Compose (List (Node × Node))
  | 0, _ => misfit
  | n + 1, isFirst => do
    if ← isAt [.mapClose] then
      skip
      return []
    else
      separator isFirst
      match ← peek with
      | .key =>
        let key ← flowPart item [.value, .comma, .mapClose]
        let value ← flowValue item .mapClose
        return (key, value) :: (← flowEntries item n false)
      | .mapClose =>
        skip
        return []
      | _ =>
        let key ← item
        return (key, emptyNode) :: (← flowEntries item n false)

/-- A collection with a name, which stands for it as soon as it is known to be
one. -/
def collection (anchor : Option String) (contents : Compose Node) : Compose Node := do
  declare anchor
  name anchor none
  let node ← contents
  name anchor (some node)
  return node

/-- A text with a name. -/
def leaf (anchor : Option String) (node : Node) : Compose Node := do
  declare anchor
  name anchor (some node)
  return node

/-- A node; the count bounds how deep nodes are nested. `inBlock` allows what is
told by indentation, and `bare` a sequence that stands where its map does. -/
def node : Nat → Bool → Bool → Compose Node
  | 0, _, _ => misfit
  | n + 1, inBlock, bare => do
    match ← peek with
    | .aliased a =>
      skip
      named a
    | _ =>
      let (anchor, written) ← properties
      let tag ← match written with
        | none => pure none
        | some t => some <$> tagName t
      let count ← bound
      let list (items : Compose (List Node)) : Compose Node :=
        collection anchor (Node.list (collectionTag tag .list) <$> items)
      let map (entries : Compose (List (Node × Node))) : Compose Node :=
        collection anchor (Node.map (collectionTag tag .map) <$> entries)
      match ← peek, inBlock, bare with
      | .item, _, true => list (bareItems (node n true false) count)
      | .scalar text isPlain, _, _ =>
        skip
        leaf anchor (.scalar (scalarTag tag text isPlain) text)
      | .listOpen, _, _ =>
        list do
          skip
          flowItems (node n false false) count true
      | .mapOpen, _, _ =>
        map do
          skip
          flowEntries (node n false false) count true
      | .sequenceStart, true, _ =>
        list do
          skip
          blockItems (node n true false) count
      | .mapStart, true, _ =>
        map do
          skip
          blockEntries (node n true true) count
      -- A name or a tag may stand before nothing.
      | _, _, _ =>
        if anchor.isSome || tag.isSome then leaf anchor (.scalar (scalarTag tag "" true) "")
        else misfit

/-- What handles stand for where no directive says otherwise. -/
def usualHandles : List (String × String) :=
  [("!", "!"), ("!!", Tag.lead)]

/-- The directives in front of a document; the count bounds them. -/
def directives (hasVersion : Bool) (handles : List (String × String)) :
    Nat → Compose (List (String × String))
  | 0 => misfit
  | n + 1 => do
    match ← peek with
    | .version major _ =>
      skip
      if hasVersion || major != 1 then misfit else directives true handles n
    | .handle h lead =>
      skip
      if (handles.lookup h).isSome then misfit
      else directives hasVersion ((h, lead) :: handles) n
    | .directive =>
      skip
      directives hasVersion handles n
    | _ => return handles ++ usualHandles

/-- The marks of ended documents; the count bounds them. -/
def skipEnds : Nat → Compose Unit
  | 0 => return
  | n + 1 => do
    if ← isAt [.documentEnd] then
      skip
      skipEnds n
    else return

/-- Whether another document starts; its directives and its mark are taken. -/
def startDocument : Compose Bool := do
  skipEnds (← bound)
  match ← peek with
  | .finish => return false
  | _ =>
    let handles ← directives false [] (← bound)
    modify fun c => { c with handles := handles }
    if ← isAt [.documentStart] then
      skip
      return true
    else misfit

/-- The token is a directive. -/
def isDirective : Token → Bool
  | .version _ _ => true
  | .handle _ _ => true
  | .directive => true
  | _ => false

/-- The node of a document whose mark was taken. -/
def documentContent : Compose Node := do
  let t ← peek
  if isDirective t || t == .documentStart || t == .documentEnd || t == .finish then
    return emptyNode
  else node (← bound) true false

/-- The only document, if there is one. -/
def document : Compose (Option Node) := do
  let t ← peek
  let found ←
    if isDirective t || t == .documentStart || t == .finish then
      if ← startDocument then some <$> documentContent else pure none
    else some <$> (do node (← bound) true false)
  match found with
  | none => return none
  | some n =>
    if ← isAt [.documentEnd] then skip else pure ()
    if ← startDocument then throw .reference else return some n

end Compose

/-- The character can stand in a text that is read. -/
def isReadable (c : Char) : Bool :=
  let n := c.toNat
  c == '\t' || c == '\n' || c == '\r' || (0x20 ≤ n && n ≤ 0x7E) || n == 0x85 ||
    (0xA0 ≤ n && n ≤ 0xD7FF) || (0xE000 ≤ n && n ≤ 0xFFFD) || 0x10000 ≤ n

/-- The node of the only document of a text, if it has one. -/
def Node.ofText (s : String) : Except Fault (Option Node) :=
  let cs := s.toList
  if cs.all isReadable then
    (Compose.document.run ⟨.ofList cs, Compose.usualHandles, []⟩).map Prod.fst
  else .error .character

end Yaml

end Stencil
