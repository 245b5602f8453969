import Stencil.Yaml.Cursor

/-!
# Tokens

The pieces that a text is read into before its structure is known.

Indentation is told by tokens of its own: a block starts, and a block ends.
That a text before a colon is a key is told by a token in front of it.

## Main definitions

* `Token`: A piece.
* `Fault`: Why a text cannot be read.
-/

namespace Stencil

namespace Yaml

/-- A piece of a text. -/
inductive Token where
  /-- The text ends. -/
  | finish
  /-- A version directive with the version. -/
  | version (major minor : Nat)
  /-- A tag directive: a handle, and what it stands for. -/
  | handle (name lead : String)
  /-- Any other directive. -/
  | directive
  /-- A document starts. -/
  | documentStart
  /-- A document ends. -/
  | documentEnd
  /-- A sequence starts that is told by indentation. -/
  | sequenceStart
  /-- A map starts that is told by indentation. -/
  | mapStart
  /-- What was started by indentation ends. -/
  | blockEnd
  /-- An opening square bracket. -/
  | listOpen
  /-- A closing square bracket. -/
  | listClose
  /-- An opening brace. -/
  | mapOpen
  /-- A closing brace. -/
  | mapClose
  /-- A comma. -/
  | comma
  /-- A dash in front of an item. -/
  | item
  /-- A key follows. -/
  | key
  /-- A value follows. -/
  | value
  /-- A node that stands elsewhere. -/
  | aliased (name : String)
  /-- A name for the node that follows. -/
  | anchor (name : String)
  /-- A tag: a handle, if any, and the rest. -/
  | tag (handle : Option String) (suffix : String)
  /-- A text. A plain one has no quotes and is no block. -/
  | scalar (text : String) (isPlain : Bool)
  deriving DecidableEq, Repr, Inhabited

/-- Why a text cannot be read. -/
inductive Fault where
  /-- It holds a character that no such text may hold. -/
  | character
  /-- Something in it is no token. -/
  | token
  /-- Its tokens do not fit together. -/
  | grammar
  /-- A name refers to nothing, or to two things, or there are two documents. -/
  | reference
  /-- A node cannot be what its tag says. -/
  | construction
  /-- A text has the form of its type but stands for nothing. -/
  | badValue
  /-- A text is none of the words of its type. -/
  | badWord
  /-- A text is empty and its type needs a character. -/
  | emptyValue
  /-- A text does not have the form of its type. -/
  | badForm
  /-- A number is too large. -/
  | tooLarge
  deriving DecidableEq, Repr

/-- The wording of a fault. -/
def Fault.message : Fault → String
  | .character => "a character that no document may hold"
  | .token => "something that is no token"
  | .grammar => "tokens that do not fit together"
  | .reference => "a name that refers to nothing or to two things, or a second document"
  | .construction => "a node that cannot be what its tag says"
  | .badValue => "a text that stands for nothing"
  | .badWord => "a text that is none of the words of its type"
  | .emptyValue => "a text that is empty"
  | .badForm => "a text that does not have the form of its type"
  | .tooLarge => "a number that is too large"

/-- The text breaks the rules of the format, as opposed to holding a value that
cannot be built. -/
def Fault.breaksFormat : Fault → Bool
  | .character => true
  | .token => true
  | .grammar => true
  | .reference => true
  | .construction => true
  | _ => false

/-- Something is no token. -/
def noToken {α : Type} : Except Fault α :=
  .error .token

end Yaml

end Stencil
