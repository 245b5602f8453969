import Stencil.Template.Value.Arithmetic
import Stencil.Template.Value.Access
import Stencil.Text.Blank
import Stencil.Text.Case
import Stencil.Text.Lines
import Stencil.Text.Name

/-!
# Methods

The methods of texts, lists, maps and numbers.

No method changes the value that it belongs to. A method checks how many
arguments it gets and of which types, in the order in which they stand.

## Main definitions

* `CallArgs`: The arguments of a call.
* `Value.callMethod`: The result of a method.
-/

namespace Stencil

namespace Template

open Text

/-- The arguments of a call. -/
structure CallArgs where
  /-- The positional ones. -/
  positional : List Value
  /-- The named ones, in order. -/
  named : List (String × Value)
  deriving Inhabited

namespace Value

/-- A word for one or several. -/
def plural (n : Nat) (word : String) : String :=
  if n == 1 then word else word ++ "s"

/-- Refuses arguments that are too few or too many for a method. -/
def checkCount (name : String) (least most : Nat) (args : CallArgs) : Outcome Unit :=
  let n := args.positional.length
  if !args.named.isEmpty then badType s!"str.{name}() takes no keyword arguments"
  else if n < least then
    let noun := plural least "argument"
    badType s!"{name} expected at least {least} {noun}, got {n}"
  else if n > most then
    let noun := plural most "argument"
    badType s!"{name} expected at most {most} {noun}, got {n}"
  else .ok ()

/-- Refuses any argument of a method. -/
def checkNone (type name : String) (args : CallArgs) : Outcome Unit :=
  if !args.named.isEmpty then badType s!"{type}.{name}() takes no keyword arguments"
  else if args.positional.isEmpty then .ok ()
  else badType s!"{type}.{name}() takes no arguments ({args.positional.length} given)"

/-- A whole number as an argument. -/
def wholeArg (v : Value) : Outcome Int :=
  match v.count? with
  | some n => .ok n
  | Option.none => badType s!"'{v.typeName}' object cannot be interpreted as an integer"

/-- A text as an argument. -/
def textArg (v : Value) : Outcome String :=
  match v with
  | .text s => .ok s
  | .undefined u => missing u
  | v => badType s!"must be str, not {v.typeName}"

/-- Words cut at blanks, at most `most` cuts; the last word is what is left. -/
def wordsUpTo : Nat → List Char → List (List Char)
  | most, cs =>
    match dropBlanks cs with
    | [] => []
    | rest =>
      match most with
      | 0 => [rest]
      | m + 1 =>
        let word := rest.takeWhile (!isBlank ·)
        word :: wordsUpTo m (rest.drop word.length)

/-- The arguments of a method that cuts a text: a separator and a count. -/
def splitArgs (name : String) (args : CallArgs) : Outcome (Value × Int) := do
  let allowed := ["sep", "maxsplit"]
  match args.named.find? fun e => !allowed.contains e.1 with
  | some e => badType s!"'{e.1}' is an invalid keyword argument for {name}()"
  | Option.none =>
    if args.positional.length > 2 then
      badType s!"{name}() takes at most 2 arguments ({args.positional.length} given)"
    else
      let arg (i : Nat) (key : String) (default : Value) : Value :=
        (args.positional[i]?).getD ((args.named.lookup key).getD default)
      return (arg 0 "sep" .none, ← wholeArg (arg 1 "maxsplit" (.int (-1))))

/-- The pieces of a text between separators or blanks. -/
def splitText (name : String) (right : Bool) (s : String) (args : CallArgs) : Outcome Value := do
  let (sep, most) ← splitArgs name args
  let cs := s.toList
  let most := if most < 0 then cs.length + 1 else most.toNat
  let ofPieces (ps : List (List Char)) : Value := .list (ps.map fun p => .text (String.ofList p))
  match sep with
  | .none =>
    if right then
      return ofPieces (((wordsUpTo most cs.reverse).map List.reverse).reverse)
    else return ofPieces (wordsUpTo most cs)
  | .text t =>
    if t.isEmpty then badValue "empty separator"
    else if right then return ofPieces (splitOnTextRight t.toList cs most)
    else return ofPieces (splitOnText t.toList cs most)
  | v => badType s!"must be str or None, not {v.typeName}"

/-- The characters to trim. -/
def trimSet (name : String) (args : CallArgs) : Outcome (Char → Bool) := do
  checkCount name 0 1 args
  match args.positional with
  | [] => return isBlank
  | .none :: _ => return isBlank
  | .text t :: _ => return fun c => t.toList.contains c
  | _ => badType s!"{name} arg must be None or str"

/-- The texts to look for at an end of a text. -/
def affixes (name : String) (v : Value) : Outcome (List String) :=
  match v with
  | .text t => .ok [t]
  | .tuple xs =>
    xs.mapM fun x => match x with
      | .text t => .ok t
      | x => badType s!"tuple for {name} must only contain str, not {x.typeName}"
  | v => badType s!"{name} first arg must be str or a tuple of str, not {v.typeName}"

/-- A bound of the part that is searched. -/
def boundArg (v : Option Value) : Outcome (Option Int) :=
  match v with
  | Option.none => .ok Option.none
  | some v => sliceBound v

/-- The part of a text that is searched: the characters, where they start, and
whether the start is inside the text at all. -/
def searched (s : String) (args : CallArgs) : Outcome (List Char × Nat × Bool) := do
  let cs := s.toList
  let a ← boundArg args.positional[1]?
  let b ← boundArg args.positional[2]?
  let n := Int.ofNat cs.length
  let first := match a with
    | Option.none => 0
    | some i => if i < 0 then max (i + n) 0 else i
  let bound := (b.map (clip n 0 n)).getD n
  return ((cs.drop first.toNat).take (bound - first).toNat, first.toNat,
    first ≤ n && first ≤ bound)

/-- Where a text occurs in another: the first or the last place. -/
def findIn (name : String) (last : Bool) (s : String) (args : CallArgs) : Outcome (Option Nat) := do
  checkCount name 1 3 args
  let needle := (← textArg (args.positional.headD .none)).toList
  let (cs, start, inside) ← searched s args
  if !inside then return Option.none
  else if last then
    return (Text.find? needle.reverse cs.reverse).map fun i =>
      start + (cs.length - i - needle.length)
  else return (Text.find? needle cs).map (start + ·)

/-- How often a text occurs in another without overlap. -/
def occurrences (needle cs : List Char) : Nat :=
  if needle.isEmpty then cs.length + 1
  else (splitOnText needle cs (cs.length + 1)).length - 1

/-- The width and the filling of a method that pads. -/
def padArgs (name : String) (args : CallArgs) : Outcome (Nat × Char) := do
  checkCount name 1 2 args
  let width ← wholeArg (args.positional.headD .none)
  let fill ← match args.positional[1]? with
    | Option.none => pure ' '
    | some (Value.text t) =>
      match t.toList with
      | [c] => pure c
      | _ => badType "The fill character must be exactly one character long"
    | some v => badType s!"The fill character must be a unicode character, not {v.typeName}"
  return (width.toNat, fill)

/-- A text with filling on its two sides. -/
def padded (left right : Nat) (fill : Char) (s : String) : String :=
  String.ofList (List.replicate left fill ++ s.toList ++ List.replicate right fill)

/-- A text in the middle of a width. -/
def centered (width : Nat) (fill : Char) (s : String) : String :=
  let room := width - s.length
  let left := room / 2 + room % 2 * (width % 2)
  padded left (room - left) fill s

/-- Zeros between the sign of a numeral and its digits. -/
def zeroFilled (width : Nat) (s : String) : String :=
  let zeros := List.replicate (width - s.length) '0'
  match s.toList with
  | '-' :: rest => String.ofList ('-' :: zeros ++ rest)
  | '+' :: rest => String.ofList ('+' :: zeros ++ rest)
  | cs => String.ofList (zeros ++ cs)

/-- The text is in a case: all cased characters are, and there is one. -/
def allCased (inCase : Char → Bool) (cs : List Char) : Bool :=
  cs.any isCased && cs.all fun c => !isCased c || inCase c

/-- Every run of cased characters starts with a capital and goes on without. -/
def isTitleFrom (inRun : Bool) : List Char → Bool
  | [] => true
  | c :: cs =>
    if isUpper c then !inRun && isTitleFrom true cs
    else if isLower c then inRun && isTitleFrom true cs
    else isTitleFrom false cs

/-- Tabs replaced by blanks up to the next column that `size` divides. -/
def expandTabs (size column : Nat) : List Char → List Char
  | [] => []
  | c :: cs =>
    if c == '\t' then
      let n := if size == 0 then 0 else size - column % size
      List.replicate n ' ' ++ expandTabs size (column + n) cs
    else if c == '\n' || c == '\r' then c :: expandTabs size 0 cs
    else c :: expandTabs size (column + 1) cs

/-- Texts joined with a separator between them. -/
def joinTexts (sep : String) (v : Value) : Outcome Value := do
  match v.items? with
  | Option.none =>
    match v with
    | .undefined u => missing u
    | _ => badType "can only join an iterable"
  | some xs =>
    let parts ← (xs.zipIdx).mapM fun (x, i) => match x with
      | .text t => Except.ok t
      | .undefined u => missing u
      | x => badType s!"sequence item {i}: expected str instance, {x.typeName} found"
    return .text (Text.joinStrings sep parts)

/-- The methods of texts that take no argument and give a text. -/
def plainText? (name : String) : Option (String → String) :=
  match name with
  | "upper" => some Text.toUpper
  | "lower" => some Text.toLower
  | "casefold" => some Text.foldCase
  | "title" => some titleWords
  | "capitalize" => some Text.capitalize
  | "swapcase" => some swapCase
  | _ => Option.none

/-- The methods of texts that take no argument and give a truth value. -/
def textTest? (name : String) : Option (List Char → Bool) :=
  let all (p : Char → Bool) : Option (List Char → Bool) := some fun cs => !cs.isEmpty && cs.all p
  match name with
  | "isalpha" => all isLetter
  | "isdigit" => all Text.isDigit
  | "isdecimal" => all isDecimal
  | "isnumeric" => all isNumeral
  | "isalnum" => all isLetterOrNumeral
  | "isspace" => all isBlank
  | "isascii" => some fun cs => cs.all fun c => c.toNat < 128
  | "isprintable" => some fun cs => cs.all isPrintable
  | "isidentifier" => some isName
  | "islower" => some (allCased isLower)
  | "isupper" => some (allCased isUpper)
  | "istitle" => some fun cs => cs.any isCased && isTitleFrom false cs
  | _ => Option.none

/-- The result of a method of a text. -/
def callText (s : String) (name : String) (args : CallArgs) : Outcome Value := do
  let arg (i : Nat) : Value := (args.positional[i]?).getD .none
  match plainText? name with
  | some f =>
    checkNone "str" name args
    return .text (f s)
  | Option.none =>
  match textTest? name with
  | some p =>
    checkNone "str" name args
    return .bool (p s.toList)
  | Option.none =>
  match name with
  | "strip" => return .text (trim s (← trimSet name args))
  | "lstrip" => return .text (trimLeft s (← trimSet name args))
  | "rstrip" => return .text (trimRight s (← trimSet name args))
  | "split" => splitText name false s args
  | "rsplit" => splitText name true s args
  | "splitlines" =>
    let keep ← truth ((args.positional.head?).getD ((args.named.lookup "keepends").getD (.bool false)))
    return .list ((Text.lines s keep).map .text)
  | "join" =>
    if args.positional.length != 1 then
      badType s!"str.join() takes exactly one argument ({args.positional.length} given)"
    else joinTexts s (arg 0)
  | "replace" =>
    checkCount name 2 3 args
    let textOf (i : Nat) : Outcome String := match arg i with
      | .text t => .ok t
      | v => badType s!"replace() argument {i + 1} must be str, not {v.typeName}"
    let old ← textOf 0
    let new ← textOf 1
    let most ← match args.positional[2]? with
      | Option.none => pure (-1)
      | some v => wholeArg v
    let most := if most < 0 then s.length + 1 else most.toNat
    return .text (String.ofList (replaceText old.toList new.toList s.toList most))
  | "startswith" =>
    checkCount name 1 3 args
    let heads ← affixes name (arg 0)
    let (cs, _, inside) ← searched s args
    return .bool (inside && heads.any fun h => startsWith h.toList cs)
  | "endswith" =>
    checkCount name 1 3 args
    let tails ← affixes name (arg 0)
    let (cs, _, inside) ← searched s args
    return .bool (inside && tails.any fun t => endsWith t.toList cs)
  | "find" => return .int (((← findIn name false s args).map Int.ofNat).getD (-1))
  | "rfind" => return .int (((← findIn name true s args).map Int.ofNat).getD (-1))
  | "index" =>
    match ← findIn name false s args with
    | some i => return .int i
    | Option.none => badValue "substring not found"
  | "rindex" =>
    match ← findIn name true s args with
    | some i => return .int i
    | Option.none => badValue "substring not found"
  | "count" =>
    if args.positional.isEmpty then badType "count() takes at least 1 argument (0 given)"
    else
      let needle ← textArg (arg 0)
      let (cs, _, inside) ← searched s args
      return .int (if inside then occurrences needle.toList cs else 0)
  | "center" =>
    let (width, fill) ← padArgs name args
    return .text (centered width fill s)
  | "ljust" =>
    let (width, fill) ← padArgs name args
    return .text (padded 0 (width - s.length) fill s)
  | "rjust" =>
    let (width, fill) ← padArgs name args
    return .text (padded (width - s.length) 0 fill s)
  | "zfill" => return .text (zeroFilled (← wholeArg (arg 0)).toNat s)
  | "expandtabs" =>
    let size ← match args.positional.head? with
      | Option.none => pure 8
      | some v => wholeArg v
    return .text (String.ofList (expandTabs size.toNat 0 s.toList))
  | "partition" =>
    let sep ← textArg (arg 0)
    if sep.isEmpty then badValue "empty separator"
    else match splitOnText sep.toList s.toList 1 with
      | [a, b] => return .tuple [.text (String.ofList a), .text sep, .text (String.ofList b)]
      | _ => return .tuple [.text s, .text "", .text ""]
  | "rpartition" =>
    let sep ← textArg (arg 0)
    if sep.isEmpty then badValue "empty separator"
    else match splitOnTextRight sep.toList s.toList 1 with
      | [a, b] => return .tuple [.text (String.ofList a), .text sep, .text (String.ofList b)]
      | _ => return .tuple [.text "", .text "", .text s]
  | "removeprefix" =>
    let start ← textArg (arg 0)
    return .text (((dropPrefix? start.toList s.toList).map String.ofList).getD s)
  | "removesuffix" =>
    let stop ← textArg (arg 0)
    return .text (((dropPrefix? stop.toList.reverse s.toList.reverse).map fun cs =>
      String.ofList cs.reverse).getD s)
  | "encode" => return .bytes s.toUTF8.toList
  | _ => badType s!"str.{name}() is not available here"

/-- Where a value first stands among items. -/
def indexOf (v : Value) : List Value → Nat → Outcome (Option Nat)
  | [], _ => .ok Option.none
  | x :: xs, i => do
    if ← same x v then .ok (some i) else indexOf v xs (i + 1)

/-- How often a value stands among items. -/
def countOf (v : Value) : List Value → Outcome Nat
  | [] => .ok 0
  | x :: xs => do
    let n ← countOf v xs
    return if ← same x v then n + 1 else n

/-- The result of a method of a list, a tuple or a range. -/
def callSequence (v : Value) (xs : List Value) (name : String) (args : CallArgs) :
    Outcome Value := do
  let arg := args.positional.headD .none
  match name with
  | "index" =>
    match ← indexOf arg xs 0 with
    | some i => return .int i
    | Option.none =>
      match v with
      | .tuple _ => badValue "tuple.index(x): x not in tuple"
      | _ => badValue s!"{arg.literal kindOnly} is not in list"
  | "count" => return .int (← countOf arg xs)
  | "copy" =>
    checkNone "list" name args
    return v
  | _ => badType s!"{v.typeName}.{name}() is not available here"

/-- The result of a method of a map. -/
def callMap (es : List (Value × Value)) (name : String) (args : CallArgs) : Outcome Value := do
  match name with
  | "get" =>
    if !args.named.isEmpty then badType "dict.get() takes no keyword arguments"
    else
      match args.positional with
      | [key] =>
        checkKey key
        return (← find? es key).getD .none
      | [key, default] =>
        checkKey key
        return (← find? es key).getD default
      | [] => badType "get expected at least 1 argument, got 0"
      | more => badType s!"get expected at most 2 arguments, got {more.length}"
  | "items" =>
    checkNone "dict" name args
    return .view .items es
  | "keys" =>
    checkNone "dict" name args
    return .view .keys es
  | "values" =>
    checkNone "dict" name args
    return .view .values es
  | "copy" =>
    checkNone "dict" name args
    return .dict es
  | _ => badType s!"dict.{name}() is not available here"

/-- The number of binary digits of a whole number. -/
def bitLength (n : Int) : Nat :=
  if n == 0 then 0 else n.natAbs.log2 + 1

/-- The day of the week, Monday being zero. -/
def weekday (d : Day) : Nat :=
  (d.ordinal + 6) % 7

/-- The result of a method of a day or a moment. -/
def callDay (v : Value) (d : Day) (name : String) : Outcome Value :=
  match name, v with
  | "isoformat", .moment t => .ok (.text (t.text "T"))
  | "isoformat", _ => .ok (.text d.text)
  | "weekday", _ => .ok (.int (weekday d))
  | "isoweekday", _ => .ok (.int (weekday d + 1))
  | "toordinal", _ => .ok (.int d.ordinal)
  | "date", _ => .ok (.day d)
  | _, _ => badType s!"{v.typeName}.{name}() is not available here"

/-- The result of a method. -/
def callMethod (v : Value) (name : String) (args : CallArgs) : Outcome Value :=
  match v with
  | .text s => callText s name args
  | .list xs => callSequence v xs name args
  | .tuple xs => callSequence v xs name args
  | .range a b s => callSequence v (rangeItems a s (rangeLength a b s)) name args
  | .dict es => callMap es name args
  | .int n =>
    match name with
    | "bit_length" => .ok (.int (bitLength n))
    | "conjugate" => .ok v
    | _ => badType s!"int.{name}() is not available here"
  | .float x =>
    match name with
    | "is_integer" => .ok (.bool x.isWhole)
    | "conjugate" => .ok v
    | _ => badType s!"float.{name}() is not available here"
  | .day d => callDay v d name
  | .moment t => callDay v t.date name
  | _ => badType s!"{v.typeName}.{name}() is not available here"

end Value

end Template

end Stencil
