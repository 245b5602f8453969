import Stencil.Command.Switch
import Stencil.Number.Numeral
import Stencil.Text.Quoted
import Stencil.Text.Search

/-!
# Reading Arguments

From the words of a command line to what they ask for.

Every word is first taken for what it looks like: a switch, a plain word, or
the divider after which nothing is a switch. A long name may be cut short as
long as only one switch can be meant, and may carry its argument after an
equals sign. Short names may stand together, and the last of them may carry its
argument directly. A word with a blank in it and a negative number are plain
words, unless a switch has that name.

Then the words are gone through in order. Words that nothing takes are kept, so
that they can all be named at once.

## Main definitions

* `Look`: What a word looks like.
* `Misuse`: Why a command line is refused.
* `Given`: A switch with its argument.
* `look`: What a word looks like among some switches.
* `readSwitches`: The switches of a command.
* `readLine`: A command line.

## Theorems

* `readFrom_nil`: A command without words has no switches.
-/

namespace Stencil

namespace Command

/-- A switch that was found, by which name, and the argument that came with
it. -/
structure Hit where
  /-- The switch. -/
  switch : Switch
  /-- The name. -/
  name : String
  /-- What came with it. -/
  value : Option String
  deriving DecidableEq, Repr

/-- What a word looks like. -/
inductive Look where
  /-- A switch. -/
  | switch (hit : Hit)
  /-- A switch that there is not. -/
  | unknown
  /-- A plain word. -/
  | word
  /-- The divider. -/
  | divider
  deriving DecidableEq, Repr

/-- Why a command line is refused. -/
inductive Misuse where
  /-- Several switches can be meant. -/
  | ambiguous (word : String) (names : List String)
  /-- A switch that takes nothing comes with something. -/
  | extraArgument (switch : String) (value : String)
  /-- A switch comes without its argument. -/
  | noArgument (switch : String)
  /-- An argument is no whole number. -/
  | notWhole (switch value : String)
  /-- An argument is none of the words that it may be. -/
  | notOneOf (switch value : String) (words : List String)
  /-- Nothing takes these words. -/
  | unrecognized (words : List String)
  deriving DecidableEq, Repr

/-- A refused command line: the command that refuses it, if any, and why. -/
structure Refusal where
  /-- The command. -/
  verb : Option Verb
  /-- Why. -/
  why : Misuse
  deriving DecidableEq, Repr

/-- The key of a switch with its argument, if it takes one. -/
abbrev Given := String × String

/-- The switches of a list with all their names, in order. -/
def namesOf (switches : List Switch) : List (String × Switch) :=
  switches.flatMap fun s => s.names.map fun n => (n, s)

/-- A word cut at its first equals sign. -/
def cutValue (word : String) : String × Option String :=
  match Text.cutFirst '=' word with
  | some (name, value) => (name, some value)
  | none => (word, none)

/-- The switches that a word can mean if no switch has that name. -/
def guesses (switches : List Switch) (word : String) : List Hit :=
  match word.toList with
  | '-' :: '-' :: _ =>
    let (start, value) := cutValue word
    ((namesOf switches).filter fun n => Text.startsWith start.toList n.1.toList).map
      fun n => ⟨n.2, n.1, value⟩
  | '-' :: c :: rest =>
    let short := String.ofList ['-', c]
    ((namesOf switches).filter (·.1 == short)).map fun n => ⟨n.2, n.1, some (String.ofList rest)⟩
  | _ => []

/-- The word is a negative number. -/
def isNegative (word : String) : Bool :=
  -- One line feed at the end does not count.
  let cs := match word.toList.reverse with
    | '\n' :: cs => cs.reverse
    | cs => cs.reverse
  match cs with
  | '-' :: cs =>
    let before := cs.takeWhile fun c => (Text.decimalValue? c).isSome
    match cs.drop before.length with
    | [] => !before.isEmpty
    | '.' :: after => !after.isEmpty && after.all fun c => (Text.decimalValue? c).isSome
    | _ => false
  | _ => false

/-- What a word looks like. -/
def look (switches : List Switch) (word : String) : Except Misuse Look :=
  match word.toList with
  | '-' :: _ :: _ =>
    match (namesOf switches).lookup word with
    | some s => .ok (.switch ⟨s, word, none⟩)
    | none =>
      let (name, value) := cutValue word
      match value, (namesOf switches).lookup name with
      | some v, some s => .ok (.switch ⟨s, name, some v⟩)
      | _, _ =>
        match guesses switches word with
        | [] => .ok (if isNegative word || word.toList.contains ' ' then .word else .unknown)
        | [hit] => .ok (.switch hit)
        | hits => .error (.ambiguous word (hits.map (·.name)))
  | _ => .ok .word

/-- What the words of a line look like. Words after the divider are plain. -/
def lookAll (switches : List Switch) : List String → Except Misuse (List (String × Look))
  | [] => .ok []
  | w :: ws =>
    if w == "--" then .ok ((w, .divider) :: ws.map fun v => (v, .word))
    else
      match look switches w, lookAll switches ws with
      | .error why, _ => .error why
      | _, .error why => .error why
      | .ok l, .ok ls => .ok ((w, l) :: ls)

/-- A switch with an argument that it may have. -/
def accept (s : Switch) (value : String) : Except Misuse Given :=
  match s.takes with
  | .whole _ =>
    match Numeral.whole? 10 value with
    | some n => .ok (s.key, toString n)
    | none => .error (.notWhole s.label value)
  | .oneOf words =>
    if words.contains value then .ok (s.key, value)
    else .error (.notOneOf s.label value words)
  | _ => .ok (s.key, value)

/-- The switches behind a switch that takes nothing and comes with something:
short names stand together. The second part is the last of them, which still
has to find its argument. -/
def cluster (switches : List Switch) (s : Switch) : List Char → Except Misuse (List Switch × Hit)
  | [] => .error (.extraArgument s.label "")
  | c :: cs =>
    let name := String.ofList ['-', c]
    match (namesOf switches).lookup name with
    | none => .error (.extraArgument s.label (String.ofList (c :: cs)))
    | some t =>
      if cs.isEmpty then .ok ([s], ⟨t, name, none⟩)
      else if t.takes.isSome then .ok ([s], ⟨t, name, some (String.ofList cs)⟩)
      else (cluster switches t cs).map fun r => (s :: r.1, r.2)

/-- The switches that a word stands for, the last one by itself. -/
def expand (switches : List Switch) (hit : Hit) : Except Misuse (List Switch × Hit) :=
  match hit.value with
  | none => .ok ([], hit)
  | some value =>
    if hit.switch.takes.isSome then .ok ([], hit)
    else if Text.startsWith ['-', '-'] hit.name.toList then
      .error (.extraArgument hit.switch.label value)
    else cluster switches hit.switch value.toList

/-- What reading switches gives: the switches in order, and the words that
nothing takes. Help ends the reading. -/
structure Reading where
  /-- The switches. -/
  given : List Given := []
  /-- Words that nothing takes. -/
  left : List String := []
  /-- Help was asked for. -/
  help : Bool := false
  deriving DecidableEq, Repr

/-- The reading with a switch in front of it. -/
def Reading.push (r : Reading) (g : Given) : Reading :=
  { r with given := g :: r.given }

/-- The reading with a word in front of it that nothing takes. -/
def Reading.leave (r : Reading) (word : String) : Reading :=
  { r with left := word :: r.left }

/-- The reading with switches in front of it that take nothing. -/
def Reading.pushAll (r : Reading) (switches : List Switch) : Reading :=
  { r with given := switches.map (fun s => (s.key, "")) ++ r.given }

/-- Reads the switches of a command. `open_` is a switch that waits for its
argument. -/
def readFrom (switches : List Switch) (open_ : Option Switch) :
    List (String × Look) → Except Misuse Reading
  | [] =>
    match open_ with
    | none => .ok {}
    | some s => .error (.noArgument s.label)
  | (w, l) :: rest =>
    match open_, l with
    | some s, .word =>
      match accept s w with
      | .error why => .error why
      | .ok g => (readFrom switches none rest).map (·.push g)
    | some s, _ => .error (.noArgument s.label)
    | none, .switch hit =>
      match expand switches hit with
      | .error why => .error why
      | .ok (others, last) =>
        -- Help ends the reading, also from inside a cluster of letters.
        if (others ++ [last.switch]).contains helpSwitch then .ok { help := true }
        else if !last.switch.takes.isSome then
          (readFrom switches none rest).map (·.pushAll (others ++ [last.switch]))
        else
          match last.value with
          | none => (readFrom switches (some last.switch) rest).map (·.pushAll others)
          | some value =>
            match accept last.switch value with
            | .error why => .error why
            | .ok g => (readFrom switches none rest).map fun r => (r.push g).pushAll others
    | none, _ => (readFrom switches none rest).map (·.leave w)

theorem readFrom_nil (switches : List Switch) : readFrom switches none [] = .ok {} := rfl

/-- Reads the switches of a command from its words. -/
def readSwitches (switches : List Switch) (words : List String) : Except Misuse Reading := do
  readFrom switches none (← lookAll switches words)

/-- What a command line asks for. -/
inductive Asked where
  /-- The help of the program. -/
  | help
  /-- The version of the program. -/
  | version
  /-- The help of a command. -/
  | verbHelp (verb : Verb)
  /-- A command with its switches. -/
  | verb (verb : Verb) (given : List Given)
  deriving DecidableEq, Repr

/-- Refuses a line because of words that nothing takes. -/
def refuseLeft (asked : Asked) : List String → Except Refusal Asked
  | [] => .ok asked
  | left => .error ⟨none, .unrecognized left⟩

/-- Reads a command and its switches. -/
def readVerb (left : List String) (name : String) (words : List String) : Except Refusal Asked :=
  match verbs.find? (·.name == name) with
  | none => .error ⟨none, .notOneOf "command" name (verbs.map (·.name))⟩
  | some verb =>
    match readSwitches verb.switches words with
    | .error why => .error ⟨some verb, why⟩
    | .ok r =>
      if r.help then .ok (.verbHelp verb)
      else refuseLeft (.verb verb r.given) (left ++ r.left)

/-- Reads a line up to its command. `left` lists words that nothing takes. -/
def readTop (left : List String) : List (String × Look) → Except Refusal Asked
  | [] => refuseLeft .help left
  | (w, l) :: rest =>
    match l with
    | .switch hit =>
      match expand topSwitches hit with
      | .error why => .error ⟨none, why⟩
      | .ok (others, last) =>
        .ok (if (others ++ [last.switch]).head? == some helpSwitch then .help else .version)
    | .unknown => readTop (left ++ [w]) rest
    | .word => readVerb left w (rest.map Prod.fst)
    | .divider =>
      -- A divider with nothing behind it is a word that nothing takes.
      if rest.isEmpty then readTop (left ++ [w]) rest else readVerb left w (rest.map Prod.fst)

/-- Reads a command line. -/
def readLine (words : List String) : Except Refusal Asked :=
  match lookAll topSwitches words with
  | .error why => .error ⟨none, why⟩
  | .ok looks => readTop [] looks

end Command

end Stencil
