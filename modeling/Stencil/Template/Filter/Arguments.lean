import Stencil.Template.Store

/-!
# The Arguments of Filters and Tests

Which parameter each argument belongs to.

Positional arguments fill the parameters in order and named ones fill them by
name; what is left takes its default. The counts in reports include the value
that a filter is applied to, and whatever else comes before its parameters.

## Main definitions

* `Formal`: A parameter with its default.
* `Signature.bind`: The values of all parameters.

## Theorems

* `Signature.length_bind`: Every parameter gets one value.
-/

namespace Stencil

namespace Template

/-- A parameter with its default, if it has one. -/
abbrev Formal := String × Option Value

/-- What a filter or a test can be called with. -/
structure Signature where
  /-- Its name in reports. -/
  name : String
  /-- How many values come before the parameters. -/
  lead : Nat
  /-- The parameters. -/
  formals : List Formal

/-- Names with commas between them, and a word before the last one. -/
def listNames : List String → String
  | [] => ""
  | [a] => a
  | [a, b] => a ++ " and " ++ b
  | names =>
    Text.joinStrings ", " names.dropLast ++ ", and " ++ names.getLastD ""

namespace Signature

/-- The names of the parameters that positional arguments fill. -/
def filled (s : Signature) (args : CallArgs) : List String :=
  (s.formals.take args.positional.length).map Prod.fst

/-- Refuses a named argument that has no parameter, or one that is filled. -/
def checkNamed (s : Signature) (args : CallArgs) : List (String × Value) → Outcome Unit
  | [] => .ok ()
  | (name, _) :: rest =>
    if !(s.formals.map Prod.fst).contains name then
      badType s!"{s.name}() got an unexpected keyword argument '{name}'"
    else if (s.filled args).contains name then
      badType s!"{s.name}() got multiple values for argument '{name}'"
    else s.checkNamed args rest

/-- Refuses too many positional arguments. -/
def checkMany (s : Signature) (args : CallArgs) : Outcome Unit :=
  let most := s.lead + s.formals.length
  let least := s.lead + (s.formals.filter fun f => f.2.isNone).length
  let given := s.lead + args.positional.length
  if given ≤ most then .ok ()
  else
    let noun := Value.plural most "argument"
    let counts := if least == most then s!"{most} positional {noun}"
      else s!"from {least} to {most} positional arguments"
    let verb := if given == 1 then "was" else "were"
    badType s!"{s.name}() takes {counts} but {given} {verb} given"

/-- The value of a parameter at a position. -/
def valueAt (args : CallArgs) (i : Nat) (f : Formal) : Option Value :=
  match args.positional[i]? with
  | some v => some v
  | none =>
    match args.named.lookup f.1 with
    | some v => some v
    | none => f.2

/-- The values of parameters from a position on, and the names of those that
have none. -/
def valuesFrom (args : CallArgs) : Nat → List Formal → List Value × List String
  | _, [] => ([], [])
  | i, f :: fs =>
    let rest := valuesFrom args (i + 1) fs
    match valueAt args i f with
    | some v => (v :: rest.1, rest.2)
    | none => (.none :: rest.1, Text.quoted f.1 :: rest.2)

theorem length_valuesFrom (args : CallArgs) (i : Nat) (fs : List Formal) :
    (valuesFrom args i fs).1.length = fs.length := by
  induction fs generalizing i with
  | nil => rfl
  | cons f fs ih =>
    unfold valuesFrom
    cases valueAt args i f <;> simp [ih (i + 1)]

/-- The values of all parameters. -/
def bind (s : Signature) (args : CallArgs) : Outcome (List Value) := do
  s.checkNamed args args.named
  s.checkMany args
  match valuesFrom args 0 s.formals with
  | (vs, []) => return vs
  | (_, missing) =>
    let noun := Value.plural missing.length "argument"
    badType (s!"{s.name}() missing {missing.length} required positional {noun}: " ++
      listNames missing)

theorem length_bind (s : Signature) (args : CallArgs) (vs : List Value)
    (h : s.bind args = .ok vs) : vs.length = s.formals.length := by
  unfold bind at h
  cases h₁ : s.checkNamed args args.named with
  | error e => simp [h₁, Except.bind, Bind.bind] at h
  | ok _ =>
    cases h₂ : s.checkMany args with
    | error e => simp [h₁, h₂, Except.bind, Bind.bind] at h
    | ok _ =>
      have hl := length_valuesFrom args 0 s.formals
      rcases hv : valuesFrom args 0 s.formals with ⟨ws, ms⟩
      rw [hv] at hl
      cases ms with
      | nil =>
        simp [h₁, h₂, hv, Except.bind, Bind.bind, pure, Except.pure] at h
        rw [← h]
        exact hl
      | cons m ms => simp [h₁, h₂, hv, Except.bind, Bind.bind, badType] at h

end Signature

end Template

end Stencil
