import Stencil.Config.Basic

/-!
# Kinds of Templates

How a file name says what part a template takes in a build.

The suffixes of macro modules are tried first, then those of partials, then
those of queries, each list in the order of the configuration, which puts
longer suffixes before shorter ones. A name that is nothing but the suffix is
no template, and falls through to the next candidate.

## Main definitions

* `Kind`: The part that a template takes.
* `classify`: The kind of a file name, and the suffix that says so.

## Theorems

* `classify_suffix`: The suffix ends the name and is shorter than it.
-/

namespace Stencil

/-- The part that a template takes in a build. -/
inductive Kind where
  /-- It is rendered to an output of its own. -/
  | query
  /-- It is a fragment for others. -/
  | fragment
  /-- It only holds macros for others. -/
  | macroModule
  deriving DecidableEq, Repr

/-- The name of a kind. -/
def Kind.text : Kind → String
  | .query => "query"
  | .fragment => "partial"
  | .macroModule => "macro_module"

/-- Other templates can refer to it. -/
def Kind.isImportable (k : Kind) : Bool :=
  k != .query

/-- The suffix ends the name, and the name is longer. -/
def hasSuffix (name suffix : String) : Bool :=
  Text.endsWith suffix.toList name.toList && suffix.length < name.length

/-- The kinds in the order in which they are tried, with their suffixes. -/
def candidates (c : Config) : List (Kind × List String) :=
  [(.macroModule, c.macroSuffixes), (.fragment, c.partialSuffixes), (.query, c.querySuffixes)]

/-- The kind of a file name and the suffix that says so. -/
def classify (name : String) (c : Config) : Option (Kind × String) :=
  (candidates c).findSome? fun k =>
    (k.2.find? (hasSuffix name)).map fun suffix => (k.1, suffix)

theorem classify_suffix {name : String} {c : Config} {k : Kind} {suffix : String}
    (h : classify name c = some (k, suffix)) : hasSuffix name suffix = true := by
  obtain ⟨_, _, _, _, hf, _⟩ := List.findSome?_eq_some_iff.1 h
  obtain ⟨s, hs, he⟩ := Option.map_eq_some_iff.1 hf
  obtain ⟨_, rfl⟩ := Prod.mk.inj he
  exact List.find?_some hs

end Stencil
