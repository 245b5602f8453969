import Stencil.Template.Token.Basic
import Stencil.Text.Quoted

/-!
# Failures

Why a render fails.

A failure has a kind and a report. The kinds are those that a reader of the
report is told; the reports that several places give are built here.

## Main definitions

* `Failure`: A kind and a report.
* `Failure.describe`: The kind's name and the report.
* `Mistake.failure`: The failure of a template that cannot be read.
-/

namespace Stencil

namespace Template

/-- The kinds of failures. -/
inductive FailureKind where
  /-- A template cannot be read. -/
  | badSyntax
  /-- A template cannot be made sense of. -/
  | badAssertion
  /-- A value does not exist. -/
  | undefined
  /-- A rule of templates is broken while one runs. -/
  | runtime
  /-- A template does not exist. -/
  | notFound
  /-- None of several templates exists. -/
  | noneFound
  /-- A filter cannot take an argument. -/
  | badArgument
  /-- A value has the wrong type. -/
  | badType
  /-- A value has the right type but does not do. -/
  | badValue
  /-- A key is missing. -/
  | badKey
  /-- A position is out of range. -/
  | badIndex
  /-- Division by zero. -/
  | zeroDivision
  /-- A number is too large. -/
  | overflow
  /-- An attribute cannot be set. -/
  | badAttribute
  /-- A call is nested too deeply. -/
  | tooDeep
  /-- A variable has no scope. -/
  | unbound
  /-- Something else is wrong with a call. -/
  | general
  deriving DecidableEq, Repr

/-- The name of a kind. -/
def FailureKind.name : FailureKind → String
  | .badSyntax => "TemplateSyntaxError"
  | .badAssertion => "TemplateAssertionError"
  | .undefined => "UndefinedError"
  | .runtime => "TemplateRuntimeError"
  | .notFound => "TemplateNotFound"
  | .noneFound => "TemplatesNotFound"
  | .badArgument => "FilterArgumentError"
  | .badType => "TypeError"
  | .badValue => "ValueError"
  | .badKey => "KeyError"
  | .badIndex => "IndexError"
  | .zeroDivision => "ZeroDivisionError"
  | .overflow => "OverflowError"
  | .badAttribute => "AttributeError"
  | .tooDeep => "RecursionError"
  | .unbound => "AssertionError"
  | .general => "RuntimeError"

/-- A failure. -/
structure Failure where
  /-- Its kind. -/
  kind : FailureKind
  /-- The report. -/
  message : String
  deriving DecidableEq, Repr

/-- The kind's name and the report. -/
def Failure.describe (f : Failure) : String :=
  f.kind.name ++ ": " ++ f.message

/-- A value or a failure. -/
abbrev Outcome (α : Type) := Except Failure α

/-- The failure of a template that cannot be read, with the place. -/
def Mistake.failure (m : Mistake) (template : String) : Failure :=
  let place := if m.isAnonymous then s!"line {m.line}" else s!"{template}:{m.line}"
  ⟨if m.isAssertion then .badAssertion else .badSyntax, s!"{m.message} ({place})"⟩

/-- A value of the wrong type was met. -/
def badType {α : Type} (message : String) : Outcome α :=
  .error ⟨.badType, message⟩

/-- A value of the right type does not do. -/
def badValue {α : Type} (message : String) : Outcome α :=
  .error ⟨.badValue, message⟩

end Template

end Stencil
