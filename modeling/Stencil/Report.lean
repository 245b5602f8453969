/-!
# Reports

What a user is told about a failure.

A report says in one line what failed. Where the cause lies outside what was
asked for, in a file or in a value, an account of the cause follows.

## Main definitions

* `Report`: What is told.
* `Report.text`: The report as one text.

## Theorems

* `Report.text_of_account_eq_none`: Without an account the headline is all.
-/

namespace Stencil

/-- What a user is told about a failure. -/
structure Report where
  /-- What failed. -/
  headline : String
  /-- An account of the cause. -/
  account : Option String := none
  deriving DecidableEq, Repr

/-- The report as one text. -/
def Report.text (r : Report) : String :=
  match r.account with
  | none => r.headline
  | some why => r.headline ++ ": " ++ why

theorem Report.text_of_account_eq_none {r : Report} (h : r.account = none) :
    r.text = r.headline := by
  simp [text, h]

end Stencil
