import Stencil.Ignore.Pattern

/-!
# Ignore Rules

The patterns of one directory's ignore files, and a stack of them.

Rules belong to the directory that holds their files, and decide only about
what is below it. Within one directory the last pattern that matches decides;
of several directories the deepest one that has a verdict does. `lastVerdict`
says the same in one pass, for any way of matching.

## Main definitions

* `Rules`: A directory and its patterns.
* `Rules.decide`: The verdict about a path, if there is one.
* `isIgnored`: The verdict of a stack of rules.
* `lastVerdict`: The verdict of the last match in a list of patterns.

## Theorems

* `lastVerdict_append`: The later patterns decide if they have a verdict.
-/

namespace Stencil

namespace Ignore

/-- The patterns of the ignore files of one directory. -/
structure Rules where
  /-- The directory, relative to the root, which is the empty text. -/
  base : String
  /-- The patterns, in order. -/
  patterns : List Pattern
  deriving DecidableEq, Repr

/-- The verdict of the last pattern that matches. -/
def lastVerdict (hit : Pattern → Bool) (ps : List Pattern) : Option Bool :=
  ps.foldl (fun verdict p => if hit p then some p.ignores else verdict) none

theorem lastVerdict_append (hit : Pattern → Bool) (ps qs : List Pattern) :
    lastVerdict hit (ps ++ qs) = (lastVerdict hit qs).or (lastVerdict hit ps) := by
  unfold lastVerdict
  rw [List.foldl_append]
  generalize ps.foldl (fun verdict p => if hit p then some p.ignores else verdict) none = v
  suffices h : ∀ w : Option Bool,
      qs.foldl (fun verdict p => if hit p then some p.ignores else verdict) (w.or v) =
        (qs.foldl (fun verdict p => if hit p then some p.ignores else verdict) w).or v by
    simpa using h none
  induction qs with
  | nil => intro w; rfl
  | cons q qs ih =>
    intro w
    by_cases hq : hit q
    · simpa [List.foldl_cons, hq] using ih (some q.ignores)
    · simpa [List.foldl_cons, hq] using ih w

/-- The path as the patterns of a directory see it: relative to the directory,
and with a slash at its end for a directory. Nothing if it is not below. -/
def Rules.view? (r : Rules) (path : String) (isDir : Bool) : Option (List Char) :=
  let tail := if isDir then ['/'] else []
  if r.base.isEmpty then some (path.toList ++ tail)
  else (Text.dropPrefix? (r.base.toList ++ ['/']) path.toList).map (· ++ tail)

/-- The verdict about a path: ignored, included again, or none. -/
def Rules.decide (r : Rules) (path : String) (isDir : Bool) : Option Bool :=
  match r.view? path isDir with
  | none => none
  | some cs => lastVerdict (·.matches cs) r.patterns

/-- The verdict of a stack of rules, the outermost directory first. -/
def isIgnored (rules : List Rules) (path : String) (isDir : Bool) : Bool :=
  (rules.reverse.findSome? fun r => r.decide path isDir).getD false

/-- The rules of a directory from the lines of its ignore files. Empty lines
are passed over before they are read. -/
def Rules.ofLines (base : String) (lines : List String) : Except Invalid Rules := do
  let found ← (lines.filter (· != "")).mapM Pattern.compile
  return ⟨base, found.filterMap id⟩

end Ignore

end Stencil
