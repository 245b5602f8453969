import Mathlib.Data.List.Forall2
import Mathlib.Data.List.Induction
import Stencil.Ignore.Rules
import Stencil.Proofs.Text.Split
import Stencil.Proofs.Text.Trim
import Stencil.Proofs.Traverse

/-!
# Verdicts of a Stack

The last pattern that matches decides, whichever ignore file it stands in.

Rules are asked from the deepest directory up, and the first that have a
verdict give it. Inside one directory the patterns are gone through from first
to last, and each that matches replaces the verdict. The two loops run against
each other, and yet they find the last match in one list, which holds the
patterns of all rules with the outermost directory first. `Placed` is what this
list is made of: a pattern together with its directory, because it is the
directory that says which part of a path the pattern sees.

`IsLast` says that a verdict is the one of the last match, of any list and for
any way of matching. It is kept by putting two lists one after the other if the
later verdict goes first, and both loops are that.

## Main definitions

* `Placed`, `placed`: A pattern with its directory, and those of some rules.
* `Placed.Hits`: The pattern matches what it sees of a path.
* `IsLast`: The verdict is that of the last match.
* `isIgnoredBy`: The verdict of a stack, for a way of matching.
* `linePattern?`: The pattern in a line.

## Theorems

* `IsLast.append`: The later of two lists decides if it has a verdict.
* `IsLast.unique`: There is one last match.
* `view?_eq_some_iff`: What patterns see of a path.
* `isLast_decideBy`: One directory gives the verdict of its last match.
* `patterns_ofLines`: The patterns of a directory are those in lines.
* `isIgnored_last`: A stack gives the verdict of its last match.
-/

namespace Stencil

namespace Ignore

/-- A pattern and the directory that its ignore file stands in. -/
structure Placed where
  base : String
  pattern : Pattern

/-- The patterns of some rules in one list. -/
def placed (rules : List Rules) : List Placed :=
  rules.flatMap fun r => r.patterns.map (Placed.mk r.base)

/-- What follows a directory on a path; the root is the empty text. -/
def IsBelow (base path rest : String) : Prop :=
  if base = "" then path = rest else path = base ++ "/" ++ rest

/-- A path as it is shown to patterns: that of a directory ends in a slash. -/
def shown (rest : String) (isDir : Bool) : List Char :=
  (if isDir then rest ++ "/" else rest).toList

/-- The pattern matches what follows its directory on a path. -/
def Placed.Hits (hit : Pattern → List Char → Bool) (path : String) (isDir : Bool)
    (p : Placed) : Prop :=
  ∃ rest, IsBelow p.base path rest ∧ hit p.pattern (shown rest isDir) = true

/-- The verdict is that of the last match in a list. -/
inductive IsLast (hits : Placed → Prop) : List Placed → Option Bool → Prop where
  /-- There is one, and nothing after it matches. -/
  | hit {before after : List Placed} {p : Placed} (h : hits p) (hafter : ∀ q ∈ after, ¬ hits q) :
      IsLast hits (before ++ p :: after) (some p.pattern.ignores)
  /-- Nothing matches. -/
  | none {ps : List Placed} (h : ∀ q ∈ ps, ¬ hits q) : IsLast hits ps none

/-- The verdict about a path, for a way of matching. -/
def Rules.decideBy (hit : Pattern → List Char → Bool) (r : Rules) (path : String)
    (isDir : Bool) : Option Bool :=
  match r.view? path isDir with
  | none => none
  | some cs => lastVerdict (hit · cs) r.patterns

/-- The verdict of a stack of rules, for a way of matching. -/
def isIgnoredBy (hit : Pattern → List Char → Bool) (rules : List Rules) (path : String)
    (isDir : Bool) : Bool :=
  (rules.reverse.findSome? fun r => r.decideBy hit path isDir).getD false

/-- The pattern in a line, if it holds one. -/
def linePattern? (line : String) : Option Pattern :=
  match Pattern.compile line with
  | .ok p => p
  | .error _ => none

section Last

variable {hits : Placed → Prop} {ps qs : List Placed} {v w : Option Bool}

/-- The later of two lists decides if it has a verdict. -/
theorem IsLast.append (hps : IsLast hits ps v) (hqs : IsLast hits qs w) :
    IsLast hits (ps ++ qs) (w.or v) := by
  cases hqs with
  | hit h hafter =>
      rw [← List.append_assoc, Option.some_or]
      exact .hit h hafter
  | none hnone =>
      rw [Option.none_or]
      cases hps with
      | hit h hafter =>
          rw [List.append_assoc, List.cons_append]
          refine .hit h (fun q hq => ?_)
          exact (List.mem_append.mp hq).elim (hafter q) (hnone q)
      | none hnone' =>
          exact .none (fun q hq => (List.mem_append.mp hq).elim (hnone' q) (hnone q))

theorem isLast_nil : IsLast hits [] none :=
  .none (fun _ hq => absurd hq List.not_mem_nil)

/-- There is one last match. -/
theorem IsLast.unique (h : IsLast hits ps v) (h' : IsLast hits ps w) : v = w := by
  -- If both verdicts have a match, the list is taken apart in two ways, and the
  -- match that stands further back is not followed by the other one.
  generalize hsame : ps = ps' at h'
  cases h with
  | @hit before after p hp hafter =>
      cases h' with
      | @hit before' after' p' hp' hafter' =>
          rcases List.append_eq_append_iff.mp hsame with ⟨between, _, heq⟩ | ⟨between, _, heq⟩
          · cases between with
            | nil =>
                rw [List.nil_append, List.cons.injEq] at heq
                rw [heq.1]
            | cons q between =>
                rw [List.cons_append, List.cons.injEq] at heq
                refine absurd hp' (hafter p' ?_)
                rw [heq.2]
                exact List.mem_append_right _ List.mem_cons_self
          · cases between with
            | nil =>
                rw [List.nil_append, List.cons.injEq] at heq
                rw [heq.1]
            | cons q between =>
                rw [List.cons_append, List.cons.injEq] at heq
                refine absurd hp (hafter' p ?_)
                rw [heq.2]
                exact List.mem_append_right _ List.mem_cons_self
      | none hnone =>
          rw [← hsame] at hnone
          exact absurd hp (hnone p (List.mem_append_right _ List.mem_cons_self))
  | none hnone =>
      cases h' with
      | hit hp' _ =>
          rw [hsame] at hnone
          exact absurd hp' (hnone _ (List.mem_append_right _ List.mem_cons_self))
      | none _ => rfl

end Last

section Verdict

variable {hit : Pattern → List Char → Bool} {path : String} {isDir : Bool}

/-- What patterns see of a path is what follows their directory on it. -/
theorem view?_eq_some_iff {r : Rules} {cs : List Char} :
    r.view? path isDir = some cs ↔ ∃ rest, IsBelow r.base path rest ∧ cs = shown rest isDir := by
  have hshown : ∀ rest : String, rest.toList ++ (if isDir then ['/'] else []) =
      shown rest isDir := by
    intro rest
    cases isDir with
    | true => exact (String.toList_append (s := rest) (t := "/")).symm
    | false => exact List.append_nil _
  by_cases hroot : r.base = ""
  · have hempty : r.base.isEmpty = true := String.isEmpty_iff.mpr hroot
    simp only [Rules.view?, IsBelow, if_pos hempty, if_pos hroot, hshown, exists_eq_left',
      Option.some.injEq]
    exact eq_comm
  · have hempty : ¬ r.base.isEmpty = true := fun h => hroot (String.isEmpty_iff.mp h)
    simp only [Rules.view?, IsBelow, if_neg hempty, if_neg hroot, Option.map_eq_some_iff]
    constructor
    · rintro ⟨rest, hrest, rfl⟩
      refine ⟨String.ofList rest, String.toList_inj.mp ?_, ?_⟩
      · simp only [String.toList_append, String.toList_ofList]
        exact Text.eq_append_of_dropPrefix? hrest
      · rw [← hshown, String.toList_ofList]
    · rintro ⟨rest, rfl, rfl⟩
      refine ⟨rest.toList, ?_, hshown rest⟩
      rw [String.toList_append, String.toList_append]
      exact Text.dropPrefix?_append _ _

/-- Two parts of a path that follow one directory are the same. -/
theorem IsBelow.unique {base rest rest' : String} (h : IsBelow base path rest)
    (h' : IsBelow base path rest') : rest = rest' := by
  unfold IsBelow at h h'
  by_cases hroot : base = ""
  · rw [if_pos hroot] at h h'
    exact h.symm.trans h'
  · rw [if_neg hroot] at h h'
    rw [h] at h'
    exact String.append_right_inj _ |>.mp h'

/-- A single pattern decides if it matches. -/
theorem isLast_singleton {base rest : String} (hbelow : IsBelow base path rest) (p : Pattern) :
    IsLast (Placed.Hits hit path isDir) [⟨base, p⟩]
      (lastVerdict (hit · (shown rest isDir)) [p]) := by
  by_cases hp : hit p (shown rest isDir) = true
  · have hverdict : lastVerdict (hit · (shown rest isDir)) [p] = some p.ignores := by
      simp only [lastVerdict, List.foldl_cons, List.foldl_nil, if_pos hp]
    rw [hverdict]
    exact @IsLast.hit _ [] [] ⟨base, p⟩ ⟨rest, hbelow, hp⟩
      (fun q hq => absurd hq List.not_mem_nil)
  · have hverdict : lastVerdict (hit · (shown rest isDir)) [p] = none := by
      simp only [lastVerdict, List.foldl_cons, List.foldl_nil, if_neg hp]
    rw [hverdict]
    refine IsLast.none (fun q hq => ?_)
    rw [List.mem_singleton.mp hq]
    rintro ⟨rest', hbelow', hmatch⟩
    rw [hbelow'.unique hbelow] at hmatch
    exact hp hmatch

/-- One directory gives the verdict of its last match. -/
theorem isLast_decideBy (r : Rules) :
    IsLast (Placed.Hits hit path isDir) (r.patterns.map (Placed.mk r.base))
      (r.decideBy hit path isDir) := by
  rw [Rules.decideBy]
  rcases hview : r.view? path isDir with _ | cs
  · -- The directory does not contain the path, so none of its patterns sees it.
    refine .none (fun q hq => ?_)
    rcases List.mem_map.mp hq with ⟨p, _, rfl⟩
    rintro ⟨rest, hbelow, _⟩
    have hsome : r.view? path isDir = some (shown rest isDir) :=
      view?_eq_some_iff.mpr ⟨rest, hbelow, rfl⟩
    rw [hview] at hsome
    exact absurd hsome (Option.some_ne_none _).symm
  · rcases view?_eq_some_iff.mp hview with ⟨rest, hbelow, rfl⟩
    simp only []
    -- The loop goes on with one more pattern at the end.
    induction r.patterns using List.reverseRecOn with
    | nil => exact isLast_nil
    | append_singleton ps p ih =>
        rw [List.map_append, List.map_singleton, lastVerdict_append]
        exact ih.append (isLast_singleton hbelow p)

/-- A stack gives the verdict of its last match. -/
theorem isLast_findSome? (rules : List Rules) :
    IsLast (Placed.Hits hit path isDir) (placed rules)
      (rules.reverse.findSome? fun r => r.decideBy hit path isDir) := by
  induction rules with
  | nil => exact isLast_nil
  | cons r rules ih =>
      -- The outermost directory is asked when all others have no verdict.
      rw [placed, List.flatMap_cons, List.reverse_cons, List.findSome?_append]
      have hfirst : List.findSome? (fun r => r.decideBy hit path isDir) [r] =
          r.decideBy hit path isDir := by
        rw [List.findSome?_singleton]
      rw [hfirst]
      exact (isLast_decideBy r).append ih

end Verdict

section Lines

/-- A line that is blank or starts with a hash holds no pattern. -/
theorem linePattern?_of_skipped {line : String}
    (h : Text.isAllBlank line = true ∨ Text.startsWith ['#'] line.toList = true) :
    linePattern? line = none := by
  have hcompile : Pattern.compile line = .ok none := by
    rcases h with hblank | hhash
    · -- The blank after a backslash is kept, but a backslash is no blank.
      have hblanks : ∀ c ∈ line.toList, Text.isBlank c = true := List.all_eq_true.mp hblank
      have hescape : ¬ Text.endsWith ['\\', ' '] line.toList = true := by
        intro hends
        rcases Text.exists_eq_append_of_endsWith hends with ⟨stem, hstem⟩
        have hslash := hblanks '\\'
          (hstem ▸ List.mem_append_right stem (List.mem_cons_self))
        exact absurd hslash (by decide)
      have hnil : trimLine line = [] := by
        rw [trimLine, if_neg hescape, Text.dropRightWhile, List.reverse_eq_nil_iff,
          List.dropWhile_eq_nil_iff]
        exact fun c hc => hblanks c (List.mem_reverse.mp hc)
      rw [Pattern.compile, hnil]
    · rcases Text.startsWith_iff.mp hhash with ⟨rest, hrest⟩
      rw [List.singleton_append] at hrest
      have hstart : ∃ cs, trimLine line = '#' :: cs := by
        rw [trimLine]
        split
        · exact ⟨rest, hrest.symm⟩
        · -- Trimming leaves a beginning, and keeps what is no blank.
          rcases Text.dropRightWhile_starts Text.isBlank line.toList with ⟨blanks, hblanks⟩
          cases hleft : Text.dropRightWhile Text.isBlank line.toList with
          | nil =>
              rw [Text.dropRightWhile, List.reverse_eq_nil_iff, List.dropWhile_eq_nil_iff] at hleft
              have hmem : '#' ∈ line.toList.reverse := by
                rw [← hrest]
                exact List.mem_reverse.mpr List.mem_cons_self
              exact absurd (hleft '#' hmem) (by decide)
          | cons c cs =>
              rw [hleft, ← hrest, List.cons_append] at hblanks
              exact ⟨cs, by rw [(List.cons.inj hblanks).1]⟩
      rcases hstart with ⟨cs, hcs⟩
      exact compile_comment hcs
  rw [linePattern?, hcompile]

/-- The patterns of a directory are those in the lines of its ignore files. -/
theorem patterns_ofLines {base : String} {lines : List String} {r : Rules}
    (h : Rules.ofLines base lines = .ok r) :
    r.base = base ∧ r.patterns = lines.filterMap linePattern? := by
  rw [Rules.ofLines] at h
  rcases hfound : (lines.filter (· != "")).mapM Pattern.compile with why | found
  · rw [hfound] at h
    cases h
  · rw [hfound] at h
    cases h
    refine ⟨rfl, ?_⟩
    have hread : (lines.filter (· != "")).map linePattern? = found := by
      rw [← List.forall₂_eq_eq_eq, List.forall₂_map_left_iff]
      refine (forall₂_of_mapM hfound).imp (fun line p hp => ?_)
      rw [linePattern?, hp]
    have hempty : linePattern? "" = none := linePattern?_of_skipped (.inl rfl)
    rw [← hread, List.filterMap_map, Function.id_comp, List.filterMap_filter]
    refine List.filterMap_congr (fun line _ => ?_)
    by_cases hline : line = ""
    · rw [hline, hempty]
      rfl
    · rw [if_pos (bne_iff_ne.mpr hline)]

/-- The patterns of a stack are those in the lines of all its ignore files. -/
theorem placed_of_lines {stack : List (String × List String)} {rules : List Rules}
    (h : List.Forall₂ (fun s r => Rules.ofLines s.1 s.2 = .ok r) stack rules) :
    placed rules = stack.flatMap fun s => (s.2.filterMap linePattern?).map (Placed.mk s.1) := by
  induction h with
  | nil => rfl
  | cons hr _ ih =>
      rcases patterns_ofLines hr with ⟨hbase, hpatterns⟩
      rw [placed] at ih ⊢
      rw [List.flatMap_cons, List.flatMap_cons, ih, hbase, hpatterns]

end Lines

/-- The verdict of a stack is that of the last match in the list of all its
    patterns, whatever a match is, and a path is not ignored if there is none. The
    list is that of the lines of all ignore files, without those that are blank or
    comments. -/
theorem isIgnored_last (hit : Pattern → List Char → Bool) (rules : List Rules) (path : String)
    (isDir : Bool) :
    (∃ verdict, (∀ v, IsLast (Placed.Hits hit path isDir) (placed rules) v ↔ v = verdict) ∧
      isIgnoredBy hit rules path isDir = verdict.getD false) ∧
    isIgnored rules path isDir = isIgnoredBy Pattern.matches rules path isDir ∧
    (∀ stack : List (String × List String),
      List.Forall₂ (fun s r => Rules.ofLines s.1 s.2 = .ok r) stack rules →
      placed rules = stack.flatMap fun s => (s.2.filterMap linePattern?).map (Placed.mk s.1)) ∧
    ∀ line : String, (Text.isAllBlank line = true ∨ Text.startsWith ['#'] line.toList = true) →
      linePattern? line = none := by
  refine ⟨⟨_, fun v => ⟨fun h => h.unique (isLast_findSome? rules), ?_⟩, rfl⟩, rfl,
    fun stack h => placed_of_lines h, fun line h => linePattern?_of_skipped h⟩
  rintro rfl
  exact isLast_findSome? rules

/-- A directory has no verdict about another one whose name starts like its own. -/
example :
    let rules : List Rules := [⟨"", [⟨true, []⟩]⟩, ⟨"sub", [⟨false, []⟩]⟩]
    isIgnoredBy (fun _ _ => true) rules "sub/a" false = false ∧
      isIgnoredBy (fun _ _ => true) rules "subway/a" false = true := by
  decide

end Ignore

end Stencil
