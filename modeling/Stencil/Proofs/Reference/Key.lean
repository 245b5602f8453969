import Mathlib.Data.List.Infix
import Stencil.Proofs.Catalog.Visible
import Stencil.Proofs.Output.Apart
import Stencil.Proofs.Reference.Collect

/-!
# Where References Lead

Names that are looked up at a location, read as steps through directories.

A reference is joined to a location as text, and the text is normalised as
text. What that means is said here without texts: the pieces of the location
and of the reference are steps, taken one after the other from the root. A
name leads down, a double dot leads up, and what says nothing leads nowhere.
`climb` takes the steps and fails as soon as one of them leads out of the root,
however the way would go on.

Normalising does not fail there. It keeps the double dot in front, and every
step after it leaves it there, so that a look at the first piece of the result
tells whether the root was ever left. `resolveDots_climb` is that argument.

## Main definitions

* `Reference.climb`: Steps taken from a directory, as long as none leaves the
  root.
* `Reference.wayAt?`: Where a reference leads from a location.
* `Reference.LeavesRoot`: One of the steps leads out of the root.
* `Reference.placesAbove`: The directories above a template, the nearest first.

## Theorems

* `Reference.climb_eq_none_iff`: Steps lead nowhere if one leads out.
* `Reference.resolveDots_climb`: Resolving double dots takes the same steps.
* `Reference.normalize_joinName`: A key is the text of a way.
* `Reference.keyAt?_eq_some_iff`: Which references have keys.
* `Reference.keyAt?_stays_below`: Keys are ways that stay below the root.
* `Reference.keyAt?_root`: At the root a path is its own key.
* `Reference.ancestors_directoryOf`: Going up lists the directories above.
-/

namespace Stencil

namespace Reference

/-- Steps taken from a directory, given by the names on the way to it, as long
    as none leaves the root. -/
def climb : List String → List String → Option (List String)
  | way, [] => some way
  | way, step :: steps =>
    if step = "" ∨ step = "." then climb way steps
    else if step = ".." then
      if way = [] then none else climb way.dropLast steps
    else climb (way ++ [step]) steps

/-- Where a reference leads from a location, unless it leaves the root. -/
def wayAt? (location reference : String) : Option (List String) :=
  climb [] (Text.splitOnChar '/' location ++ Text.splitOnChar '/' reference)

/-- A name that leads down. -/
def IsStep (n : String) : Prop :=
  IsPiece n ∧ n ≠ ".."

theorem isStep_of_isName {s : String} (h : IsName s) : IsStep s :=
  ⟨h.isPiece, h.ne_dots⟩

/-- Names that lead down are followed. -/
theorem climb_of_isStep {steps : List String} (h : ∀ n ∈ steps, IsStep n) (way : List String) :
    climb way steps = some (way ++ steps) := by
  induction steps generalizing way with
  | nil => rw [climb, List.append_nil]
  | cons step steps ih =>
      have hstep := h step List.mem_cons_self
      have hproper : ¬ (step = "" ∨ step = ".") := not_or.mpr ⟨hstep.1.ne_empty, hstep.1.ne_dot⟩
      rw [climb, if_neg hproper, if_neg hstep.2,
        ih (fun n hn => h n (List.mem_cons_of_mem _ hn)), List.append_assoc,
        List.singleton_append]

/-- What says nothing can be left out. -/
theorem climb_filter (steps : List String) : ∀ way,
    climb way (steps.filter Path.isProper) = climb way steps := by
  induction steps with
  | nil => exact fun _ => rfl
  | cons step steps ih =>
      intro way
      by_cases hproper : Path.isProper step = true
      · rw [List.filter_cons_of_pos hproper]
        simp only [climb, ih]
      · have hnothing : step = "" ∨ step = "." := by
          rw [Path.isProper, Bool.and_eq_true, bne_iff_ne, bne_iff_ne, not_and_or, not_not,
            not_not] at hproper
          exact hproper
        rw [List.filter_cons_of_neg hproper, ih, climb, if_pos hnothing]

/-- A step that does not lead out of the root leads to some directory, where the
    steps behind it go on. -/
theorem exists_climb_cons {way : List String} {step : String} (h : ¬ (step = ".." ∧ way = [])) :
    ∃ way', ∀ steps, climb way (step :: steps) = climb way' steps := by
  simp only [climb]
  by_cases hnothing : step = "" ∨ step = "."
  · exact ⟨way, fun steps => by rw [if_pos hnothing]⟩
  · by_cases hup : step = ".."
    · have hbelow : way ≠ [] := fun hroot => h ⟨hup, hroot⟩
      exact ⟨way.dropLast, fun steps => by rw [if_neg hnothing, if_pos hup, if_neg hbelow]⟩
    · exact ⟨way ++ [step], fun steps => by rw [if_neg hnothing, if_neg hup]⟩

/-- One of the steps leads out of the root: it is a double dot, and the steps
    before it lead to the root. -/
def LeavesRoot (way steps : List String) : Prop :=
  ∃ before after, steps = before ++ ".." :: after ∧ climb way before = some []

/-- Behind a step that leads to some directory it is the others that matter. -/
theorem leavesRoot_cons {way way' steps : List String} {step : String}
    (h : ¬ (step = ".." ∧ way = []))
    (hclimb : ∀ steps, climb way (step :: steps) = climb way' steps) :
    LeavesRoot way (step :: steps) ↔ LeavesRoot way' steps := by
  constructor
  · rintro ⟨before, after, heq, hbefore⟩
    cases before with
    | nil =>
        -- The double dot would be this step, taken at the root.
        rw [List.nil_append, List.cons.injEq] at heq
        rw [climb, Option.some.injEq] at hbefore
        exact absurd ⟨heq.1, hbefore⟩ h
    | cons first before =>
        rw [List.cons_append, List.cons.injEq] at heq
        rw [← heq.1, hclimb] at hbefore
        exact ⟨before, after, heq.2, hbefore⟩
  · rintro ⟨before, after, rfl, hbefore⟩
    exact ⟨step :: before, after, rfl, by rw [hclimb, hbefore]⟩

/-- Steps lead nowhere exactly if one of them leads out of the root. -/
theorem climb_eq_none_iff (steps : List String) : ∀ way,
    climb way steps = none ↔ LeavesRoot way steps := by
  induction steps with
  | nil =>
      intro way
      constructor
      · exact fun h => absurd h (Option.some_ne_none way)
      · rintro ⟨before, after, heq, -⟩
        exact absurd heq.symm (List.append_ne_nil_of_right_ne_nil _ (List.cons_ne_nil _ _))
  | cons step steps ih =>
      intro way
      by_cases hout : step = ".." ∧ way = []
      · -- The steps end here, whatever comes behind.
        rcases hout with ⟨rfl, rfl⟩
        exact ⟨fun _ => ⟨[], steps, rfl, rfl⟩, fun _ => rfl⟩
      · rcases exists_climb_cons hout with ⟨way', hclimb⟩
        rw [hclimb, ih, leavesRoot_cons hout hclimb]

/-- Names on the way lead down. -/
theorem isStep_of_climb (steps : List String) : ∀ way found, climb way steps = some found →
    (∀ n ∈ way, IsStep n) → (∀ n ∈ steps, '/' ∉ n.toList) → ∀ n ∈ found, IsStep n := by
  induction steps with
  | nil =>
      intro way found h hway _
      rw [climb, Option.some.injEq] at h
      rwa [← h]
  | cons step steps ih =>
      intro way found h hway hsteps
      rw [climb] at h
      have hrest : ∀ n ∈ steps, '/' ∉ n.toList := fun n hn => hsteps n (List.mem_cons_of_mem _ hn)
      split at h
      · exact ih way found h hway hrest
      · next hproper =>
          split at h
          · split at h
            · cases h
            · exact ih _ found h (fun n hn => hway n (List.mem_of_mem_dropLast hn)) hrest
          · next hdown =>
              refine ih _ found h (fun n hn => ?_) hrest
              rcases List.mem_append.mp hn with hn | hn
              · exact hway n hn
              · rw [List.mem_singleton.mp hn]
                rw [not_or] at hproper
                exact ⟨⟨hproper.1, hproper.2, hsteps step List.mem_cons_self⟩, hdown⟩

/-- A double dot in front stays there, whatever steps follow. -/
theorem resolveDots_concat (steps : List String) : ∀ stack,
    Path.resolveDots false (stack ++ [".."]) steps =
      ".." :: Path.resolveDots false stack steps := by
  induction steps with
  | nil =>
      intro stack
      rw [Path.resolveDots, Path.resolveDots, List.reverse_append]
      rfl
  | cons step steps ih =>
      intro stack
      by_cases hup : step = ".."
      · subst hup
        -- A step up cancels a name on the stack but no double dot.
        cases stack with
        | nil => exact ih [".."]
        | cons top rest =>
            simp only [List.cons_append, Path.resolveDots, beq_self_eq_true, if_true]
            by_cases htop : top = ".."
            · rw [if_pos (beq_iff_eq.mpr htop), if_pos (beq_iff_eq.mpr htop)]
              exact ih (".." :: top :: rest)
            · rw [if_neg (mt beq_iff_eq.mp htop), if_neg (mt beq_iff_eq.mp htop)]
              exact ih rest
      · unfold Path.resolveDots
        rw [if_neg (mt beq_iff_eq.mp hup), if_neg (mt beq_iff_eq.mp hup)]
        exact ih (step :: stack)

/-- Resolving double dots takes the same steps. Where they leave the root, a
    double dot is left in front. -/
theorem resolveDots_climb (steps : List String) (hproper : ∀ n ∈ steps, Path.isProper n = true) :
    ∀ way, ".." ∉ way →
      (∀ found, climb way steps = some found →
        Path.resolveDots false way.reverse steps = found) ∧
      (climb way steps = none → ∃ rest,
        Path.resolveDots false way.reverse steps = ".." :: rest) := by
  induction steps with
  | nil =>
      intro way _
      rw [climb, Path.resolveDots, List.reverse_reverse]
      exact ⟨fun found h => Option.some.inj h, fun h => absurd h (Option.some_ne_none way)⟩
  | cons step steps ih =>
      intro way hway
      have hrest := ih (fun n hn => hproper n (List.mem_cons_of_mem _ hn))
      have hstep : ¬ (step = "" ∨ step = ".") := by
        have hthis := hproper step List.mem_cons_self
        rw [Path.isProper, Bool.and_eq_true, bne_iff_ne, bne_iff_ne] at hthis
        exact not_or.mpr hthis
      rw [climb, if_neg hstep]
      by_cases hup : step = ".."
      · subst hup
        rw [if_pos rfl]
        -- Up from the root leaves it, and a double dot stays in front from then on.
        rcases List.eq_nil_or_concat way with rfl | ⟨dirs, last, rfl⟩
        · rw [if_pos rfl]
          refine ⟨fun found h => absurd h.symm (Option.some_ne_none found), fun _ => ?_⟩
          exact ⟨_, resolveDots_concat steps []⟩
        · rw [List.concat_eq_append] at hway ⊢
          rw [if_neg (List.append_ne_nil_of_right_ne_nil _ (List.cons_ne_nil _ _)),
            List.dropLast_concat, List.reverse_append, List.reverse_singleton,
            List.singleton_append]
          rw [List.mem_append, not_or, List.mem_singleton] at hway
          have hlast : ¬ (last == "..") = true := fun heq => hway.2 (eq_of_beq heq).symm
          simp only [Path.resolveDots, beq_self_eq_true, if_true, if_neg hlast]
          exact hrest dirs hway.1
      · rw [if_neg hup]
        unfold Path.resolveDots
        rw [if_neg (mt beq_iff_eq.mp hup)]
        have hnext := hrest (way ++ [step]) (by
          rw [List.mem_append, not_or, List.mem_singleton]
          exact ⟨hway, fun heq => hup heq.symm⟩)
        rwa [List.reverse_append, List.reverse_singleton, List.singleton_append] at hnext

end Reference

/-- The text does not start at the root. -/
def IsRelative (s : String) : Prop :=
  s.toList.head? ≠ some '/'

theorem IsRelative.rootOf {s : String} (h : IsRelative s) : Path.rootOf s = "" := by
  rcases hchars : s.toList with _ | ⟨c, cs⟩
  · rw [Path.rootOf, hchars]
  · have hhead : s.toList.head? = some c := by rw [hchars, List.head?_cons]
    exact Path.rootOf_of_head? hhead (fun heq => h (heq ▸ hhead))

theorem isRelative_iff {s : String} : IsRelative s ↔ ¬ Text.startsWith ['/'] s.toList = true := by
  rw [IsRelative, Text.startsWith]
  rcases s.toList with _ | ⟨c, cs⟩
  · simp only [List.head?_nil, Text.dropPrefix?, reduceCtorEq, ne_eq, not_false_eq_true,
      Option.isSome_none, Bool.false_eq_true]
  · by_cases hc : '/' = c
    · simp only [List.head?_cons, Text.dropPrefix?, ← hc, beq_self_eq_true, if_true, ne_eq,
        not_true_eq_false, Option.isSome_some]
    · simp only [List.head?_cons, Text.dropPrefix?, beq_eq_false_iff_ne.mpr hc, if_false,
        Option.isSome_none, Bool.false_eq_true, not_false_eq_true, ne_eq, Option.some.injEq,
        iff_true]
      exact fun heq => hc heq.symm

namespace Reference

/-- The pieces of a joined name that say something are those of its parts. -/
theorem filter_splitOnChar_joinName (location : String) {name : String} (hname : IsRelative name) :
    (Text.splitOnChar '/' (joinName location name)).filter Path.isProper =
      (Text.splitOnChar '/' location ++ Text.splitOnChar '/' name).filter Path.isProper := by
  have hslash : ("/" : String) = String.ofList ['/'] := rfl
  rw [joinName]
  by_cases hempty : location.isEmpty = true
  · rw [if_pos hempty, String.isEmpty_iff.mp hempty, List.filter_append]
    rfl
  · rw [if_neg hempty, if_neg (isRelative_iff.mp hname)]
    by_cases hend : Text.endsWith ['/'] location.toList = true
    · -- The location has its own slash, and nothing follows that.
      rw [if_pos hend]
      rcases Text.exists_eq_append_of_endsWith hend with ⟨stem, hstem⟩
      have hlocation : location = String.ofList stem ++ String.ofList ['/'] ++ "" := by
        rw [← String.toList_inj, hstem, String.append_empty, String.toList_append,
          String.toList_ofList, String.toList_ofList]
      have hjoined : location ++ name = String.ofList stem ++ String.ofList ['/'] ++ name := by
        rw [hlocation, String.append_empty]
      rw [hjoined, Text.splitOnChar_join, hlocation, Text.splitOnChar_join, List.append_assoc,
        List.filter_append, List.filter_append, List.filter_append]
      rfl
    · rw [if_neg hend, hslash, Text.splitOnChar_join]

theorem isRelative_joinName {location name : String} (hlocation : IsRelative location)
    (hname : IsRelative name) : IsRelative (joinName location name) := by
  rw [joinName]
  by_cases hempty : location.isEmpty = true
  · rwa [if_pos hempty]
  · rw [if_neg hempty, if_neg (isRelative_iff.mp hname)]
    rcases hchars : location.toList with _ | ⟨c, cs⟩
    · exact absurd (String.isEmpty_iff.mpr (String.toList_eq_nil_iff.mp hchars)) hempty
    · rw [IsRelative, hchars] at hlocation
      split
      · rwa [IsRelative, String.toList_append, hchars]
      · rwa [IsRelative, String.toList_append, String.toList_append, hchars]

/-- What is normalised, as the steps that it takes. -/
theorem normalize_joinName {location name : String} (hlocation : IsRelative location)
    (hname : IsRelative name) :
    (∀ way, wayAt? location name = some way →
      Path.normalize (joinName location name) = Path.text ⟨"", way⟩) ∧
    (wayAt? location name = none → ∃ rest,
      Path.normalize (joinName location name) = Path.text ⟨"", ".." :: rest⟩) := by
  have hparts : Path.normalize (joinName location name) = Path.text ⟨"", Path.resolveDots false []
      ((Text.splitOnChar '/' location ++ Text.splitOnChar '/' name).filter Path.isProper)⟩ := by
    rw [Path.normalize, Path.ofString, (isRelative_joinName hlocation hname).rootOf,
      filter_splitOnChar_joinName location hname]
    rfl
  have hclimb := resolveDots_climb
    ((Text.splitOnChar '/' location ++ Text.splitOnChar '/' name).filter Path.isProper)
    (fun n hn => (List.mem_filter.mp hn).2) [] List.not_mem_nil
  rw [climb_filter, List.reverse_nil] at hclimb
  rw [hparts]
  refine ⟨fun way hway => ?_, fun hnone => ?_⟩
  · rw [hclimb.1 way hway]
  · rcases hclimb.2 hnone with ⟨rest, hrest⟩
    exact ⟨rest, by rw [hrest]⟩

/-- Names on a way lead down. -/
theorem isStep_of_wayAt? {location name : String} {way : List String}
    (h : wayAt? location name = some way) : ∀ n ∈ way, IsStep n := by
  refine isStep_of_climb _ [] way h (fun n hn => absurd hn List.not_mem_nil) (fun n hn => ?_)
  rcases List.mem_append.mp hn with hn | hn
  · exact Text.notMem_of_mem_splitOnChar hn
  · exact Text.notMem_of_mem_splitOnChar hn

/-- Names that lead down can be read off their text. -/
theorem splitOnChar_steps {way : List String} (hne : way ≠ []) (h : ∀ n ∈ way, IsStep n) :
    Text.splitOnChar '/' (wayText way) = way :=
  Text.splitOnChar_joinStrings '/' hne (fun n hn => (h n hn).1.noSlash)

/-- The text of names that lead down is none of those that have no key. -/
theorem text_of_steps {way : List String} (hne : way ≠ []) (h : ∀ n ∈ way, IsStep n) :
    Path.text ⟨"", way⟩ = wayText way ∧ wayText way ≠ "." ∧ wayText way ≠ ".." ∧
      ¬ Text.startsWith "../".toList (wayText way).toList = true := by
  have hslash : ("/" : String) = String.ofList ['/'] := rfl
  have hsplit := splitOnChar_steps hne h
  have hnot : ∀ s, Text.splitOnChar '/' s = [s] → ¬ IsStep s → wayText way ≠ s := by
    intro s hs hstep heq
    rw [heq, hs] at hsplit
    exact hstep (h s (hsplit ▸ List.mem_singleton_self s))
  refine ⟨?_, hnot "." rfl (fun hstep => hstep.1.ne_dot rfl),
    hnot ".." rfl (fun hstep => hstep.2 rfl), fun hstart => ?_⟩
  · rw [Path.text, List.isEmpty_eq_false_iff.mpr hne, Bool.and_false, if_neg Bool.false_ne_true,
      String.empty_append, wayText]
  · rcases Option.isSome_iff_exists.mp hstart with ⟨rest, hrest⟩
    have hlist := Text.eq_append_of_dropPrefix? hrest
    have htext : wayText way = ".." ++ String.ofList ['/'] ++ String.ofList rest := by
      rw [← String.toList_inj, hlist]
      simp only [String.toList_append, String.toList_ofList]
      rfl
    rw [htext, Text.splitOnChar_append (by decide)] at hsplit
    exact (h ".." (hsplit ▸ List.mem_cons_self)).2 rfl

/-- The text of names with a double dot in front has no key: the double dot is
    all of it, or a slash follows. -/
theorem out_of_dots (rest : List String) :
    (Path.text ⟨"", ".." :: rest⟩ == "." || Path.text ⟨"", ".." :: rest⟩ == ".." ||
      Text.startsWith "../".toList (Path.text ⟨"", ".." :: rest⟩).toList) = true := by
  rcases rest with _ | ⟨n, ns⟩
  · rfl
  · have htext : (Path.text ⟨"", ".." :: n :: ns⟩).toList =
        '.' :: '.' :: '/' :: (Text.joinStrings "/" (n :: ns)).toList := by
      rw [Path.text, List.isEmpty_cons, Bool.and_false, if_neg Bool.false_ne_true,
        String.empty_append, Text.joinStrings, String.toList_append, String.toList_append]
      rfl
    rw [htext, Bool.or_eq_true]
    exact Or.inr rfl

/-- Which references have keys: those that stay below the root, and their keys
    are the texts of the ways. -/
theorem keyAt?_eq_some_iff {location name key : String} (hlocation : IsRelative location)
    (hname : IsRelative name) : keyAt? location name = some key ↔
      ∃ way, wayAt? location name = some way ∧ way ≠ [] ∧ key = wayText way := by
  have hnormal := normalize_joinName hlocation hname
  rw [keyAt?]
  rcases hway : wayAt? location name with _ | way
  · rcases hnormal.2 hway with ⟨rest, hrest⟩
    simp only [hrest, out_of_dots rest, if_true, reduceCtorEq, false_and, exists_false]
  · rw [hnormal.1 way hway]
    simp only [Option.some.injEq, exists_eq_left']
    by_cases hne : way = []
    · rw [hne]
      simp only [ne_eq, not_true_eq_false, false_and, iff_false]
      exact fun h => absurd h.symm (Option.some_ne_none key)
    · rcases text_of_steps hne (isStep_of_wayAt? hway) with ⟨htext, hdot, hdots, hstart⟩
      rw [htext, beq_eq_false_iff_ne.mpr hdot, beq_eq_false_iff_ne.mpr hdots,
        Bool.eq_false_iff.mpr hstart, Bool.or_self, Bool.or_self, if_neg Bool.false_ne_true,
        Option.some.injEq, and_iff_right hne]
      exact eq_comm

/-- The text of pieces does not start at the root. -/
theorem isRelative_pieces {way : List String} (hne : way ≠ []) (h : ∀ n ∈ way, IsPiece n) :
    IsRelative (wayText way) := by
  rcases head?_wayText hne h with ⟨c, hc, hslash⟩
  rw [IsRelative, hc, ne_eq, Option.some.injEq]
  exact hslash

theorem isRelative_wayText {way : List String} (hne : way ≠ []) (h : ∀ n ∈ way, IsName n) :
    IsRelative (wayText way) :=
  isRelative_pieces hne (fun n hn => (h n hn).isPiece)

/-- A reference has no key if one of its steps leads out of the root, or if all of
    them lead to the root itself. -/
theorem keyAt?_eq_none_iff {location name : String} (hlocation : IsRelative location)
    (hname : IsRelative name) : keyAt? location name = none ↔
      LeavesRoot [] (Text.splitOnChar '/' location ++ Text.splitOnChar '/' name) ∨
        wayAt? location name = some [] := by
  have hsome (key : String) : keyAt? location name = some key ↔
      ∃ way, wayAt? location name = some way ∧ way ≠ [] ∧ key = wayText way :=
    keyAt?_eq_some_iff hlocation hname
  rw [← climb_eq_none_iff, ← wayAt?, Option.eq_none_iff_forall_ne_some]
  rcases hway : wayAt? location name with _ | way
  · -- No way, so no key.
    refine iff_of_true (fun key hkey => ?_) (Or.inl rfl)
    rcases (hsome key).mp hkey with ⟨way, hfound, -⟩
    exact absurd (hway.symm.trans hfound) (Option.some_ne_none way).symm
  · simp only [reduceCtorEq, false_or, Option.some.injEq]
    constructor
    · intro h
      by_contra hne
      exact h _ ((hsome _).mpr ⟨way, hway, hne, rfl⟩)
    · rintro rfl key hkey
      rcases (hsome key).mp hkey with ⟨way, hfound, hne, -⟩
      exact hne (Option.some.inj (hfound.symm.trans hway))

/-- Keys stay below the root. Take the steps of a location from the root and then
    those of a reference, where neither starts with a slash: what is empty or a
    single dot leads nowhere, a double dot leads up, and anything else leads down.
    There is no key exactly if some double dot is met at the root, or if the last
    step ends there. Otherwise the key is the way that was taken, with slashes
    between its names. So no key starts with a slash, and none has a component
    that is empty or consists of one dot or two. -/
theorem keyAt?_stays_below {location reference : String} (hlocation : IsRelative location)
    (hreference : IsRelative reference) :
    (keyAt? location reference = none ↔
      LeavesRoot [] (Text.splitOnChar '/' location ++ Text.splitOnChar '/' reference) ∨
        wayAt? location reference = some []) ∧
    (∀ key, keyAt? location reference = some key ↔
      ∃ way, wayAt? location reference = some way ∧ way ≠ [] ∧ key = wayText way) ∧
    ∀ key, keyAt? location reference = some key →
      IsRelative key ∧ ∀ n ∈ Text.splitOnChar '/' key, n ≠ "" ∧ n ≠ "." ∧ n ≠ ".." := by
  refine ⟨keyAt?_eq_none_iff hlocation hreference,
    fun key => keyAt?_eq_some_iff hlocation hreference, fun key hkey => ?_⟩
  rcases (keyAt?_eq_some_iff hlocation hreference).mp hkey with ⟨way, hway, hne, rfl⟩
  have hsteps := isStep_of_wayAt? hway
  refine ⟨isRelative_pieces hne (fun n hn => (hsteps n hn).1), fun n hn => ?_⟩
  rw [splitOnChar_steps hne hsteps] at hn
  exact ⟨(hsteps n hn).1.ne_empty, (hsteps n hn).1.ne_dot, (hsteps n hn).2⟩

/-- Steps with dots in and between them. One way stays below the root. The other
    one leaves it, although it would come back. -/
theorem keyAt?_stays_below_deep : IsRelative "queries/deep" ∧ IsRelative "..//./..x/y" ∧
    IsRelative "../x/../../../queries" ∧
    keyAt? "queries/deep" "..//./..x/y" = some "queries/..x/y" ∧
    keyAt? "queries/deep" "../x/../../../queries" = none := by
  have hlocation : IsRelative "queries/deep" := by unfold IsRelative; decide
  have hdown : IsRelative "..//./..x/y" := by unfold IsRelative; decide
  have hup : IsRelative "../x/../../../queries" := by unfold IsRelative; decide
  refine ⟨hlocation, hdown, hup, ?_, ?_⟩
  · exact ((keyAt?_stays_below hlocation hdown).2.1 _).mpr
      ⟨["queries", "..x", "y"], by decide, List.cons_ne_nil _ _, rfl⟩
  · exact (keyAt?_stays_below hlocation hup).1.mpr (Or.inl
      ⟨["queries", "deep", "..", "x", "..", ".."], ["queries"], by decide,
        by decide⟩)

/-- At the root a path is its own key. -/
theorem keyAt?_root {way : List String} (hne : way ≠ []) (h : ∀ n ∈ way, IsName n) :
    keyAt? "" (wayText way) = some (wayText way) := by
  have hroot : IsRelative "" := (Option.some_ne_none _).symm
  refine (keyAt?_eq_some_iff hroot (isRelative_wayText hne h)).mpr ⟨way, ?_, hne, rfl⟩
  rw [wayAt?, splitOnChar_wayText hne h]
  exact climb_of_isStep (fun n hn => isStep_of_isName (h n hn)) []

/-- The directories above a template, the nearest first and the root last. -/
def placesAbove (path : String) : List String :=
  ((Text.splitOnChar '/' path).dropLast.inits.reverse).map wayText

theorem root_mem_placesAbove (path : String) : "" ∈ placesAbove path := by
  rw [placesAbove, List.mem_map]
  exact ⟨[], List.mem_reverse.mpr ((List.mem_inits _ _).mpr (List.nil_prefix)), rfl⟩

/-- The directory of a template is what the names before its own make. -/
theorem directoryOf_wayText {dirs : List String} {n : String} (hn : '/' ∉ n.toList) :
    directoryOf (wayText (dirs ++ [n])) = wayText dirs := by
  rw [directoryOf]
  by_cases hne : dirs = []
  · rw [hne, List.nil_append, show wayText [n] = n from rfl, Text.cutLast_of_not_mem hn]
    rfl
  · rw [wayText_concat hne, show ("/" : String) = String.ofList ['/'] from rfl,
      Text.cutLast_append _ hn]
    rfl

/-- Going up from a directory comes to all that are above it. -/
theorem ancestors_wayText (dirs : List String) (h : ∀ n ∈ dirs, IsName n) : ∀ count,
    dirs.length ≤ count → ancestors count (wayText dirs) = (dirs.inits.reverse).map wayText := by
  induction dirs using List.reverseRecOn with
  | nil =>
      intro count _
      cases count with
      | zero => rfl
      | succ count => rfl
  | append_singleton dirs n ih =>
      intro count hcount
      have hfull : ¬ (wayText (dirs ++ [n])).isEmpty = true := by
        rw [String.isEmpty_iff]
        exact wayText_ne_empty (List.append_ne_nil_of_right_ne_nil _ (List.cons_ne_nil _ _)) h
      have hname := (h n (List.mem_append_right _ List.mem_cons_self)).noSlash
      rw [List.length_append, List.length_singleton] at hcount
      rcases count with _ | count
      · exact absurd hcount (Nat.not_succ_le_zero _)
      -- One directory up, the last name on the way is gone.
      · have hup := @directoryOf_wayText dirs n hname
        rw [directoryOf] at hup
        rw [ancestors, if_neg hfull, hup,
          ih (fun m hm => h m (List.mem_append_left _ hm)) count (Nat.le_of_succ_le_succ hcount),
          inits_concat, List.reverse_append, List.reverse_singleton, List.singleton_append,
          List.map_cons]

theorem length_le_wayText {way : List String} (h : ∀ n ∈ way, IsName n) :
    way.length ≤ (wayText way).length := by
  induction way with
  | nil => exact Nat.zero_le _
  | cons n ns ih =>
      have hrest := ih (fun m hm => h m (List.mem_cons_of_mem n hm))
      have hpos : 0 < n.length := by
        rw [← String.length_toList, List.length_pos_iff, ne_eq, String.toList_eq_nil_iff]
        exact (h n List.mem_cons_self).ne_empty
      cases ns with
      | nil => exact hpos
      | cons m ms =>
          rw [wayText, Text.joinStrings, String.length_append, String.length_append,
            List.length_cons]
          rw [wayText] at hrest
          omega

/-- Going up from the directory of a template lists those above it. -/
theorem ancestors_directoryOf {way : List String} (hne : way ≠ []) (h : ∀ n ∈ way, IsName n) :
    ancestors (directoryOf (wayText way)).length (directoryOf (wayText way)) =
      placesAbove (wayText way) := by
  rw [placesAbove, splitOnChar_wayText hne h]
  rcases List.eq_nil_or_concat way with hnil | ⟨dirs, n, rfl⟩
  · exact absurd hnil hne
  · rw [List.concat_eq_append] at h ⊢
    have hdirs : ∀ m ∈ dirs, IsName m := fun m hm => h m (List.mem_append_left _ hm)
    rw [directoryOf_wayText (h n (List.mem_append_right _ List.mem_cons_self)).noSlash,
      ancestors_wayText dirs hdirs _ (length_le_wayText hdirs), List.dropLast_concat]

end Reference

end Stencil
