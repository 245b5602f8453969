import Stencil.Proofs.Ignore.Match
import Stencil.Proofs.Ignore.Verdict

/-!
# Patterns for Directories

What a pattern with a slash at its end decides about files.

Such a pattern is meant for directories. It is matched against what follows the
ignore file on a path, though, and a path goes on below a directory, so the
pattern matches a file through each directory above it that the pattern matches.

For a pattern that ignores this changes nothing about files in directories that
are kept. Some later pattern has included the directory again, and that pattern
matches the file as well. A pattern that includes again does change something:
it includes every file below a directory that it matches, whatever an earlier
pattern says about that file. `slash_line_decides` says when a line with a slash
at its end, put anywhere into a stack of ignore files, changes the verdict about
a file.

## Main definitions

* `IsParent`: A directory is above a path.
* `ReadAs`: The rules that a stack of ignore files is read as.
* `stackPatterns`: The patterns in the lines of a stack.

## Theorems

* `placed_of_readAs`: The patterns of rules are those in the lines.
* `changed_iff`: When one more pattern changes a verdict.
* `hits_iff_parent`: A pattern for directories matches a file through its parents.
* `hits_below`: What is below a matched directory is matched.
* `slash_line_decides`: What a line for directories decides about files.
-/

namespace Stencil

namespace Ignore

/-- The directory is above the path. -/
def IsParent (dir path : String) : Prop :=
  ∃ rest, path = dir ++ "/" ++ rest

/-- The rules that a stack of ignore files is read as. A directory whose files
    have no lines has no rules. -/
inductive ReadAs : List (String × List String) → List Rules → Prop
  | nil : ReadAs [] []
  | cons {base : String} {lines : List String} {r : Rules} {stack : List (String × List String)}
      {rules : List Rules} (h : Rules.ofLines base lines = .ok r) (hrest : ReadAs stack rules) :
      ReadAs ((base, lines) :: stack) (r :: rules)
  | skip {base : String} {stack : List (String × List String)} {rules : List Rules}
      (hrest : ReadAs stack rules) : ReadAs ((base, []) :: stack) rules

/-- The patterns in the lines of a stack of ignore files. -/
def stackPatterns (stack : List (String × List String)) : List Placed :=
  stack.flatMap fun s => (s.2.filterMap linePattern?).map (Placed.mk s.1)

section Stack

variable {stack outer inner : List (String × List String)} {rules : List Rules}

theorem placed_of_readAs (h : ReadAs stack rules) : placed rules = stackPatterns stack := by
  induction h with
  | nil => rfl
  | cons hr _ ih =>
      rcases patterns_ofLines hr with ⟨hbase, hpatterns⟩
      rw [placed, stackPatterns] at ih ⊢
      rw [List.flatMap_cons, List.flatMap_cons, ih, hbase, hpatterns]
  | skip _ ih => exact ih

/-- A stack is cut between two lines of one of its files. -/
theorem stackPatterns_cut (outer inner : List (String × List String)) (base : String)
    (above below : List String) :
    stackPatterns (outer ++ (base, above ++ below) :: inner) =
      stackPatterns (outer ++ [(base, above)]) ++ stackPatterns ((base, below) :: inner) := by
  simp only [stackPatterns, List.flatMap_append, List.flatMap_cons, List.flatMap_nil,
    List.filterMap_append, List.map_append, List.append_assoc, List.append_nil]

theorem stackPatterns_cons_line (inner : List (String × List String)) (base line : String)
    (below : List String) :
    stackPatterns ((base, line :: below) :: inner) =
      (linePattern? line).toList.map (Placed.mk base) ++
        stackPatterns ((base, below) :: inner) := by
  simp only [stackPatterns, List.flatMap_cons, ← List.append_assoc]
  rcases hline : linePattern? line with _ | p
  · rw [List.filterMap_cons_none hline]
    rfl
  · rw [List.filterMap_cons_some hline]
    rfl

end Stack

section Changed

variable {hits : Placed → Prop} {earlier later : List Placed}

theorem exists_isLast (hits : Placed → Prop) (ps : List Placed) : ∃ v, IsLast hits ps v := by
  induction ps using List.reverseRecOn with
  | nil => exact ⟨none, isLast_nil⟩
  | append_singleton ps p ih =>
      rcases ih with ⟨v, hv⟩
      by_cases hp : hits p
      · exact ⟨_, .hit hp (fun _ hq => absurd hq List.not_mem_nil)⟩
      · exact ⟨_, hv.append (.none fun q hq => List.mem_singleton.mp hq ▸ hp)⟩

/-- One more pattern changes the verdict if it matches, no later one does, and
    the earlier ones have the other verdict. -/
theorem changed_iff {p : Placed} {v v' : Option Bool} (h : IsLast hits (earlier ++ later) v)
    (h' : IsLast hits (earlier ++ p :: later) v') :
    v'.getD false ≠ v.getD false ↔ hits p ∧ (∀ q ∈ later, ¬ hits q) ∧
      ∃ u, IsLast hits earlier u ∧ u.getD false ≠ p.pattern.ignores := by
  rcases exists_isLast hits earlier with ⟨u, hu⟩
  rcases exists_isLast hits later with ⟨w, hw⟩
  rw [h.unique (hu.append hw)]
  rw [← List.singleton_append, ← List.append_assoc] at h'
  by_cases hp : hits p
  · have hnew : IsLast hits (earlier ++ [p]) (some p.pattern.ignores) :=
      .hit hp (fun _ hq => absurd hq List.not_mem_nil)
    rw [h'.unique (hnew.append hw)]
    cases hw with
    | @hit _ _ q hq _ =>
        -- a later match decides both times
        exact iff_of_false (fun hne => hne rfl)
          fun hright => hright.2.1 q (List.mem_append_right _ List.mem_cons_self) hq
    | none hnone =>
        constructor
        · exact fun hne => ⟨hp, hnone, u, hu, hne.symm⟩
        · rintro ⟨_, _, u', hu', hne⟩
          exact (hu.unique hu' ▸ hne).symm
  · have hold := hu.append (.none fun q hq => List.mem_singleton.mp hq ▸ hp : IsLast hits [p] none)
    rw [h'.unique (hold.append hw)]
    exact iff_of_false (fun hne => hne rfl) fun hright => hp hright.1

theorem isIgnored_of_isLast {rules : List Rules} {path : String} {isDir : Bool} {v : Option Bool}
    (h : IsLast (Placed.Hits Pattern.matches path isDir) (placed rules) v) :
    isIgnored rules path isDir = v.getD false := by
  rw [h.unique (isLast_findSome? rules)]
  rfl

end Changed

section Line

variable {line : String} {p : Pattern}

theorem steps_of_patternOf {ignores : Bool} {cs : List Char}
    (h : patternOf ignores cs = .ok (some p)) :
    p.ignores = ignores ∧ compileSteps cs = .ok p.steps := by
  unfold patternOf at h
  split at h
  · next steps hsteps =>
      cases h
      exact ⟨rfl, hsteps⟩
  · cases h
  · cases h

/-- The text of the pattern in a line stands behind an exclamation mark if the
    pattern includes again. -/
theorem exists_text (h : linePattern? line = some p) :
    ∃ cs, compileSteps cs = .ok p.steps ∧
      (p.ignores = true ∧ trimLine line = cs ∨
        p.ignores = false ∧ trimLine line = '!' :: cs) := by
  have hcompile : Pattern.compile line = .ok (some p) := by
    unfold linePattern? at h
    split at h
    · next found hfound => rw [hfound, h]
    · cases h
  unfold Pattern.compile at hcompile
  split at hcompile
  · cases hcompile
  · cases hcompile
  · cases hcompile
  · next cs hcs =>
      rcases steps_of_patternOf hcompile with ⟨hignores, hsteps⟩
      exact ⟨cs, hsteps, .inr ⟨hignores, hcs⟩⟩
  · rcases steps_of_patternOf hcompile with ⟨hignores, hsteps⟩
    exact ⟨trimLine line, hsteps, .inl ⟨hignores, rfl⟩⟩

/-- The pattern in a line has one of the two shapes, and it ends in a slash if
    the line does. -/
theorem shape_of_line (h : linePattern? line = some p) :
    ((p.steps = [.anySlash] ∨ EndsInSlash p.steps) ∨
      p.steps = [.anything] ∨ EndsInName p.steps) ∧
      ((trimLine line).getLast? = some '/' → p.steps = [.anySlash] ∨ EndsInSlash p.steps) := by
  rcases exists_text h with ⟨cs, hsteps, htext⟩
  rcases shape_of_compileSteps hsteps with ⟨hshape, hslash⟩
  refine ⟨hshape, fun hl => hslash ?_⟩
  rcases htext with ⟨_, htext⟩ | ⟨_, htext⟩
  · rwa [htext] at hl
  · rw [htext] at hl
    rcases cs with _ | ⟨c, cs⟩
    · exact absurd hl (by decide)
    · rwa [List.getLast?_cons_cons] at hl

end Line

section Hits

variable {base dir file : String} {p : Pattern}

/-- What is below a directory is below what the directory is below. -/
theorem IsBelow.append {rest : String} (h : IsBelow base dir rest) (post : String) :
    IsBelow base (dir ++ "/" ++ post) (rest ++ "/" ++ post) := by
  unfold IsBelow at h ⊢
  by_cases hroot : base = ""
  · rw [if_pos hroot] at h ⊢
    rw [h]
  · rw [if_neg hroot] at h ⊢
    rw [h]
    simp only [String.append_assoc]

theorem shown_file (rest : String) : shown rest false = rest.toList :=
  rfl

theorem shown_dir (rest : String) : shown rest true = rest.toList ++ ['/'] :=
  String.toList_append

/-- A pattern for directories matches a file through its parents. -/
theorem hits_iff_parent (h : p.steps = [.anySlash] ∨ EndsInSlash p.steps) :
    Placed.Hits Pattern.matches file false ⟨base, p⟩ ↔
      ∃ dir, IsParent dir file ∧ Placed.Hits Pattern.matches dir true ⟨base, p⟩ := by
  constructor
  · rintro ⟨rest, hbelow, hmatch⟩
    rcases (matches_through h).mp hmatch with ⟨d, post, hd, hdir⟩
    have hrest : rest = String.ofList d ++ "/" ++ String.ofList post := by
      rw [← String.toList_inj]
      simp only [String.toList_append, String.toList_ofList, List.append_assoc]
      exact hd
    have hshown : shown (String.ofList d) true = d ++ ['/'] := by
      rw [shown_dir, String.toList_ofList]
    unfold IsBelow at hbelow
    by_cases hroot : base = ""
    · rw [if_pos hroot] at hbelow
      exact ⟨String.ofList d, ⟨_, hbelow.trans hrest⟩, String.ofList d, (if_pos hroot).mpr rfl,
        hshown ▸ hdir⟩
    · rw [if_neg hroot] at hbelow
      refine ⟨base ++ "/" ++ String.ofList d, ⟨String.ofList post, ?_⟩, String.ofList d, ?_,
        hshown ▸ hdir⟩
      · rw [hbelow, hrest]
        simp only [String.append_assoc]
      · exact (if_neg hroot).mpr rfl
  · rintro ⟨dir, ⟨post, rfl⟩, rest, hbelow, hmatch⟩
    refine ⟨rest ++ "/" ++ post, hbelow.append post, ?_⟩
    rw [shown_dir] at hmatch
    refine (matches_through h).mpr ⟨rest.toList, post.toList, ?_, hmatch⟩
    rw [shown_file, String.toList_append, String.toList_append, List.append_assoc]
    rfl

/-- A pattern without the slash in its sets matches what is below a directory
    that it matches. -/
theorem hits_below
    (hshape : (p.steps = [.anySlash] ∨ EndsInSlash p.steps) ∨
      p.steps = [.anything] ∨ EndsInName p.steps) (hsets : p.SlashFree)
    (hparent : IsParent dir file) (h : Placed.Hits Pattern.matches dir true ⟨base, p⟩) :
    Placed.Hits Pattern.matches file false ⟨base, p⟩ := by
  rcases hparent with ⟨post, rfl⟩
  rcases h with ⟨rest, hbelow, hmatch⟩
  refine ⟨rest ++ "/" ++ post, hbelow.append post, ?_⟩
  rw [shown_dir] at hmatch
  rw [shown_file, String.toList_append, String.toList_append, List.append_assoc]
  exact matches_below hshape hsets hmatch post.toList

/-- The only directory above a name in a directory at the top. -/
theorem eq_of_isParent {top name dir : String} (htop : '/' ∉ top.toList)
    (hname : '/' ∉ name.toList) (h : IsParent dir (top ++ "/" ++ name)) : dir = top := by
  rcases h with ⟨rest, hrest⟩
  have hlist : top.toList ++ '/' :: name.toList = dir.toList ++ '/' :: rest.toList := by
    have hsame := congrArg String.toList hrest
    simp only [String.toList_append, List.append_assoc] at hsame
    exact hsame
  rcases List.append_eq_append_iff.mp hlist with ⟨mid, hmid, heq⟩ | ⟨mid, hmid, heq⟩
  · rcases mid with _ | ⟨c, mid⟩
    · rw [List.append_nil] at hmid
      exact String.toList_inj.mp hmid
    · rw [List.cons_append, List.cons.injEq] at heq
      exact absurd (heq.2 ▸ List.mem_append_right mid List.mem_cons_self) hname
  · rcases mid with _ | ⟨c, mid⟩
    · rw [List.append_nil] at hmid
      exact String.toList_inj.mp hmid.symm
    · rw [List.cons_append, List.cons.injEq] at heq
      exact absurd (hmid ▸ heq.1 ▸ List.mem_append_right dir.toList List.mem_cons_self) htop

end Hits

theorem line_of_mem_stackPatterns {stack : List (String × List String)} {q : Placed}
    (h : q ∈ stackPatterns stack) : ∃ line, linePattern? line = some q.pattern := by
  rcases List.mem_flatMap.mp h with ⟨s, _, hs⟩
  rcases List.mem_map.mp hs with ⟨p, hp, rfl⟩
  rcases List.mem_filterMap.mp hp with ⟨line, _, hline⟩
  exact ⟨line, hline⟩

section Inserted

variable {outer inner : List (String × List String)} {base line file : String}
  {above below : List String} {rules rules' : List Rules}

/-- The patterns before and after a line that is put into a stack. -/
theorem placed_inserted (h : ReadAs (outer ++ (base, above ++ below) :: inner) rules)
    (h' : ReadAs (outer ++ (base, above ++ line :: below) :: inner) rules') :
    placed rules = stackPatterns (outer ++ [(base, above)]) ++
        stackPatterns ((base, below) :: inner) ∧
      placed rules' = stackPatterns (outer ++ [(base, above)]) ++
        ((linePattern? line).toList.map (Placed.mk base) ++
          stackPatterns ((base, below) :: inner)) := by
  rw [placed_of_readAs h, placed_of_readAs h', stackPatterns_cut, stackPatterns_cut,
    stackPatterns_cons_line]
  exact ⟨rfl, rfl⟩

/-- A line for directories changes the verdict about a file through a directory
    above it. -/
theorem isIgnored_ne_iff (hslash : (trimLine line).getLast? = some '/')
    (h : ReadAs (outer ++ (base, above ++ below) :: inner) rules)
    (h' : ReadAs (outer ++ (base, above ++ line :: below) :: inner) rules') :
    isIgnored rules' file false ≠ isIgnored rules file false ↔
      ∃ p, linePattern? line = some p ∧
        (∃ dir, IsParent dir file ∧ Placed.Hits Pattern.matches dir true ⟨base, p⟩) ∧
        (∀ q ∈ stackPatterns ((base, below) :: inner), ¬ q.Hits Pattern.matches file false) ∧
        ∃ v, IsLast (Placed.Hits Pattern.matches file false)
          (stackPatterns (outer ++ [(base, above)])) v ∧ v.getD false ≠ p.ignores := by
  rcases placed_inserted h h' with ⟨hplaced, hplaced'⟩
  rcases exists_isLast (Placed.Hits Pattern.matches file false) (placed rules) with ⟨v, hv⟩
  rcases exists_isLast (Placed.Hits Pattern.matches file false) (placed rules') with ⟨v', hv'⟩
  rw [isIgnored_of_isLast hv, isIgnored_of_isLast hv']
  rw [hplaced] at hv
  rw [hplaced'] at hv'
  rcases hline : linePattern? line with _ | p
  · rw [hline] at hv'
    rw [hv'.unique hv]
    exact iff_of_false (fun hne => hne rfl) fun ⟨p, hp, _⟩ => Option.some_ne_none p hp.symm
  · rw [hline] at hv'
    rw [changed_iff hv hv', hits_iff_parent ((shape_of_line hline).2 hslash)]
    simp only [Option.some.injEq, exists_eq_left']

/-- A directory that is kept is included again after a pattern that ignores
    it. -/
theorem exists_later_hit {p : Pattern} {earlier later : List Placed} {dir : String}
    (hrules : placed rules = earlier ++ ⟨base, p⟩ :: later) (hignores : p.ignores = true)
    (hhits : Placed.Hits Pattern.matches dir true ⟨base, p⟩)
    (hkept : isIgnored rules dir true = false) :
    ∃ q ∈ later, q.pattern.ignores = false ∧ q.Hits Pattern.matches dir true := by
  rcases exists_isLast (Placed.Hits Pattern.matches dir true) later with ⟨w, hw⟩
  have hfirst : IsLast (Placed.Hits Pattern.matches dir true) (earlier ++ [⟨base, p⟩])
      (some p.ignores) := .hit hhits (fun _ hq => absurd hq List.not_mem_nil)
  have hlast := hfirst.append hw
  rw [List.append_assoc, List.singleton_append, ← hrules] at hlast
  rw [isIgnored_of_isLast hlast] at hkept
  cases hw with
  | @hit before after q hq _ => exact ⟨q, List.mem_append_right _ List.mem_cons_self, hkept, hq⟩
  | none _ => exact absurd (hignores.symm.trans hkept) (by decide)

/-- A line with a slash at its end changes the verdict about a file if and only
    if it matches a directory above the file, no later line matches the file, and
    the earlier ones have the other verdict about it. If the line ignores, and no
    set in a later one that includes again holds the slash, this does not happen
    to a file all of whose directories are kept. -/
theorem slash_line_decides (file : String) (hslash : (trimLine line).getLast? = some '/')
    (h : ReadAs (outer ++ (base, above ++ below) :: inner) rules)
    (h' : ReadAs (outer ++ (base, above ++ line :: below) :: inner) rules') :
    (isIgnored rules' file false ≠ isIgnored rules file false ↔
      ∃ p, linePattern? line = some p ∧
        (∃ dir, IsParent dir file ∧ Placed.Hits Pattern.matches dir true ⟨base, p⟩) ∧
        (∀ q ∈ stackPatterns ((base, below) :: inner), ¬ q.Hits Pattern.matches file false) ∧
        ∃ v, IsLast (Placed.Hits Pattern.matches file false)
          (stackPatterns (outer ++ [(base, above)])) v ∧ v.getD false ≠ p.ignores) ∧
    ((trimLine line).head? ≠ some '!' →
      (∀ q ∈ stackPatterns ((base, below) :: inner), q.pattern.ignores = false →
        q.pattern.SlashFree) →
      (∀ dir, IsParent dir file → isIgnored rules dir true = false ∧
        isIgnored rules' dir true = false) →
      isIgnored rules' file false = isIgnored rules file false) := by
  refine ⟨isIgnored_ne_iff hslash h h', fun hplain hsets hkept => ?_⟩
  by_contra hne
  rcases (isIgnored_ne_iff hslash h h').mp hne with ⟨p, hp, ⟨dir, hparent, hdir⟩, hlater, _⟩
  have hignores : p.ignores = true := by
    rcases exists_text hp with ⟨cs, _, ⟨hignores, _⟩ | ⟨_, htext⟩⟩
    · exact hignores
    · exact absurd (by rw [htext, List.head?_cons]) hplain
  have hplaced' := (placed_inserted h h').2
  rw [hp] at hplaced'
  -- what includes the directory again includes the file as well
  rcases exists_later_hit hplaced' hignores hdir (hkept dir hparent).2 with ⟨q, hq, hagain, hit⟩
  rcases line_of_mem_stackPatterns hq with ⟨line', hline'⟩
  exact hlater q hq (hits_below (shape_of_line hline').1 (hsets q hq hagain) hparent hit)

end Inserted

section Again

/-- The pattern in `*.sql.tmpl`. -/
def queryTemplates : Pattern :=
  ⟨true, [.leading, .run] ++ ".sql.tmpl".toList.map Step.char ++ [.close]⟩

/-- The pattern in `keep/`, or in `!keep/`. -/
def keepDirectory (ignores : Bool) : Pattern :=
  ⟨ignores, .leading :: "keep/".toList.map Step.char⟩

theorem readAs_again : ReadAs [("", ["*.sql.tmpl", "!keep/"])]
    [⟨"", [queryTemplates, keepDirectory false]⟩] :=
  .cons rfl .nil

/-- A directory that is ignored and included again is kept, and the line that
    ignores it changes nothing about what is in it. -/
theorem slash_line_decides_again :
    isIgnored [⟨"", [queryTemplates, keepDirectory true, keepDirectory false]⟩]
        "keep/a.sql.tmpl" false =
      isIgnored [⟨"", [queryTemplates, keepDirectory false]⟩] "keep/a.sql.tmpl" false := by
  refine (@slash_line_decides [] [] "" "keep/" ["*.sql.tmpl"] ["!keep/"] _ _ "keep/a.sql.tmpl"
    (by decide) readAs_again (.cons rfl .nil)).2 (by decide) ?_ ?_
  · intro q hq _ s hs
    have hq' : q = ⟨"", keepDirectory false⟩ := List.mem_singleton.mp hq
    rw [hq'] at hs
    exact absurd hs (by simp [keepDirectory])
  · intro dir hdir
    rw [@eq_of_isParent "keep" "a.sql.tmpl" dir (by decide) (by decide) hdir]
    decide

/-- A line with an exclamation mark that matches a directory includes the files
    in it again, although the directory was kept anyway. -/
theorem not_slash_line_harmless :
    ¬ ∀ (outer inner : List (String × List String)) (base line : String)
      (above below : List String) (rules rules' : List Rules) (file : String),
      (trimLine line).getLast? = some '/' →
      ReadAs (outer ++ (base, above ++ below) :: inner) rules →
      ReadAs (outer ++ (base, above ++ line :: below) :: inner) rules' →
      (∀ dir, IsParent dir file → isIgnored rules dir true = false ∧
        isIgnored rules' dir true = false) →
      isIgnored rules' file false = isIgnored rules file false := by
  intro h
  have hsame := h [] [] "" "!keep/" ["*.sql.tmpl"] [] [⟨"", [queryTemplates]⟩] _
    "keep/a.sql.tmpl" (by decide) (.cons rfl .nil) readAs_again (fun dir hdir => by
      rw [@eq_of_isParent "keep" "a.sql.tmpl" dir (by decide) (by decide) hdir]
      decide)
  exact absurd hsame (by decide)

end Again

end Ignore

end Stencil
