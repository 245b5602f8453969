import Mathlib.Data.List.Basic
import Stencil.Ignore.Pattern
import Stencil.Proofs.Text.Split
import Stencil.Proofs.Traverse

/-!
# What Patterns Match

Steps as words, and the two shapes of a compiled pattern.

Most steps take a word off the front of a path and do not look at what is
behind it, so a list of them takes a word as well. The three steps that do look
further stand at the end of a pattern or make up all of it. That leaves two
shapes. A pattern that ends in a slash matches below directories: it takes a
directory with the slash after it, and what follows is of no interest. Any
other pattern ends in a name: it takes the name and then sees the end of the
path or a slash.

Both shapes match what is below a directory that they match, with one
exception. A set in brackets may hold the slash, and then a name can be made to
end in the slash that is shown at the end of a directory, which is not there
for what is below it.

## Main definitions

* `Step.Takes`, `TakesAll`: A step, or a list of steps, takes a word.
* `Leaves`: The steps leave a rest of a path.
* `EndsInSlash`, `EndsInName`: The shapes of compiled patterns.
* `EndsName`: What may stand behind a name.
* `Pattern.SlashFree`: No set of the pattern holds the slash.

## Theorems

* `Step.mem_after_iff`: A step leaves what is behind a word that it takes.
* `matches_iff_leaves`: A pattern matches if its steps leave something.
* `leaves_iff_takesAll`: Steps leave what is behind a word that they take.
* `shape_of_compileSteps`: A compiled pattern has one of the two shapes.
* `matches_endsInSlash`, `matches_endsInName`: What the two shapes match.
* `matches_through`: A pattern that ends in a slash matches through a directory.
* `matches_below`: What is below a matched directory is matched.
-/

namespace Stencil

namespace Ignore

/-- The step takes the word off the front of a path, whatever is behind it. -/
inductive Step.Takes : Step → List Char → Prop
  | char (c : Char) : Takes (.char c) [c]
  | one {c : Char} (h : c ≠ '/') : Takes .one [c]
  | run {w : List Char} (h : '/' ∉ w) : Takes .run w
  | segment {c : Char} {w : List Char} (h : '/' ∉ c :: w) : Takes .segment (c :: w)
  | set {s : CharSet} {c : Char} (h : s.has c = true) : Takes (.set s) [c]
  | noLeading : Takes .leading []
  | leading {c : Char} {w : List Char} (h : ∀ d ∈ c :: w, isInline d = true) :
      Takes .leading (c :: w ++ ['/'])
  | noInner : Takes .inner []
  | inner {c : Char} {w : List Char} (h : ∀ d ∈ c :: w, isInline d = true) :
      Takes .inner ('/' :: c :: w)

/-- The step does not look at what is behind the word it takes. -/
def Step.isTaking : Step → Bool
  | .anySlash | .anything | .close => false
  | _ => true

/-- The steps take the word, one after the other. -/
inductive TakesAll : List Step → List Char → Prop
  | nil : TakesAll [] []
  | cons {t : Step} {ts : List Step} {w v : List Char} (h : t.Takes w) (hrest : TakesAll ts v) :
      TakesAll (t :: ts) (w ++ v)

/-- The steps leave a rest of a path. -/
inductive Leaves : List Step → List Char → List Char → Prop
  | nil (cs : List Char) : Leaves [] cs cs
  | cons {t : Step} {ts : List Step} {cs mid rest : List Char} (h : mid ∈ t.after cs)
      (hrest : Leaves ts mid rest) : Leaves (t :: ts) cs rest

/-- The step stands for a part of a name. -/
def Step.inName : Step → Bool
  | .char c => c != '/'
  | .one | .run | .segment | .set _ => true
  | _ => false

/-- The steps take a directory with the slash after it. -/
def EndsInSlash (steps : List Step) : Prop :=
  ∃ init, (∀ t ∈ init, t.isTaking = true) ∧ steps = init ++ [.char '/']

/-- The steps take a name and see what is behind it. -/
def EndsInName (steps : List Step) : Prop :=
  ∃ init name, (∀ t ∈ init, t.isTaking = true) ∧ name ≠ [] ∧ (∀ t ∈ name, t.inName = true) ∧
    steps = init ++ name ++ [.close]

/-- What may stand behind a name: the end, a slash, or a line feed and then the
    end. -/
def EndsName (rest : List Char) : Prop :=
  rest = [] ∨ (∃ more, rest = '/' :: more) ∨ rest = ['\n']

/-- No set of the pattern holds the slash. -/
def Pattern.SlashFree (p : Pattern) : Prop :=
  ∀ s, .set s ∈ p.steps → s.has '/' = false

section Steps

variable {t : Step} {ts us : List Step} {cs rest : List Char}

theorem mem_afterRun {ok : Char → Bool} {cs rest : List Char} :
    rest ∈ afterRun ok cs ↔ ∃ w, cs = w ++ rest ∧ ∀ c ∈ w, ok c = true := by
  induction cs with
  | nil =>
      rw [afterRun, List.mem_singleton]
      constructor
      · rintro rfl
        exact ⟨[], rfl, fun _ hc => absurd hc List.not_mem_nil⟩
      · rintro ⟨w, hw, _⟩
        exact (List.append_eq_nil_iff.mp hw.symm).2
  | cons c cs ih =>
      rw [afterRun, List.mem_cons]
      constructor
      · rintro (rfl | hmore)
        · exact ⟨[], rfl, fun _ hc => absurd hc List.not_mem_nil⟩
        · by_cases hc : ok c = true
          · rw [if_pos hc] at hmore
            rcases ih.mp hmore with ⟨w, rfl, hw⟩
            exact ⟨c :: w, rfl, List.forall_mem_cons.mpr ⟨hc, hw⟩⟩
          · rw [if_neg hc] at hmore
            exact absurd hmore List.not_mem_nil
      · rintro ⟨w, hw, hok⟩
        -- A run that is not empty goes on with the next character.
        rcases w with _ | ⟨d, w⟩
        · exact .inl hw.symm
        · rw [List.cons_append, List.cons.injEq] at hw
          rw [← hw.1, List.forall_mem_cons] at hok
          rw [if_pos hok.1]
          exact .inr (ih.mpr ⟨w, hw.2, hok.2⟩)

/-- A run of characters that are no slashes takes a word without slashes. -/
theorem mem_afterRun_slash {cs rest : List Char} :
    rest ∈ afterRun (· != '/') cs ↔ ∃ w, cs = w ++ rest ∧ '/' ∉ w := by
  rw [mem_afterRun]
  refine exists_congr fun w => and_congr_right fun _ => ?_
  constructor
  · exact fun h hslash => bne_iff_ne.mp (h '/' hslash) rfl
  · exact fun h c hc => bne_iff_ne.mpr fun heq => h (heq ▸ hc)

/-- A step that takes one character of a kind. -/
theorem mem_after_one (ok : Char → Bool) (hnil : t.after [] = [])
    (hcons : ∀ c cs, t.after (c :: cs) = if ok c then [cs] else []) :
    rest ∈ t.after cs ↔ ∃ c, cs = c :: rest ∧ ok c = true := by
  rcases cs with _ | ⟨d, cs⟩
  · rw [hnil]
    exact ⟨fun h => absurd h List.not_mem_nil,
      fun ⟨_, h, _⟩ => absurd h (List.cons_ne_nil _ _).symm⟩
  · rw [hcons]
    by_cases hd : ok d = true
    · rw [if_pos hd, List.mem_singleton]
      exact ⟨fun h => ⟨d, by rw [h], hd⟩, fun ⟨_, h, _⟩ => (List.cons.inj h).2.symm⟩
    · rw [if_neg hd]
      exact ⟨fun h => absurd h List.not_mem_nil,
        fun ⟨c, h, hc⟩ => absurd ((List.cons.inj h).1 ▸ hc) hd⟩

/-- The first step of a pattern that may start at every depth. -/
theorem mem_after_leading :
    rest ∈ Step.leading.after cs ↔ ∃ w, cs = w ++ rest ∧ Step.leading.Takes w := by
  constructor
  · intro h
    rcases cs with _ | ⟨c, cs⟩
    · rw [Step.after, List.mem_singleton] at h
      exact ⟨[], h.symm, .noLeading⟩
    · rw [Step.after, List.mem_cons] at h
      rcases h with rfl | h
      · exact ⟨[], rfl, .noLeading⟩
      · by_cases hc : isInline c = true
        · -- Of the ends of the run those count that have a slash behind them.
          rw [if_pos hc, List.mem_filterMap] at h
          rcases h with ⟨more, hmore, hslash⟩
          rcases mem_afterRun.mp hmore with ⟨w, rfl, hw⟩
          rcases more with _ | ⟨d, more⟩
          · exact absurd hslash (by simp)
          · by_cases hd : d = '/'
            · subst hd
              rw [if_pos (by rfl), Option.some.injEq] at hslash
              refine ⟨c :: w ++ ['/'], ?_, .leading (List.forall_mem_cons.mpr ⟨hc, hw⟩)⟩
              rw [← hslash, List.append_assoc]
              rfl
            · rw [if_neg (by simpa using hd)] at hslash
              exact absurd hslash (by simp)
        · rw [if_neg hc] at h
          exact absurd h List.not_mem_nil
  · rintro ⟨w, rfl, hw⟩
    cases hw with
    | noLeading =>
        rcases rest with _ | ⟨c, rest⟩
        · exact List.mem_singleton_self _
        · exact List.mem_cons_self
    | @leading c w hinline =>
        rw [List.forall_mem_cons] at hinline
        rw [List.cons_append, List.cons_append, Step.after, if_pos hinline.1]
        refine List.mem_cons_of_mem _ (List.mem_filterMap.mpr ⟨'/' :: rest, ?_, rfl⟩)
        exact mem_afterRun.mpr ⟨w, by rw [List.append_assoc, List.singleton_append], hinline.2⟩

theorem after_inner (cs : List Char) :
    Step.inner.after cs = [cs] ∨ ∃ c more, cs = '/' :: c :: more ∧
      Step.inner.after cs = cs :: if isInline c then afterRun isInline more else [] := by
  unfold Step.after
  split <;> simp_all

/-- The step for directories inside a pattern. -/
theorem mem_after_inner :
    rest ∈ Step.inner.after cs ↔ ∃ w, cs = w ++ rest ∧ Step.inner.Takes w := by
  constructor
  · intro h
    rcases after_inner cs with hcs | ⟨c, more, rfl, hcs⟩
    · rw [hcs, List.mem_singleton] at h
      exact ⟨[], h.symm, .noInner⟩
    · rw [hcs, List.mem_cons] at h
      rcases h with rfl | h
      · exact ⟨[], rfl, .noInner⟩
      · by_cases hc : isInline c = true
        · rw [if_pos hc] at h
          rcases mem_afterRun.mp h with ⟨w, rfl, hw⟩
          exact ⟨'/' :: c :: w, rfl, .inner (List.forall_mem_cons.mpr ⟨hc, hw⟩)⟩
        · rw [if_neg hc] at h
          exact absurd h List.not_mem_nil
  · rintro ⟨w, rfl, hw⟩
    cases hw with
    | noInner =>
        rcases after_inner rest with hcs | ⟨c, more, rfl, hcs⟩
        · exact hcs ▸ List.mem_singleton_self _
        · exact hcs ▸ List.mem_cons_self
    | @inner c w hinline =>
        rw [List.forall_mem_cons] at hinline
        rw [List.cons_append, List.cons_append, Step.after, if_pos hinline.1]
        exact List.mem_cons_of_mem _ (mem_afterRun.mpr ⟨w, rfl, hinline.2⟩)

/-- A step leaves what is behind a word that it takes. -/
theorem Step.mem_after_iff (h : t.isTaking = true) :
    rest ∈ t.after cs ↔ ∃ w, cs = w ++ rest ∧ t.Takes w := by
  cases t with
  | char d =>
      rw [mem_after_one (· == d) rfl (fun _ _ => rfl)]
      constructor
      · rintro ⟨c, rfl, hc⟩
        exact ⟨[c], rfl, eq_of_beq hc ▸ .char c⟩
      · rintro ⟨_, rfl, hw⟩
        cases hw
        exact ⟨d, rfl, beq_self_eq_true d⟩
  | one =>
      rw [mem_after_one (· != '/') rfl (fun _ _ => rfl)]
      constructor
      · rintro ⟨c, rfl, hc⟩
        exact ⟨[c], rfl, .one (bne_iff_ne.mp hc)⟩
      · rintro ⟨_, rfl, hw⟩
        cases hw with
        | one hc => exact ⟨_, rfl, bne_iff_ne.mpr hc⟩
  | run =>
      rw [Step.after, mem_afterRun_slash]
      refine exists_congr fun w => and_congr_right fun _ => ⟨.run, fun hw => ?_⟩
      cases hw with
      | run hslash => exact hslash
  | segment =>
      constructor
      · intro hmem
        rcases cs with _ | ⟨c, cs⟩
        · exact absurd hmem List.not_mem_nil
        · rw [Step.after] at hmem
          by_cases hc : (c != '/') = true
          · rw [if_pos hc, mem_afterRun_slash] at hmem
            rcases hmem with ⟨w, rfl, hw⟩
            exact ⟨c :: w, rfl, .segment
              (List.not_mem_cons_of_ne_of_not_mem (bne_iff_ne.mp hc).symm hw)⟩
          · rw [if_neg hc] at hmem
            exact absurd hmem List.not_mem_nil
      · rintro ⟨_, rfl, hw⟩
        cases hw with
        | segment hslash =>
            rw [List.mem_cons, not_or] at hslash
            rw [List.cons_append, Step.after, if_pos (bne_iff_ne.mpr (Ne.symm hslash.1)),
              mem_afterRun_slash]
            exact ⟨_, rfl, hslash.2⟩
  | set s =>
      rw [mem_after_one s.has rfl (fun _ _ => rfl)]
      constructor
      · rintro ⟨c, rfl, hc⟩
        exact ⟨[c], rfl, .set hc⟩
      · rintro ⟨_, rfl, hw⟩
        cases hw with
        | set hc => exact ⟨_, rfl, hc⟩
  | leading => exact mem_after_leading
  | inner => exact mem_after_inner
  | anySlash => exact absurd h Bool.false_ne_true
  | anything => exact absurd h Bool.false_ne_true
  | close => exact absurd h Bool.false_ne_true

theorem leaves_append :
    Leaves (ts ++ us) cs rest ↔ ∃ mid, Leaves ts cs mid ∧ Leaves us mid rest := by
  induction ts generalizing cs with
  | nil =>
      constructor
      · exact fun h => ⟨cs, .nil cs, h⟩
      · rintro ⟨mid, ⟨_⟩, h⟩
        exact h
  | cons t ts ih =>
      constructor
      · rintro (_ | ⟨hstep, hrest⟩)
        rcases ih.mp hrest with ⟨mid, hmid, hlast⟩
        exact ⟨mid, .cons hstep hmid, hlast⟩
      · rintro ⟨mid, _ | ⟨hstep, hmid⟩, hlast⟩
        exact .cons hstep (ih.mpr ⟨mid, hmid, hlast⟩)

/-- Steps leave what is behind a word that they take. -/
theorem leaves_iff_takesAll (h : ∀ t ∈ ts, t.isTaking = true) :
    Leaves ts cs rest ↔ ∃ w, cs = w ++ rest ∧ TakesAll ts w := by
  induction ts generalizing cs with
  | nil =>
      constructor
      · rintro ⟨_⟩
        exact ⟨[], rfl, .nil⟩
      · rintro ⟨_, rfl, ⟨_⟩⟩
        exact .nil _
  | cons t ts ih =>
      rw [List.forall_mem_cons] at h
      constructor
      · rintro (_ | ⟨hstep, hrest⟩)
        rcases (Step.mem_after_iff h.1).mp hstep with ⟨w, rfl, hw⟩
        rcases (ih h.2).mp hrest with ⟨v, rfl, hv⟩
        exact ⟨w ++ v, (List.append_assoc w v rest).symm, .cons hw hv⟩
      · rintro ⟨_, rfl, hw⟩
        cases hw with
        | cons hw hv =>
            rw [List.append_assoc]
            exact .cons ((Step.mem_after_iff h.1).mpr ⟨_, rfl, hw⟩) ((ih h.2).mpr ⟨_, rfl, hv⟩)

/-- A pattern matches if its steps leave something. -/
theorem matches_iff_leaves {p : Pattern} :
    p.matches cs = true ↔ ∃ rest, Leaves p.steps cs rest := by
  -- the fold holds what the steps so far leave of the rests it started with
  have hfold : ∀ (ts : List Step) (starts : List (List Char)) (rest : List Char),
      rest ∈ ts.foldl (fun rests t => (rests.flatMap t.after).eraseDups) starts ↔
        ∃ cs ∈ starts, Leaves ts cs rest := by
    intro ts
    induction ts with
    | nil =>
        intro starts rest
        constructor
        · exact fun h => ⟨rest, h, .nil rest⟩
        · rintro ⟨cs, hcs, ⟨_⟩⟩
          exact hcs
    | cons t ts ih =>
        intro starts rest
        rw [List.foldl_cons, ih]
        constructor
        · rintro ⟨mid, hmid, hrest⟩
          rw [List.mem_eraseDups, List.mem_flatMap] at hmid
          rcases hmid with ⟨cs, hcs, hstep⟩
          exact ⟨cs, hcs, .cons hstep hrest⟩
        · rintro ⟨cs, hcs, _ | ⟨hstep, hrest⟩⟩
          exact ⟨_, List.mem_eraseDups.mpr (List.mem_flatMap.mpr ⟨cs, hcs, hstep⟩), hrest⟩
  rw [Pattern.matches, Bool.not_eq_true', List.isEmpty_eq_false_iff_exists_mem]
  refine exists_congr fun rest => ?_
  rw [hfold]
  exact ⟨fun ⟨_, hcs, h⟩ => List.mem_singleton.mp hcs ▸ h,
    fun h => ⟨cs, List.mem_singleton_self cs, h⟩⟩

end Steps

section Shape

theorem EndsInSlash.append {pre steps : List Step} (hpre : ∀ t ∈ pre, t.isTaking = true)
    (h : EndsInSlash steps) : EndsInSlash (pre ++ steps) := by
  rcases h with ⟨init, hinit, rfl⟩
  exact ⟨pre ++ init, List.forall_mem_append.mpr ⟨hpre, hinit⟩, (List.append_assoc _ _ _).symm⟩

theorem EndsInName.append {pre steps : List Step} (hpre : ∀ t ∈ pre, t.isTaking = true)
    (h : EndsInName steps) : EndsInName (pre ++ steps) := by
  rcases h with ⟨init, name, hinit, hne, hname, rfl⟩
  exact ⟨pre ++ init, name, List.forall_mem_append.mpr ⟨hpre, hinit⟩, hne, hname, by
    simp only [List.append_assoc]⟩

theorem Step.isTaking_of_inName {t : Step} (h : t.inName = true) : t.isTaking = true := by
  cases t <;> first | rfl | exact absurd h Bool.false_ne_true

/-- A step in front of others that stand for parts of a name. -/
theorem inName_of_cons {t : Step} {rest : Except Invalid (List Step)} {steps : List Step}
    (ht : t.inName = true) (hrest : ∀ {more}, rest = .ok more → ∀ u ∈ more, u.inName = true)
    (h : (t :: ·) <$> rest = .ok steps) : ∀ u ∈ steps, u.inName = true := by
  rcases map_eq_ok_iff.mp h with ⟨more, hmore, rfl⟩
  exact List.forall_mem_cons.mpr ⟨ht, hrest hmore⟩

/-- The steps of a segment stand for parts of a name. -/
theorem inName_of_segmentSteps {skip : Nat} {cs : List Char} {steps : List Step}
    (h : segmentSteps skip cs = .ok steps) (hslash : '/' ∉ cs) :
    ∀ t ∈ steps, t.inName = true := by
  have hchar : ∀ c : Char, c ≠ '/' → (Step.char c).inName = true := fun c hc => bne_iff_ne.mpr hc
  -- The cases are what a segment may go on with: an escape, a star, a mark, a set, a character.
  fun_induction segmentSteps skip cs generalizing steps with
  | case1 skip =>
      cases h
      exact fun _ ht => absurd ht List.not_mem_nil
  | case2 c cs k ih => exact ih h (mt (List.mem_cons_of_mem c) hslash)
  | case3 => cases h
  | case4 d cs ih =>
      rw [List.mem_cons, not_or] at hslash
      refine inName_of_cons (hchar d fun heq => ?_) (fun hmore => ih hmore hslash.2) h
      exact hslash.2 (heq ▸ List.mem_cons_self)
  | case5 cs ih =>
      exact inName_of_cons rfl (fun hmore => ih hmore (mt (List.mem_cons_of_mem _) hslash)) h
  | case6 cs ih =>
      exact inName_of_cons rfl (fun hmore => ih hmore (mt (List.mem_cons_of_mem _) hslash)) h
  | case7 cs hopen =>
      rw [hopen] at h
      cases h
  | case8 cs n hset ih =>
      rw [hset] at h
      exact inName_of_cons rfl (fun hmore => ih hmore (mt (List.mem_cons_of_mem _) hslash)) h
  | case9 cs c _ _ _ _ _ ih =>
      rw [List.mem_cons, not_or] at hslash
      exact inName_of_cons (hchar c (Ne.symm hslash.1)) (fun hmore => ih hmore hslash.2) h

/-- A segment that is not empty has a step. -/
theorem segmentSteps_ne_nil {cs : List Char} {steps : List Step} (h : segmentSteps 0 cs = .ok steps)
    (hne : cs ≠ []) : steps ≠ [] := by
  rintro rfl
  have hcons : ∀ {t : Step} {rest : Except Invalid (List Step)}, ¬ (t :: ·) <$> rest = .ok [] := by
    intro t rest h
    rcases map_eq_ok_iff.mp h with ⟨more, _, hmore⟩
    exact absurd hmore (List.cons_ne_nil _ _)
  rcases cs with _ | ⟨c, cs⟩
  · exact hne rfl
  · unfold segmentSteps at h
    dsimp only at h
    split at h
    · cases h
    · exact hcons h
    · exact hcons h
    · exact hcons h
    · split at h
      · cases h
      · exact hcons h
    · exact hcons h

/-- The steps of a segment that is no double star, and of those after it. -/
theorem laterSteps_name {slash : Bool} {s : String} {rest : List String} {steps : List Step}
    (h : laterSteps slash (s :: rest) = .ok steps) (hstars : s ≠ "**") (hslash : '/' ∉ s.toList) :
    ∃ name later, (∀ t ∈ name, t.inName = true) ∧ (s ≠ "" → name ≠ []) ∧
      laterSteps true rest = .ok later ∧
      steps = (if slash then [Step.char '/'] else []) ++ name ++
        (if rest.isEmpty then [Step.close] else []) ++ later := by
  rw [laterSteps.eq_4 _ _ _ (fun heq _ => hstars heq) hstars] at h
  by_cases hstar : (s == "*") = true
  · rw [if_pos hstar] at h
    rcases map_eq_ok_iff.mp h with ⟨later, hlater, rfl⟩
    exact ⟨[.segment], later, List.forall_mem_singleton.mpr rfl, fun _ => List.cons_ne_nil _ _,
      hlater, rfl⟩
  · rw [if_neg hstar] at h
    rcases hname : segmentSteps 0 s.toList with why | name
    · rw [hname] at h
      cases h
    · rw [hname] at h
      rcases map_eq_ok_iff.mp h with ⟨later, hlater, rfl⟩
      exact ⟨name, later, inName_of_segmentSteps hname hslash,
        fun hne => segmentSteps_ne_nil hname (mt String.toList_eq_nil_iff.mp hne), hlater, rfl⟩

/-- Segments whose last one is a double star end in a slash, and all others in a
    name. -/
theorem shape_of_laterSteps {segs : List String} (hslash : ∀ s ∈ segs, '/' ∉ s.toList)
    (hne : segs ≠ []) (hlast : segs.getLast? ≠ some "") {slash : Bool} {steps : List Step}
    (h : laterSteps slash segs = .ok steps) :
    (segs.getLast? = some "**" → EndsInSlash steps) ∧
      (segs.getLast? ≠ some "**" → EndsInName steps) := by
  induction segs generalizing slash steps with
  | nil => exact absurd rfl hne
  | cons s rest ih =>
      rw [List.forall_mem_cons] at hslash
      by_cases hstars : s = "**"
      · subst hstars
        rcases rest with _ | ⟨next, rest⟩
        · -- A double star at the end is a slash and nothing behind it.
          rw [laterSteps.eq_2, Except.ok.injEq] at h
          subst h
          exact ⟨fun _ => ⟨[], fun _ ht => absurd ht List.not_mem_nil, rfl⟩,
            fun hnot => absurd rfl hnot⟩
        · rw [laterSteps.eq_3 _ _ (List.cons_ne_nil next rest)] at h
          rcases map_eq_ok_iff.mp h with ⟨later, hlater, rfl⟩
          have hinner : ∀ t ∈ [Step.inner], t.isTaking = true := List.forall_mem_singleton.mpr rfl
          rw [List.getLast?_cons_cons] at hlast ⊢
          rcases ih hslash.2 (List.cons_ne_nil _ _) hlast hlater with ⟨hends, hname⟩
          exact ⟨fun hl => (hends hl).append hinner, fun hl => (hname hl).append hinner⟩
      · rcases laterSteps_name h hstars hslash.1 with ⟨name, later, hname, hne', hlater, rfl⟩
        have hlead : ∀ t ∈ (if slash then [Step.char '/'] else []), t.isTaking = true := by
          cases slash with
          | true => exact List.forall_mem_singleton.mpr rfl
          | false => exact fun _ ht => absurd ht List.not_mem_nil
        rcases rest with _ | ⟨next, rest⟩
        · -- Any other segment at the end is a name.
          cases hlater
          have hs : s ≠ "" := fun heq => hlast (heq ▸ rfl)
          refine ⟨fun hl => absurd (Option.some.inj hl) hstars, fun _ => ?_⟩
          exact ⟨_, name, hlead, hne' hs, hname, List.append_nil _⟩
        · rw [List.getLast?_cons_cons] at hlast ⊢
          have hpre := List.forall_mem_append.mpr
            ⟨hlead, fun t ht => Step.isTaking_of_inName (hname t ht)⟩
          rcases ih hslash.2 (List.cons_ne_nil _ _) hlast hlater with ⟨hends, hends'⟩
          rw [List.isEmpty_cons, if_neg Bool.false_ne_true, List.append_nil]
          exact ⟨fun hl => (hends hl).append hpre, fun hl => (hends' hl).append hpre⟩

theorem mem_of_mem_collapseStars {segs : List String} {s : String} (h : s ∈ collapseStars segs) :
    s ∈ segs := by
  fun_induction collapseStars segs with
  | case1 rest ih => exact List.mem_cons_of_mem _ (ih h)
  | case2 first rest _ ih =>
      rcases List.mem_cons.mp h with rfl | hrest
      · exact List.mem_cons_self
      · exact List.mem_cons_of_mem _ (ih hrest)
  | case3 => exact absurd h List.not_mem_nil

theorem getLast?_collapseStars (segs : List String) :
    (collapseStars segs).getLast? = segs.getLast? := by
  fun_induction collapseStars segs with
  | case1 rest ih => rw [ih, List.getLast?_cons_cons]
  | case2 first rest hnot ih =>
      rw [List.getLast?_cons, List.getLast?_cons, ih]
  | case3 => rfl

/-- Where a pattern is anchored is said by its first segments, and a final slash
    is left at its end. -/
theorem exists_anchored (segs : List String) :
    ∃ anchored, normalSegments segs = collapseStars
        (if anchored.getLast? == some "" then anchored.dropLast ++ ["**"] else anchored) ∧
      (∀ s ∈ anchored, s ∈ segs ∨ s = "**") ∧
      (1 < segs.length → segs.getLast? = some "" → anchored.getLast? = some "") := by
  refine ⟨_, rfl, ?_, ?_⟩
  · intro s hs
    split at hs
    · exact .inl (List.mem_cons_of_mem _ hs)
    · split at hs
      · exact .inl hs
      · rw [List.mem_cons] at hs
        exact hs.symm
    · split at hs
      · exact .inl hs
      · rw [List.mem_cons] at hs
        exact hs.symm
    · exact .inl hs
  · intro hlen hlast
    split
    · next rest =>
        rcases rest with _ | ⟨next, rest⟩
        · exact absurd hlen (Nat.lt_irrefl 1)
        · rwa [List.getLast?_cons_cons] at hlast
    · exact absurd hlen (Nat.lt_irrefl 1)
    · split <;> rfl
    · exact hlast

theorem mem_normalSegments {segs : List String} {s : String} (h : s ∈ normalSegments segs) :
    s ∈ segs ∨ s = "**" := by
  rcases exists_anchored segs with ⟨anchored, hnormal, hmem, _⟩
  rw [hnormal] at h
  have hs := mem_of_mem_collapseStars h
  by_cases hlast : (anchored.getLast? == some "") = true
  · rw [if_pos hlast, List.mem_append, List.mem_singleton] at hs
    exact hs.elim (fun hs => hmem s (List.dropLast_subset _ hs)) .inr
  · rw [if_neg hlast] at hs
    exact hmem s hs

/-- No empty segment is left at the end. -/
theorem getLast?_normalSegments (segs : List String) :
    (normalSegments segs).getLast? ≠ some "" ∧
      (1 < segs.length → segs.getLast? = some "" →
        (normalSegments segs).getLast? = some "**") := by
  rcases exists_anchored segs with ⟨anchored, hnormal, _, hanchored⟩
  rw [hnormal, getLast?_collapseStars]
  by_cases hlast : (anchored.getLast? == some "") = true
  · rw [if_pos hlast, List.getLast?_concat]
    exact ⟨by decide, fun _ _ => rfl⟩
  · rw [if_neg hlast]
    exact ⟨mt beq_iff_eq.mpr hlast,
      fun hlen hl => absurd (beq_iff_eq.mpr (hanchored hlen hl)) hlast⟩

theorem shape_of_normal {normal : List String} (hslash : ∀ s ∈ normal, '/' ∉ s.toList)
    (hne : normal ≠ []) (hstars : normal ≠ ["**"]) (hlast : normal.getLast? ≠ some "")
    {steps : List Step} (h : stepsOf normal = .ok steps) :
    (normal.getLast? = some "**" → EndsInSlash steps) ∧
      (normal.getLast? ≠ some "**" → EndsInName steps) := by
  unfold stepsOf at h
  split at h
  · next rest =>
      rcases rest with _ | ⟨next, rest⟩
      · exact absurd rfl hstars
      · rcases map_eq_ok_iff.mp h with ⟨later, hlater, rfl⟩
        have hleading : ∀ t ∈ [Step.leading], t.isTaking = true := List.forall_mem_singleton.mpr rfl
        rw [List.getLast?_cons_cons] at hlast ⊢
        rcases shape_of_laterSteps (List.forall_mem_cons.mp hslash).2 (List.cons_ne_nil _ _) hlast
          hlater with ⟨hends, hname⟩
        exact ⟨fun hl => (hends hl).append hleading, fun hl => (hname hl).append hleading⟩
  · exact shape_of_laterSteps hslash hne hlast h

/-- A text that ends in a slash splits into something and an empty piece. -/
theorem splitOnChar_slash {cs : List Char} (h : cs.getLast? = some '/') :
    1 < (Text.splitOnChar '/' (String.ofList cs)).length ∧
      (Text.splitOnChar '/' (String.ofList cs)).getLast? = some "" := by
  rcases List.getLast?_eq_some_iff.mp h with ⟨init, rfl⟩
  have hsplit := Text.splitOnChar_join '/' (String.ofList init) ""
  rw [String.append_empty, ← String.ofList_append] at hsplit
  have hempty : Text.splitOnChar '/' "" = [""] := rfl
  rcases Text.exists_splitChars_eq '/' init with ⟨first, more, hfirst⟩
  rw [hsplit, hempty, Text.splitOnChar, String.toList_ofList, hfirst, List.getLast?_concat]
  refine ⟨?_, rfl⟩
  rw [List.length_append, List.map_cons, List.length_cons, List.length_singleton]
  omega

/-- A compiled pattern has one of two shapes, unless it matches everything, and
    it ends in a slash if its text does. -/
theorem shape_of_compileSteps {cs : List Char} {steps : List Step}
    (h : compileSteps cs = .ok steps) :
    ((steps = [.anySlash] ∨ EndsInSlash steps) ∨ steps = [.anything] ∨ EndsInName steps) ∧
      (cs.getLast? = some '/' → steps = [.anySlash] ∨ EndsInSlash steps) := by
  have hslash : ∀ s ∈ normalSegments (Text.splitOnChar '/' (String.ofList cs)),
      '/' ∉ s.toList := by
    intro s hs
    rcases mem_normalSegments hs with hs | rfl
    · exact Text.notMem_of_mem_splitOnChar hs
    · decide
  have hends := @splitOnChar_slash cs
  unfold compileSteps at h
  dsimp only at h
  generalize Text.splitOnChar '/' (String.ofList cs) = segs at h hslash hends
  rcases getLast?_normalSegments segs with ⟨hlast, hstars⟩
  split at h
  · cases h
  · -- the text is a double star, with or without a slash behind it
    by_cases hempty : (segs.getLast? == some "") = true
    · rw [if_pos hempty] at h
      cases h
      exact ⟨.inl (.inl rfl), fun _ => .inl rfl⟩
    · rw [if_neg hempty] at h
      cases h
      exact ⟨.inr (.inl rfl), fun hl => absurd (beq_iff_eq.mpr (hends hl).2) hempty⟩
  · next normal hne hne' =>
      rcases hsteps : stepsOf (normalSegments segs) with why | found
      · rw [hsteps] at h
        cases h
      · rw [hsteps] at h
        have hfound : found = steps := by
          change (if found.any Step.isReversed then _ else _) = _ at h
          by_cases hrev : found.any Step.isReversed = true
          · rw [if_pos hrev] at h
            cases h
          · rw [if_neg hrev] at h
            exact Except.ok.inj h
        subst hfound
        rcases shape_of_normal hslash hne hne' hlast hsteps with ⟨hbelow, hname⟩
        refine ⟨?_, fun hl => .inr (hbelow (hstars (hends hl).1 (hends hl).2))⟩
        by_cases hl : (normalSegments segs).getLast? = some "**"
        · exact .inl (.inr (hbelow hl))
        · exact .inr (.inr (hname hl))

end Shape

section Matches

variable {p : Pattern} {cs dir : List Char}

theorem matches_anySlash (h : p.steps = [.anySlash]) : p.matches cs = true ↔ '/' ∈ cs := by
  rw [matches_iff_leaves, h, ← List.contains_iff_mem]
  constructor
  · rintro ⟨rest, _ | ⟨hstep, _⟩⟩
    by_contra hnot
    rw [Step.after, if_neg hnot] at hstep
    exact List.not_mem_nil hstep
  · intro hslash
    refine ⟨[], .cons ?_ (.nil [])⟩
    rw [Step.after, if_pos hslash]
    exact List.mem_singleton_self _

theorem matches_anything (h : p.steps = [.anything]) (hslash : '/' ∈ cs) :
    p.matches cs = true := by
  have hinline : cs.any isInline = true := List.any_eq_true.mpr ⟨'/', hslash, rfl⟩
  refine matches_iff_leaves.mpr ⟨[], ?_⟩
  rw [h]
  refine .cons ?_ (.nil [])
  rw [Step.after, if_pos hinline]
  exact List.mem_singleton_self _

theorem leaves_slash {rest : List Char} : Leaves [.char '/'] cs rest ↔ cs = '/' :: rest := by
  constructor
  · rintro (_ | ⟨hstep, ⟨_⟩⟩)
    rcases (Step.mem_after_iff rfl).mp hstep with ⟨w, rfl, hw⟩
    cases hw
    rfl
  · rintro rfl
    exact .cons ((Step.mem_after_iff rfl).mpr ⟨['/'], rfl, .char '/'⟩) (.nil rest)

/-- What a pattern that ends in a slash matches. -/
theorem matches_endsInSlash {init : List Step} (hinit : ∀ t ∈ init, t.isTaking = true)
    (hsteps : p.steps = init ++ [.char '/']) :
    p.matches cs = true ↔ ∃ w rest, cs = w ++ '/' :: rest ∧ TakesAll init w := by
  rw [matches_iff_leaves, hsteps]
  constructor
  · rintro ⟨rest, h⟩
    rcases leaves_append.mp h with ⟨mid, hmid, hlast⟩
    rcases (leaves_iff_takesAll hinit).mp hmid with ⟨w, rfl, hw⟩
    exact ⟨w, rest, by rw [leaves_slash.mp hlast], hw⟩
  · rintro ⟨w, rest, rfl, hw⟩
    exact ⟨rest, leaves_append.mpr
      ⟨'/' :: rest, (leaves_iff_takesAll hinit).mpr ⟨w, rfl, hw⟩, leaves_slash.mpr rfl⟩⟩

/-- A pattern that ends in a slash matches through a directory above. -/
theorem matches_through (h : p.steps = [.anySlash] ∨ EndsInSlash p.steps) :
    p.matches cs = true ↔
      ∃ dir post, cs = dir ++ '/' :: post ∧ p.matches (dir ++ ['/']) = true := by
  rcases h with hany | ⟨init, hinit, hsteps⟩
  · simp only [matches_anySlash hany]
    constructor
    · intro hslash
      rcases List.append_of_mem hslash with ⟨dir, post, rfl⟩
      exact ⟨dir, post, rfl, List.mem_append_right dir List.mem_cons_self⟩
    · rintro ⟨dir, post, rfl, _⟩
      exact List.mem_append_right dir List.mem_cons_self
  · simp only [matches_endsInSlash hinit hsteps]
    constructor
    · rintro ⟨w, rest, rfl, hw⟩
      exact ⟨w, rest, rfl, w, [], rfl, hw⟩
    · rintro ⟨dir, post, rfl, w, rest, hdir, hw⟩
      refine ⟨w, rest ++ post, ?_, hw⟩
      rw [← List.singleton_append, ← List.append_assoc, hdir, List.append_assoc, List.cons_append]

/-- Without the slash in its sets, no part of a name takes a slash. -/
theorem TakesAll.slash_notMem {ts : List Step} {w : List Char} (h : TakesAll ts w)
    (hname : ∀ t ∈ ts, t.inName = true) (hsets : ∀ s, .set s ∈ ts → s.has '/' = false) :
    '/' ∉ w := by
  induction h with
  | nil => exact List.not_mem_nil
  | @cons t ts w v htake _ ih =>
      rw [List.forall_mem_cons] at hname
      rw [List.mem_append, not_or]
      refine ⟨?_, ih hname.2 fun s hs => hsets s (List.mem_cons_of_mem t hs)⟩
      have ht := hname.1
      cases htake with
      | char c => exact fun hslash => bne_iff_ne.mp ht (List.mem_singleton.mp hslash).symm
      | one hc => exact fun hslash => hc (List.mem_singleton.mp hslash).symm
      | run hw => exact hw
      | segment hw => exact hw
      | @set s c hc =>
          intro hslash
          rw [← List.mem_singleton.mp hslash, hsets s List.mem_cons_self] at hc
          exact Bool.false_ne_true hc
      | noLeading | leading | noInner | inner => exact absurd ht Bool.false_ne_true

/-- A name that may be empty may be any name. -/
theorem TakesAll.of_nil {ts : List Step} (h : TakesAll ts []) (hne : ts ≠ [])
    (hname : ∀ t ∈ ts, t.inName = true) {w : List Char} (hw : '/' ∉ w) : TakesAll ts w := by
  generalize hempty : ([] : List Char) = empty at h
  cases h with
  | nil => exact absurd rfl hne
  | @cons t ts u v htake hrest =>
      rcases List.append_eq_nil_iff.mp hempty.symm with ⟨rfl, rfl⟩
      have ht := (List.forall_mem_cons.mp hname).1
      -- of the parts of a name only a run may be empty
      cases htake with
      | run => exact List.append_nil w ▸ .cons (.run hw) hrest
      | noLeading | noInner => exact absurd ht Bool.false_ne_true

theorem exists_leaves_close : (∃ rest, Leaves [.close] cs rest) ↔ EndsName cs := by
  have hstep : (∃ rest, Leaves [.close] cs rest) ↔ ∃ rest, rest ∈ Step.close.after cs := by
    refine exists_congr fun rest => ⟨?_, fun h => .cons h (.nil rest)⟩
    rintro (_ | ⟨h, ⟨_⟩⟩)
    exact h
  rw [hstep]
  rcases cs with _ | ⟨c, cs⟩
  · exact ⟨fun _ => .inl rfl, fun _ => ⟨[], List.mem_singleton_self []⟩⟩
  · simp only [Step.after, EndsName, Bool.or_eq_true, Bool.and_eq_true, beq_iff_eq,
      List.isEmpty_iff, reduceCtorEq, List.cons.injEq, exists_and_left, exists_eq', and_true,
      false_or]
    by_cases hc : c = '/' ∨ c = '\n' ∧ cs = []
    · rw [if_pos hc]
      exact ⟨fun _ => hc, fun _ => ⟨cs, List.mem_singleton_self cs⟩⟩
    · rw [if_neg hc]
      exact ⟨fun ⟨_, h⟩ => absurd h List.not_mem_nil, fun h => absurd h hc⟩

/-- What a pattern that ends in a name matches. -/
theorem matches_endsInName {init name : List Step} (hinit : ∀ t ∈ init, t.isTaking = true)
    (hname : ∀ t ∈ name, t.inName = true) (hsteps : p.steps = init ++ name ++ [.close]) :
    p.matches cs = true ↔ ∃ v w rest, cs = v ++ (w ++ rest) ∧ TakesAll init v ∧
      TakesAll name w ∧ EndsName rest := by
  have htaking : ∀ t ∈ name, t.isTaking = true := fun t ht => Step.isTaking_of_inName (hname t ht)
  rw [matches_iff_leaves, hsteps]
  constructor
  · rintro ⟨last, hlast⟩
    rcases leaves_append.mp hlast with ⟨rest, hfront, hclose⟩
    rcases leaves_append.mp hfront with ⟨mid, hmid, hrest⟩
    rcases (leaves_iff_takesAll hinit).mp hmid with ⟨v, rfl, hv⟩
    rcases (leaves_iff_takesAll htaking).mp hrest with ⟨w, rfl, hw⟩
    exact ⟨v, w, rest, rfl, hv, hw, exists_leaves_close.mp ⟨last, hclose⟩⟩
  · rintro ⟨v, w, rest, rfl, hv, hw, hrest⟩
    rcases exists_leaves_close.mpr hrest with ⟨last, hlast⟩
    exact ⟨last, leaves_append.mpr ⟨rest, leaves_append.mpr ⟨w ++ rest,
      (leaves_iff_takesAll hinit).mpr ⟨v, rfl, hv⟩,
      (leaves_iff_takesAll htaking).mpr ⟨w, rfl, hw⟩⟩, hlast⟩⟩

/-- Every path starts with a name, which may be empty. -/
theorem exists_name (cs : List Char) : ∃ w rest, cs = w ++ rest ∧ '/' ∉ w ∧ EndsName rest := by
  by_cases hmem : '/' ∈ cs
  · rcases List.eq_append_cons_of_mem hmem with ⟨w, more, rfl, hw⟩
    exact ⟨w, '/' :: more, rfl, hw, .inr (.inl ⟨more, rfl⟩)⟩
  · exact ⟨cs, [], (List.append_nil cs).symm, hmem, .inl rfl⟩

/-- What is below a matched directory is matched. -/
theorem matches_below
    (hshape : (p.steps = [.anySlash] ∨ EndsInSlash p.steps) ∨
      p.steps = [.anything] ∨ EndsInName p.steps) (hsets : p.SlashFree)
    (h : p.matches (dir ++ ['/']) = true) (post : List Char) :
    p.matches (dir ++ '/' :: post) = true := by
  have hpath : dir ++ '/' :: post = dir ++ ['/'] ++ post := by
    rw [List.append_assoc, List.singleton_append]
  rcases hshape with hslash | hany | ⟨init, name, hinit, hne, hname, hsteps⟩
  · rcases (matches_through hslash).mp h with ⟨d, more, hd, hmatch⟩
    refine (matches_through hslash).mpr ⟨d, more ++ post, ?_, hmatch⟩
    rw [hpath, hd, List.append_assoc, List.cons_append]
  · exact matches_anything hany (List.mem_append_right dir List.mem_cons_self)
  · have hnoSlash : ∀ {w : List Char}, TakesAll name w → '/' ∉ w := by
      refine fun hw => hw.slash_notMem hname fun s hs => hsets s ?_
      rw [hsteps]
      exact List.mem_append_left _ (List.mem_append_right init hs)
    have hmatches := @matches_endsInName p (dir ++ '/' :: post) init name hinit hname hsteps
    rw [hpath] at hmatches ⊢
    rcases (matches_endsInName hinit hname hsteps).mp h with ⟨v, w, rest, hdir, hv, hw, hrest⟩
    rw [hdir] at hmatches ⊢
    -- the final slash is taken before the name, or stands behind it
    rcases hrest with rfl | ⟨more, rfl⟩ | rfl
    · rcases List.eq_nil_or_concat w with rfl | ⟨w', c, rfl⟩
      · rcases exists_name post with ⟨next, rest, rfl, hnext, hrest⟩
        exact hmatches.mpr ⟨v, next, rest, by rw [List.nil_append, List.append_nil], hv,
          hw.of_nil hne hname hnext, hrest⟩
      · rw [List.append_nil, List.concat_eq_append, ← List.append_assoc] at hdir
        rw [List.concat_eq_append, ← (List.append_inj' hdir rfl).2] at hw
        exact absurd (List.mem_append_right w' List.mem_cons_self) (hnoSlash hw)
    · exact hmatches.mpr ⟨v, w, '/' :: (more ++ post), by simp only [List.append_assoc,
        List.cons_append], hv, hw, .inr (.inl ⟨_, rfl⟩)⟩
    · rw [← List.append_assoc] at hdir
      exact absurd (List.append_inj' hdir rfl).2 (by decide)

end Matches

end Ignore

end Stencil
