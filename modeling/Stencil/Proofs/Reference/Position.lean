import Stencil.Proofs.Reference.Segment

/-!
# Where References Stand

The places of a text that are blanked out before it is scanned, and the places
at which its references stand.

The scanner goes over a text three times, each time with a matcher that is tried
at one place after the other, and behind what it took. `Finds` says this of a
list of stretches, without saying how they are found: each is taken where it
starts, none starts inside of another, and outside of them nothing is taken.
`stretches` is the list that goes with the recursion of `blankMatches`, and every
step of that recursion is one lemma about `Finds` and one about what is left.

Blanking a stretch changes no line feed and adds or drops no character. A place of
the text that is left is therefore the same place of the text that was there, and
lines can be counted in either. A reference starts with a brace, and blanking
leaves no brace, so it stands outside of all that was blanked out. Nothing is
asked of the text: its comments, tags and quotes need not be closed.

## Main definitions

* `Stretch`, `Covered`: A stretch of a text, and the places that some hold.
* `Finds`, `stretches`: The stretches that a matcher takes.
* `Leaves`, `Blanks`: A text in which these are blanked out.
* `KeepsPlaces`: A text that differs from another by spaces only.
* `placed`: The references of a text, with their places.
* `StandsAt`: A reference stands at a place of a text.

## Theorems

* `finds_stretches`: A matcher takes the stretches that are listed.
* `leaves_blankMatches`, `blanks_blankMatches`: Exactly these are blanked out.
* `KeepsPlaces.count_take`: Up to a place there are as many line feeds.
* `scanTags_eq_filterMap`: The references are read off the tags that are found.
* `infix_of_mem_scan`: The name of a reference stands in what is left of the text.
* `scan_keeps_places`: Blanking keeps the places at which references stand.
-/

namespace Stencil

namespace Reference

open Text

/-- A stretch of a text. -/
structure Stretch where
  /-- The place of its first character. -/
  start : Nat
  /-- How many characters it has. -/
  length : Nat
  deriving DecidableEq, Repr

namespace Stretch

/-- The place lies in the stretch. -/
def Holds (s : Stretch) (place : Nat) : Prop :=
  s.start ≤ place ∧ place < s.start + s.length

/-- The same stretch with one more character in front of the text. -/
def shift (s : Stretch) : Stretch :=
  ⟨s.start + 1, s.length⟩

theorem holds_shift_succ {s : Stretch} {place : Nat} :
    s.shift.Holds (place + 1) ↔ s.Holds place := by
  simp only [Holds, shift]
  omega

theorem not_holds_shift_zero (s : Stretch) : ¬ s.shift.Holds 0 := by
  simp only [Holds, shift]
  omega

end Stretch

/-- The place lies in one of the stretches. -/
def Covered (found : List Stretch) (place : Nat) : Prop :=
  ∃ s ∈ found, s.Holds place

theorem covered_shift_succ {found : List Stretch} {place : Nat} :
    Covered (found.map Stretch.shift) (place + 1) ↔ Covered found place := by
  simp only [Covered, List.mem_map, exists_exists_and_eq_and, Stretch.holds_shift_succ]

theorem not_covered_shift_zero (found : List Stretch) :
    ¬ Covered (found.map Stretch.shift) 0 := by
  rintro ⟨s, hs, hholds⟩
  rcases List.mem_map.mp hs with ⟨t, -, rfl⟩
  exact t.not_holds_shift_zero hholds

/-- A stretch at the start, and others behind it. -/
theorem covered_cons {n place : Nat} {found : List Stretch} :
    Covered (⟨0, n⟩ :: found) place ↔ place < n ∨ Covered found place := by
  simp only [Covered, List.exists_mem_cons_iff, Stretch.Holds]
  rw [Nat.zero_add, and_iff_right (Nat.zero_le place)]

theorem covered_append {found more : List Stretch} {place : Nat} :
    Covered (found ++ more) place ↔ Covered found place ∨ Covered more place := by
  simp only [Covered, List.mem_append, or_and_right, exists_or]

/-- The stretches of a text that a matcher takes. It is tried at one place after
    the other, from the first one on, and when it takes something it is next tried
    behind that. -/
structure Finds (taken? : List Char → Option Nat) (first : Nat) (cs : List Char)
    (found : List Stretch) : Prop where
  /-- Stretches are not empty, and each is taken where it starts. -/
  taken : ∀ s ∈ found, first ≤ s.start ∧ s.start < cs.length ∧ 0 < s.length ∧
    taken? (cs.drop s.start) = some s.length
  /-- Each starts behind those in front of it. -/
  apart : found.Pairwise fun s t => s.start + s.length ≤ t.start
  /-- At a place outside of them nothing is taken. -/
  missed : ∀ place, first ≤ place → place < cs.length → ¬ Covered found place →
    ∀ n, taken? (cs.drop place) ≠ some (n + 1)

/-- The stretches that a matcher takes. `skip` characters belong to a stretch that
    was taken before. -/
def stretches (taken? : List Char → Option Nat) (skip : Nat) : List Char → List Stretch
  | [] => []
  | c :: cs =>
    match skip with
    | k + 1 => (stretches taken? k cs).map Stretch.shift
    | 0 =>
      match taken? (c :: cs) with
      | some (n + 1) => ⟨0, n + 1⟩ :: (stretches taken? n cs).map Stretch.shift
      | _ => (stretches taken? 0 cs).map Stretch.shift

section Steps

variable {taken? : List Char → Option Nat} {c : Char} {cs : List Char} {n : Nat}

theorem stretches_succ (taken? : List Char → Option Nat) (k : Nat) (c : Char) (cs : List Char) :
    stretches taken? (k + 1) (c :: cs) = (stretches taken? k cs).map Stretch.shift :=
  rfl

theorem stretches_of_some (h : taken? (c :: cs) = some (n + 1)) :
    stretches taken? 0 (c :: cs) =
      ⟨0, n + 1⟩ :: (stretches taken? n cs).map Stretch.shift := by
  simp only [stretches, h]

theorem stretches_of_none (h : ∀ n, taken? (c :: cs) ≠ some (n + 1)) :
    stretches taken? 0 (c :: cs) = (stretches taken? 0 cs).map Stretch.shift := by
  rw [stretches]
  split
  · next n heq => exact absurd heq (h n)
  · rfl

theorem blankMatches_of_some (h : taken? (c :: cs) = some (n + 1)) :
    blankMatches taken? 0 (c :: cs) = blank c :: blankMatches taken? n cs := by
  simp only [blankMatches, h]

theorem blankMatches_of_none (h : ∀ n, taken? (c :: cs) ≠ some (n + 1)) :
    blankMatches taken? 0 (c :: cs) = c :: blankMatches taken? 0 cs := by
  rw [blankMatches]
  split
  · next n heq => exact absurd heq (h n)
  · rfl

end Steps

section Finding

variable {taken? : List Char → Option Nat} {c : Char} {cs : List Char} {found : List Stretch}

theorem finds_nil (taken? : List Char → Option Nat) (first : Nat) :
    Finds taken? first [] [] where
  taken := fun _ hs => absurd hs List.not_mem_nil
  apart := List.Pairwise.nil
  missed := fun place _ hplace => absurd hplace (Nat.not_lt_zero place)

/-- One more character in front is passed over. -/
theorem Finds.shift {k : Nat} (h : Finds taken? k cs found) (c : Char) :
    Finds taken? (k + 1) (c :: cs) (found.map Stretch.shift) where
  taken := by
    intro s hs
    rcases List.mem_map.mp hs with ⟨t, ht, rfl⟩
    rcases h.taken t ht with ⟨hfirst, hstart, hlength, htaken⟩
    refine ⟨Nat.succ_le_succ hfirst, ?_, hlength, ?_⟩
    · rw [List.length_cons]
      exact Nat.succ_lt_succ hstart
    · rw [Stretch.shift, List.drop_succ_cons]
      exact htaken
  apart := by
    refine List.pairwise_map.mpr (h.apart.imp (fun {_ _} hapart => ?_))
    simp only [Stretch.shift]
    omega
  missed := by
    intro place hfirst hplace hout n
    cases place with
    | zero => exact absurd hfirst (Nat.not_succ_le_zero k)
    | succ place =>
        rw [List.length_cons] at hplace
        rw [covered_shift_succ] at hout
        rw [List.drop_succ_cons]
        exact h.missed place (Nat.le_of_succ_le_succ hfirst) (Nat.lt_of_succ_lt_succ hplace) hout n

/-- Where nothing is taken, the next place is the first one. -/
theorem Finds.of_none (hnone : ∀ n, taken? (c :: cs) ≠ some (n + 1))
    (h : Finds taken? 1 (c :: cs) found) : Finds taken? 0 (c :: cs) found where
  taken := fun s hs => ⟨Nat.zero_le _, (h.taken s hs).2⟩
  apart := h.apart
  missed := by
    intro place _ hplace hout n
    cases place with
    | zero => exact hnone n
    | succ place => exact h.missed _ (Nat.succ_le_succ (Nat.zero_le place)) hplace hout n

/-- Where a stretch is taken, the first place is the one behind it. -/
theorem Finds.of_some {n : Nat} (hsome : taken? (c :: cs) = some (n + 1))
    (h : Finds taken? (n + 1) (c :: cs) found) :
    Finds taken? 0 (c :: cs) (⟨0, n + 1⟩ :: found) where
  taken := by
    intro s hs
    rcases List.mem_cons.mp hs with rfl | hs
    · exact ⟨Nat.zero_le _, Nat.succ_pos _, Nat.succ_pos _, hsome⟩
    · exact ⟨Nat.zero_le _, (h.taken s hs).2⟩
  apart := by
    refine List.Pairwise.cons (fun s hs => ?_) h.apart
    rw [Nat.zero_add]
    exact (h.taken s hs).1
  missed := by
    intro place _ hplace hout m
    rw [covered_cons, not_or, Nat.not_lt] at hout
    exact h.missed place hout.1 hplace hout.2 m

/-- A matcher takes the stretches that are listed, and these are all. -/
theorem finds_stretches (taken? : List Char → Option Nat) (cs : List Char) : ∀ skip,
    Finds taken? skip cs (stretches taken? skip cs) := by
  -- The first place varies along the induction, as what is skipped does.
  induction cs with
  | nil => exact fun skip => finds_nil taken? skip
  | cons c cs ih =>
      intro skip
      cases skip with
      | succ k => exact (ih k).shift c
      | zero =>
          -- What is taken without a character counts as nothing.
          by_cases hsome : ∃ n, taken? (c :: cs) = some (n + 1)
          · rcases hsome with ⟨n, hsome⟩
            rw [stretches_of_some hsome]
            exact Finds.of_some hsome ((ih n).shift c)
          · rw [not_exists] at hsome
            rw [stretches_of_none hsome]
            exact Finds.of_none hsome ((ih 0).shift c)

/-- Two comments, and the start of one that does not end. -/
example : stretches commentTaken? 0 "a\x7b##\x7d\x7b# #\x7d \x7b# -".toList =
    [⟨1, 4⟩, ⟨5, 5⟩] := by
  decide +kernel

end Finding

/-- What is left of a text: blanks in front of the first place and in the
    stretches, and elsewhere what was there. -/
structure Leaves (first : Nat) (found : List Stretch) (cs ds : List Char) : Prop where
  /-- There only blanks are left. -/
  hidden : ∀ place, place < first ∨ Covered found place → ds[place]? = cs[place]?.map blank
  /-- Elsewhere all is left. -/
  kept : ∀ place, first ≤ place → ¬ Covered found place → ds[place]? = cs[place]?

/-- The second text is the first one, with the stretches that a matcher takes
    blanked out. -/
structure Blanks (taken? : List Char → Option Nat) (cs ds : List Char)
    (found : List Stretch) : Prop where
  /-- These are the stretches that are taken. -/
  finds : Finds taken? 0 cs found
  /-- In them only blanks are left. -/
  hidden : ∀ place, Covered found place → ds[place]? = cs[place]?.map blank
  /-- Outside of them all is left. -/
  kept : ∀ place, ¬ Covered found place → ds[place]? = cs[place]?

section Blanking

variable {taken? : List Char → Option Nat} {cs ds : List Char} {found : List Stretch}

/-- One more character is skipped and blanked out. -/
theorem Leaves.skip {k : Nat} (h : Leaves k found cs ds) (c : Char) :
    Leaves (k + 1) (found.map Stretch.shift) (c :: cs) (blank c :: ds) where
  hidden := by
    intro place hin
    cases place with
    | zero => rfl
    | succ place =>
        rw [covered_shift_succ, Nat.succ_lt_succ_iff] at hin
        exact h.hidden place hin
  kept := by
    intro place hfirst hout
    cases place with
    | zero => exact absurd hfirst (Nat.not_succ_le_zero k)
    | succ place =>
        rw [covered_shift_succ] at hout
        exact h.kept place (Nat.le_of_succ_le_succ hfirst) hout

/-- One more character is passed over and stays. -/
theorem Leaves.pass (h : Leaves 0 found cs ds) (c : Char) :
    Leaves 0 (found.map Stretch.shift) (c :: cs) (c :: ds) where
  hidden := by
    intro place hin
    cases place with
    | zero =>
        rcases hin with hin | hin
        · exact absurd hin (Nat.not_lt_zero 0)
        · exact absurd hin (not_covered_shift_zero found)
    | succ place =>
        rw [covered_shift_succ, or_iff_right (Nat.not_lt_zero _)] at hin
        exact h.hidden place (Or.inr hin)
  kept := by
    intro place _ hout
    cases place with
    | zero => rfl
    | succ place =>
        rw [covered_shift_succ] at hout
        exact h.kept place (Nat.zero_le place) hout

/-- What is skipped is a stretch at the start. -/
theorem Leaves.take {n : Nat} (h : Leaves n found cs ds) : Leaves 0 (⟨0, n⟩ :: found) cs ds where
  hidden := by
    intro place hin
    rw [covered_cons, or_iff_right (Nat.not_lt_zero place)] at hin
    exact h.hidden place hin
  kept := by
    intro place _ hout
    rw [covered_cons, not_or, Nat.not_lt] at hout
    exact h.kept place hout.1 hout.2

/-- What is skipped is blanked out, and so are the stretches that are taken behind
    it, and nothing else. -/
theorem leaves_blankMatches (taken? : List Char → Option Nat) (cs : List Char) : ∀ skip,
    Leaves skip (stretches taken? skip cs) cs (blankMatches taken? skip cs) := by
  induction cs with
  | nil => exact fun _ => ⟨fun _ _ => rfl, fun _ _ _ => rfl⟩
  | cons c cs ih =>
      intro skip
      cases skip with
      | succ k => exact (ih k).skip c
      | zero =>
          by_cases hsome : ∃ n, taken? (c :: cs) = some (n + 1)
          · rcases hsome with ⟨n, hsome⟩
            rw [stretches_of_some hsome, blankMatches_of_some hsome]
            exact ((ih n).skip c).take
          · rw [not_exists] at hsome
            rw [stretches_of_none hsome, blankMatches_of_none hsome]
            exact (ih 0).pass c

/-- Exactly the stretches that a matcher takes are blanked out. -/
theorem blanks_blankMatches (taken? : List Char → Option Nat) (cs : List Char) :
    Blanks taken? cs (blankMatches taken? 0 cs) (stretches taken? 0 cs) := by
  have hleaves := leaves_blankMatches taken? cs 0
  exact ⟨finds_stretches taken? cs 0, fun place hin => hleaves.hidden place (Or.inr hin),
    fun place hout => hleaves.kept place (Nat.zero_le place) hout⟩

/-- A character that is left and is no blank was there before, outside of all that
    is blanked out. -/
theorem Blanks.of_getElem? (h : Blanks taken? cs ds found) {place : Nat} {c : Char}
    (hc : ds[place]? = some c) (hfeed : c ≠ '\n') (hspace : c ≠ ' ') :
    ¬ Covered found place ∧ cs[place]? = some c := by
  by_cases hin : Covered found place
  · exfalso
    rw [h.hidden place hin, Option.map_eq_some_iff] at hc
    rcases hc with ⟨d, -, rfl⟩
    rcases blank_eq_feed_or_space d with heq | heq
    · exact hfeed heq
    · exact hspace heq
  · exact ⟨hin, (h.kept place hin).symm.trans hc⟩

end Blanking

/-- The second text has the places of the first: it is as long, it has line feeds at
    the same places, and what is different in it are spaces. -/
structure KeepsPlaces (cs ds : List Char) : Prop where
  /-- No character is added or dropped. -/
  length_eq : ds.length = cs.length
  /-- Line feeds stay, and no others are put in. -/
  feed_iff : ∀ place : Nat, ds[place]? = some '\n' ↔ cs[place]? = some '\n'
  /-- What does not stay is a space. -/
  eq_or_space : ∀ place : Nat, ds[place]? = cs[place]? ∨ ds[place]? = some ' '

section Places

variable {taken? : List Char → Option Nat} {cs ds es : List Char} {found : List Stretch}

theorem KeepsPlaces.trans (h : KeepsPlaces cs ds) (h' : KeepsPlaces ds es) :
    KeepsPlaces cs es where
  length_eq := h'.length_eq.trans h.length_eq
  feed_iff := fun place => (h'.feed_iff place).trans (h.feed_iff place)
  eq_or_space := by
    intro place
    rcases h'.eq_or_space place with hsame | hspace
    · rw [hsame]
      exact h.eq_or_space place
    · exact Or.inr hspace

/-- Blanking keeps places. -/
theorem keepsPlaces_blankMatches (taken? : List Char → Option Nat) (cs : List Char) :
    KeepsPlaces cs (blankMatches taken? 0 cs) := by
  have hblanks := blanks_blankMatches taken? cs
  refine ⟨length_blankMatches taken? 0 cs, fun place => ?_, fun place => ?_⟩
  · -- A blank is a line feed exactly if it stands for one.
    by_cases hin : Covered (stretches taken? 0 cs) place
    · rw [hblanks.hidden place hin, Option.map_eq_some_iff]
      constructor
      · rintro ⟨c, hc, hfeed⟩
        rw [hc, blank_eq_feed_iff.mp hfeed]
      · exact fun hfeed => ⟨'\n', hfeed, rfl⟩
    · rw [hblanks.kept place hin]
  · -- Any other blank is a space.
    by_cases hin : Covered (stretches taken? 0 cs) place
    · rw [hblanks.hidden place hin]
      rcases cs[place]? with _ | c
      · exact Or.inl rfl
      · by_cases hc : c = '\n'
        · rw [hc]
          exact Or.inl rfl
        · rw [Option.map_some, blank_of_ne_feed hc]
          exact Or.inr rfl
    · exact Or.inl (hblanks.kept place hin)

theorem keepsPlaces_blanked (cs : List Char) : KeepsPlaces cs (blanked cs) :=
  (keepsPlaces_blankMatches commentTaken? cs).trans (keepsPlaces_blankMatches rawTaken? _)

/-- Up to a place there are as many line feeds in one text as in the other. -/
theorem KeepsPlaces.count_take (h : KeepsPlaces cs ds) (place : Nat) :
    (ds.take place).count '\n' = (cs.take place).count '\n' := by
  -- The character at a place adds one line feed or none.
  have hcount (c? : Option Char) :
      c?.toList.count '\n' = if c? = some '\n' then 1 else 0 := by
    rcases c? with _ | c
    · rfl
    · simp only [Option.toList_some, List.count_singleton, beq_iff_eq, Option.some.injEq]
  induction place with
  | zero => rfl
  | succ place ih =>
      rw [List.take_add_one, List.take_add_one, List.count_append, List.count_append, ih, hcount,
        hcount, if_congr (h.feed_iff place) rfl rfl]

end Places

section Tags

variable {cs arg rest : List Char} {tag : Tag}

/-- How many characters a tag takes. -/
def tagTaken? (cs : List Char) : Option Nat :=
  (tagAt? cs).map fun read => cs.length - read.2.2.length

/-- The reference that is read off the tag at a place of a text whose first
    character is on a given line. -/
def directiveAt? (line : Nat) (cs : List Char) (place : Nat) : Option Directive :=
  (tagAt? (cs.drop place)).bind fun read =>
    directive? read.1 (line + (cs.take place).count '\n') read.2.1

theorem directiveAt?_succ (line : Nat) (c : Char) (cs : List Char) (place : Nat) :
    directiveAt? line (c :: cs) (place + 1) = directiveAt? (line + [c].count '\n') cs place := by
  rw [directiveAt?, directiveAt?, List.drop_succ_cons, List.take_succ_cons, Nat.add_assoc,
    ← List.count_append, List.singleton_append]

theorem length_le_of_tagEnd? (h : tagEnd? cs = some rest) : rest.length ≤ cs.length := by
  rcases tagEnd?_eq_some_iff.mp h with ⟨b, s, rfl⟩
  simp only [List.length_append, List.length_cons]
  omega

theorem length_le_of_argument? (cs : List Char) : ∀ acc,
    argument? acc cs = some (arg, rest) → rest.length ≤ cs.length := by
  induction cs with
  | nil =>
      intro acc h
      rw [argument?_nil] at h
      rcases Option.map_eq_some_iff.mp h with ⟨inner, hend, heq⟩
      rw [← (Prod.mk.inj heq).2]
      exact length_le_of_tagEnd? hend
  | cons c cs ih =>
      intro acc h
      rw [argument?_cons] at h
      cases hend : tagEnd? (c :: cs) with
      | some inner =>
          simp only [hend, Option.some.injEq, Prod.mk.injEq] at h
          rw [← h.2]
          exact length_le_of_tagEnd? hend
      | none =>
          simp only [hend] at h
          exact (ih _ h).trans (Nat.le_succ _)

/-- A tag takes something. -/
theorem length_lt_of_tagAt? (h : tagAt? cs = some (tag, arg, rest)) :
    rest.length < cs.length := by
  rcases tagAt?_eq_some h with ⟨inner, hstart, -, hread⟩
  rcases eq_of_tagStart? hstart with ⟨s, b, rfl⟩
  have hrest := length_le_of_argument? _ _ hread
  have hinner : (dropBlanks inner).length ≤ inner.length :=
    (List.dropWhile_suffix isBlank).length_le
  simp only [List.length_cons, List.length_append]
  omega

/-- The references of a text are read off the tags that are found. -/
theorem scanTags_eq_filterMap (cs : List Char) : ∀ line skip,
    scanTags line skip cs =
      (stretches tagTaken? skip cs).filterMap fun s => directiveAt? line cs s.start := by
  induction cs with
  | nil => exact fun _ _ => rfl
  | cons c cs ih =>
      intro line skip
      -- Behind the first character all places are one less, and its line is counted already.
      have hshift (found : List Stretch) :
          ((found.map Stretch.shift).filterMap fun s => directiveAt? line (c :: cs) s.start) =
            found.filterMap fun s => directiveAt? (line + [c].count '\n') cs s.start := by
        rw [List.filterMap_map]
        exact List.filterMap_congr (fun s _ => directiveAt?_succ line c cs s.start)
      cases skip with
      | succ k => rw [scanTags_succ, stretches_succ, hshift, ih]
      | zero =>
          rcases hread : tagAt? (c :: cs) with _ | ⟨tag, arg, rest⟩
          · have hnone : ∀ n, tagTaken? (c :: cs) ≠ some (n + 1) := by
              intro n
              rw [tagTaken?, hread, Option.map_none]
              exact (Option.some_ne_none _).symm
            rw [scanTags_of_none hread, stretches_of_none hnone, hshift, ih]
          · have hlength := length_lt_of_tagAt? hread
            rw [List.length_cons] at hlength
            have hsome : tagTaken? (c :: cs) = some (cs.length - rest.length + 1) := by
              simp only [tagTaken?, hread, Option.map_some, List.length_cons]
              rw [Nat.sub_add_comm (Nat.le_of_lt_succ hlength)]
            have hhere : directiveAt? line (c :: cs) 0 = directive? tag line arg := by
              rw [directiveAt?, List.drop_zero, hread]
              rfl
            rw [scanTags_of_some hread, stretches_of_some hsome, List.filterMap_cons, hhere,
              hshift, ih]
            cases directive? tag line arg with
            | none => rfl
            | some d => rfl

end Tags

section Standing

variable {cs : List Char} {place : Nat} {d : Directive}

/-- The references that are read off the tags of a text, with the places of the
    tags. -/
def placed (cs : List Char) : List (Nat × Directive) :=
  (stretches tagTaken? 0 cs).filterMap fun s =>
    (directiveAt? 1 cs s.start).map (Prod.mk s.start)

theorem map_snd_placed (cs : List Char) : (placed cs).map Prod.snd = scanTags 1 0 cs := by
  rw [scanTags_eq_filterMap, placed, List.map_filterMap]
  refine List.filterMap_congr (fun s _ => ?_)
  rw [Option.map_map]
  exact congrFun Option.map_id _

/-- The tags are found in the order of their places. -/
theorem pairwise_placed (cs : List Char) : ((placed cs).map Prod.fst).Pairwise (· < ·) := by
  have hfinds := finds_stretches tagTaken? cs 0
  rw [placed, List.pairwise_map, List.pairwise_filterMap]
  refine hfinds.apart.imp_of_mem (fun {s t} hs _ hapart => ?_)
  rintro p hp q hq
  rcases Option.map_eq_some_iff.mp hp with ⟨d, -, rfl⟩
  rcases Option.map_eq_some_iff.mp hq with ⟨e, -, rfl⟩
  -- A stretch is not empty, so the next one starts at a later place.
  have hlength := (hfinds.taken s hs).2.2.1
  simp only
  omega

theorem mem_placed_iff : (place, d) ∈ placed cs ↔
    ∃ s ∈ stretches tagTaken? 0 cs, s.start = place ∧ directiveAt? 1 cs place = some d := by
  rw [placed, List.mem_filterMap]
  refine exists_congr (fun s => and_congr_right (fun _ => ?_))
  rw [Option.map_eq_some_iff]
  constructor
  · rintro ⟨e, he, heq⟩
    rcases Prod.mk.inj heq with ⟨rfl, rfl⟩
    exact ⟨rfl, he⟩
  · rintro ⟨rfl, hd⟩
    exact ⟨d, hd, rfl⟩

/-- A reference is on the line that it is given. -/
theorem line_of_directive? {tag : Tag} {line : Nat} {arg : List Char}
    (h : directive? tag line arg = some d) : d.line = line := by
  rw [directive?] at h
  cases hname : literal? arg with
  | none => simp only [hname, reduceCtorEq] at h
  | some read =>
      simp only [hname] at h
      split at h
      · rw [← Option.some.inj h]
      · exact absurd h (Option.some_ne_none d).symm

/-- A reference stands at a place of a text in which some stretches are hidden. -/
structure StandsAt (text : List Char) (hidden : List Stretch) (place : Nat) (d : Directive) :
    Prop where
  /-- A tag is opened there. -/
  opens : text[place]? = some '{' ∧ text[place + 1]? = some '%'
  /-- Neither character of the delimiter is hidden. -/
  outside : ¬ Covered hidden place ∧ ¬ Covered hidden (place + 1)
  /-- The line is that of the place, where the first line is one. -/
  line_eq : d.line = 1 + (text.take place).count '\n'

/-- What is read off a tag of the blanked text stands there in the text itself. -/
theorem standsAt_of_directiveAt? {comments raws : List Stretch}
    (hcomments : Blanks commentTaken? cs (blankMatches commentTaken? 0 cs) comments)
    (hraws : Blanks rawTaken? (blankMatches commentTaken? 0 cs) (blanked cs) raws)
    (h : directiveAt? 1 (blanked cs) place = some d) :
    StandsAt cs (comments ++ raws) place d := by
  rcases Option.bind_eq_some_iff.mp h with ⟨read, hread, hd⟩
  rcases tagAt?_opensWith _ _ hread with ⟨rest, hopen⟩
  -- A character of the delimiter is no blank, so none of the two passes has put it there.
  have hthrough {place : Nat} {c : Char} (hc : (blanked cs)[place]? = some c) (hfeed : c ≠ '\n')
      (hspace : c ≠ ' ') : cs[place]? = some c ∧ ¬ Covered (comments ++ raws) place := by
    rcases hraws.of_getElem? hc hfeed hspace with ⟨hraw, hc⟩
    rcases hcomments.of_getElem? hc hfeed hspace with ⟨hcomment, hc⟩
    exact ⟨hc, fun hin => (covered_append.mp hin).elim hcomment hraw⟩
  have hbrace : (blanked cs)[place]? = some '{' := by
    rw [← Nat.add_zero place, ← List.getElem?_drop, hopen]
    rfl
  have hpercent : (blanked cs)[place + 1]? = some '%' := by
    rw [← List.getElem?_drop, hopen]
    rfl
  rcases hthrough hbrace (by decide) (by decide) with ⟨hbrace, hout⟩
  rcases hthrough hpercent (by decide) (by decide) with ⟨hpercent, hout'⟩
  refine ⟨⟨hbrace, hpercent⟩, ⟨hout, hout'⟩, ?_⟩
  rw [line_of_directive? hd, (keepsPlaces_blanked cs).count_take]

end Standing

section Names

variable {cs arg rest : List Char} {tag : Tag} {line : Nat} {d : Directive}

/-- The argument of a tag stands in the text. -/
theorem prefix_of_argument? (cs : List Char) : ∀ acc,
    argument? acc cs = some (arg, rest) → arg <+: acc.reverse ++ cs := by
  induction cs with
  | nil =>
      intro acc h
      rw [argument?_nil] at h
      rcases Option.map_eq_some_iff.mp h with ⟨inner, -, heq⟩
      rw [← (Prod.mk.inj heq).1]
      exact List.prefix_append _ _
  | cons c cs ih =>
      intro acc h
      rw [argument?_cons] at h
      cases hend : tagEnd? (c :: cs) with
      | some inner =>
          simp only [hend, Option.some.injEq, Prod.mk.injEq] at h
          rw [← h.1]
          exact List.prefix_append _ _
      | none =>
          simp only [hend] at h
          have hrest := ih _ h
          rwa [List.reverse_cons, List.append_assoc, List.singleton_append] at hrest

theorem infix_of_tagAt? (h : tagAt? cs = some (tag, arg, rest)) : arg <:+: cs := by
  rcases tagAt?_eq_some h with ⟨inner, hstart, -, hread⟩
  rcases eq_of_tagStart? hstart with ⟨s, b, rfl⟩
  refine (prefix_of_argument? _ _ hread).isInfix.trans ?_
  refine ((List.dropWhile_suffix isBlank).isInfix).trans ?_
  refine List.IsSuffix.isInfix ⟨'{' :: '%' :: (s.chars ++ (b.chars ++ tag.keyword.toList)), ?_⟩
  simp only [List.append_assoc, List.cons_append]

/-- The name of a reference stands in its argument. -/
theorem infix_of_directive? (h : directive? tag line arg = some d) : d.name.toList <:+: arg := by
  rw [directive?] at h
  cases hname : literal? arg with
  | none => simp only [hname, reduceCtorEq] at h
  | some read =>
      rcases read with ⟨name, rest⟩
      rcases eq_of_literal? hname with ⟨q, rfl, -⟩
      simp only [hname] at h
      split at h
      · rw [← Option.some.inj h, String.toList_ofList]
        exact ⟨[q.char], q.char :: rest, by simp only [List.cons_append, List.nil_append]⟩
      · exact absurd h (Option.some_ne_none d).symm

/-- The name of a reference stands in what is left of the text. -/
theorem infix_of_mem_scan {text : String} (h : d ∈ scan text) :
    d.name.toList <:+: blanked text.toList := by
  rw [scan, scanTags_eq_filterMap] at h
  rcases List.mem_filterMap.mp h with ⟨s, -, hs⟩
  rcases Option.bind_eq_some_iff.mp hs with ⟨⟨tag, arg, rest⟩, hread, hd⟩
  exact ((infix_of_directive? hd).trans (infix_of_tagAt? hread)).trans
    (List.drop_suffix _ _).isInfix

/-- Where a text has no carriage return, no name has one. -/
theorem return_notMem_of_mem_scan {text : String} (hreturn : '\r' ∉ text.toList)
    (h : d ∈ scan text) : '\r' ∉ d.name.toList := by
  intro hmem
  rcases List.mem_iff_getElem?.mp ((infix_of_mem_scan h).subset hmem) with ⟨place, hplace⟩
  rcases (keepsPlaces_blanked text.toList).eq_or_space place with hsame | hspace
  · exact hreturn (List.mem_of_getElem? (hsame.symm.trans hplace))
  · rw [hplace, Option.some.injEq] at hspace
    exact absurd hspace (by decide)

end Names

/-- Blanking keeps the places at which references stand, whatever the text is. Its
    comments are blanked out and then the raw blocks of what is left, these and
    nothing else, and every character keeps its place. The references that are
    listed are those of the tags that are then found, in the order of the places of
    these tags. There, in the text itself, a tag is opened outside of all that was
    blanked out, and the line of the reference is one more than the line feeds
    before it. -/
theorem scan_keeps_places (text : String) :
    ∃ (comments raws tags : List Stretch) (found : List (Nat × Directive)),
      Blanks commentTaken? text.toList (blankMatches commentTaken? 0 text.toList) comments ∧
      Blanks rawTaken? (blankMatches commentTaken? 0 text.toList) (blanked text.toList) raws ∧
      KeepsPlaces text.toList (blankMatches commentTaken? 0 text.toList) ∧
      KeepsPlaces text.toList (blanked text.toList) ∧
      Finds tagTaken? 0 (blanked text.toList) tags ∧
      found.map Prod.snd = scan text ∧
      (found.map Prod.fst).Pairwise (· < ·) ∧
      (∀ place d, (place, d) ∈ found ↔
        ∃ s ∈ tags, s.start = place ∧ directiveAt? 1 (blanked text.toList) place = some d) ∧
      ∀ place d, (place, d) ∈ found → StandsAt text.toList (comments ++ raws) place d := by
  have hcomments := blanks_blankMatches commentTaken? text.toList
  have hraws := blanks_blankMatches rawTaken? (blankMatches commentTaken? 0 text.toList)
  refine ⟨_, _, _, placed (blanked text.toList), hcomments, hraws,
    keepsPlaces_blankMatches commentTaken? text.toList, keepsPlaces_blanked text.toList,
    finds_stretches tagTaken? (blanked text.toList) 0, map_snd_placed (blanked text.toList),
    pairwise_placed (blanked text.toList), fun _ _ => mem_placed_iff, fun place d hin => ?_⟩
  rcases mem_placed_iff.mp hin with ⟨s, -, -, hd⟩
  exact standsAt_of_directiveAt? hcomments hraws hd

end Reference

end Stencil
