import Mathlib.Data.List.Infix
import Stencil.Reference.Directive

/-!
# Passing Over Characters

What the scanner of references does where nothing is found.

All matching moves through the text one character at a time and asks at each
place whether something is found there. `Passes` says that nothing is found at
any place of a stretch, and each of the loops then goes on behind the stretch:
blanking keeps it, a search goes past it, and the tags in it are none. What is
found depends on what follows the stretch, so that is part of the relation, and
stretches are put together from right to left.

Comments, raw blocks and tags start with one character. A stretch without that
character is passed over whatever follows it.

## Main definitions

* `Passes`: Nothing is found at any place of a stretch.

## Theorems

* `Passes.cons`, `Passes.append`: How stretches are put together.
* `exists_passes`: What is found at all is found at a first place.
* `blankMatches_append`, `blankMatches_match`: Blanking a stretch, or a match.
* `seek_append`: A search goes past a stretch.
* `scanTags_append`, `scanTags_match`: The tags of a stretch, or one tag.
-/

namespace Stencil

namespace Reference

open Text

variable {α : Type} {find? : List Char → Option α} {xs ys : List Char}

/-- Nothing is found at any place of a stretch, with others after it. -/
def Passes (find? : List Char → Option α) (xs ys : List Char) : Prop :=
  ∀ v, v <:+ xs → v ≠ [] → find? (v ++ ys) = none

theorem passes_nil (find? : List Char → Option α) (ys : List Char) : Passes find? [] ys :=
  fun _ hv hne => absurd (List.suffix_nil.mp hv) hne

theorem Passes.cons {x : Char} (h : find? (x :: (xs ++ ys)) = none) (hxs : Passes find? xs ys) :
    Passes find? (x :: xs) ys := by
  intro v hv hne
  rcases List.suffix_cons_iff.mp hv with rfl | hv
  · exact h
  · exact hxs v hv hne

theorem Passes.head {x : Char} (h : Passes find? (x :: xs) ys) :
    find? (x :: (xs ++ ys)) = none :=
  h (x :: xs) (List.suffix_refl _) (List.cons_ne_nil _ _)

theorem Passes.tail {x : Char} (h : Passes find? (x :: xs) ys) : Passes find? xs ys :=
  fun v hv hne => h v (hv.trans (List.suffix_cons _ _)) hne

theorem Passes.append {zs : List Char} (hxs : Passes find? xs (ys ++ zs))
    (hys : Passes find? ys zs) : Passes find? (xs ++ ys) zs := by
  induction xs with
  | nil => exact hys
  | cons x xs ih =>
      -- What follows a place of the first stretch is the same, put together otherwise.
      have hx := hxs.head
      rw [← List.append_assoc] at hx
      exact Passes.cons hx (ih hxs.tail)

/-- What starts with one character is found in no stretch without it. -/
theorem passes_of_notMem {start : Char} (hfind : ∀ c cs, c ≠ start → find? (c :: cs) = none)
    (h : start ∉ xs) (ys : List Char) : Passes find? xs ys := by
  induction xs with
  | nil => exact passes_nil find? ys
  | cons x xs ih =>
      rw [List.mem_cons, not_or] at h
      exact Passes.cons (hfind x _ (fun heq => h.1 heq.symm)) (ih h.2)

/-- What is found behind a stretch is found at a first place, in the stretch or
    behind it. -/
theorem exists_passes (h : (find? ys).isSome = true) (xs : List Char) :
    ∃ before after, xs = before ++ after ∧ Passes find? before (after ++ ys) ∧
      (find? (after ++ ys)).isSome = true := by
  induction xs with
  | nil => exact ⟨[], [], rfl, passes_nil find? ys, h⟩
  | cons x xs ih =>
      cases hx : find? (x :: (xs ++ ys)) with
      | some a =>
          refine ⟨[], x :: xs, rfl, passes_nil find? _, ?_⟩
          rw [List.cons_append, hx, Option.isSome_some]
      | none =>
          rcases ih with ⟨before, after, rfl, hpasses, hfound⟩
          refine ⟨x :: before, after, rfl, Passes.cons ?_ hpasses, hfound⟩
          rwa [List.append_assoc] at hx

/-- Two characters that start or end something do not follow one another in two
    stretches that are put together. -/
theorem notInfix_append {a b : Char} (hxs : ¬ [a, b] <:+: xs) (hys : ¬ [a, b] <:+: ys)
    (h : xs.getLast? ≠ some a ∨ ys.head? ≠ some b) : ¬ [a, b] <:+: xs ++ ys := by
  intro hin
  rcases List.infix_append_iff.mp hin with hin | hin | ⟨us, vs, heq, ⟨before, hus⟩, ⟨after, hvs⟩⟩
  · exact hxs hin
  · exact hys hin
  · -- One character stands at the end of the first stretch, the other behind it.
    cases us with
    | nil =>
        rw [List.nil_append] at heq
        exact hys ⟨[], after, by rw [heq, List.nil_append, hvs]⟩
    | cons u us =>
        rw [List.cons_append, List.cons.injEq] at heq
        rcases heq with ⟨rfl, htail⟩
        cases us with
        | nil =>
            rw [List.nil_append] at htail
            -- So the two would stand at the seam.
            rcases h with hlast | hhead
            · exact hlast (by rw [← hus, List.getLast?_append, List.getLast?_singleton]; rfl)
            · exact hhead (by rw [← hvs, ← htail]; rfl)
        | cons v us =>
            rw [List.cons_append, List.cons.injEq] at htail
            rcases htail with ⟨rfl, hnil⟩
            rcases List.append_eq_nil_iff.mp hnil.symm with ⟨rfl, _⟩
            exact hxs ⟨before, [], by rw [List.append_nil, hus]⟩

section Blanking

variable {taken? : List Char → Option Nat}

/-- A stretch is kept where nothing is found. -/
theorem blankMatches_append (h : Passes taken? xs ys) :
    blankMatches taken? 0 (xs ++ ys) = xs ++ blankMatches taken? 0 ys := by
  induction xs with
  | nil => rfl
  | cons x xs ih =>
      rw [List.cons_append, List.cons_append, blankMatches, h.head]
      simp only [ih h.tail]

/-- What is left of a match is blanked out. -/
theorem blankMatches_skip (xs ys : List Char) :
    blankMatches taken? xs.length (xs ++ ys) = xs.map blank ++ blankMatches taken? 0 ys := by
  induction xs with
  | nil => rfl
  | cons x xs ih => rw [List.cons_append, List.length_cons, blankMatches, ih, List.map_cons,
      List.cons_append]

/-- A match is blanked out. -/
theorem blankMatches_match (hne : xs ≠ []) (h : taken? (xs ++ ys) = some xs.length) :
    blankMatches taken? 0 (xs ++ ys) = xs.map blank ++ blankMatches taken? 0 ys := by
  cases xs with
  | nil => exact absurd rfl hne
  | cons x xs =>
      rw [List.cons_append] at h ⊢
      rw [blankMatches, h, List.length_cons]
      simp only [blankMatches_skip, List.map_cons, List.cons_append]

theorem blank_of_ne_feed {c : Char} (h : c ≠ '\n') : blank c = ' ' := by
  rw [blank, if_neg (mt beq_iff_eq.mp h)]

/-- A line feed is left exactly where one was. -/
theorem blank_eq_feed_iff {c : Char} : blank c = '\n' ↔ c = '\n' := by
  by_cases hc : c = '\n'
  · rw [hc]
    exact iff_of_true rfl rfl
  · rw [blank_of_ne_feed hc]
    exact iff_of_false (by decide) hc

/-- What is blanked out is a line feed or a space. -/
theorem blank_eq_feed_or_space (c : Char) : blank c = '\n' ∨ blank c = ' ' := by
  by_cases hc : c = '\n'
  · exact Or.inl (blank_eq_feed_iff.mpr hc)
  · exact Or.inr (blank_of_ne_feed hc)

/-- Blanking keeps the line feeds. -/
theorem count_map_blank (cs : List Char) : (cs.map blank).count '\n' = cs.count '\n' := by
  rw [List.count_eq_countP, List.countP_map, List.count_eq_countP]
  refine List.countP_congr (fun c _ => ?_)
  rw [Function.comp_apply, beq_iff_eq, beq_iff_eq]
  exact blank_eq_feed_iff

/-- Nothing that is blanked out starts a comment, a raw block or a tag. -/
theorem notMem_map_blank (cs : List Char) : '{' ∉ cs.map blank := by
  intro h
  rcases List.mem_map.mp h with ⟨c, _, hc⟩
  rcases blank_eq_feed_or_space c with heq | heq
  · exact absurd (heq.symm.trans hc) (by decide)
  · exact absurd (heq.symm.trans hc) (by decide)

end Blanking

section Searching

variable {next? : List Char → Option (List Char)}

theorem seek_cons (c : Char) (cs : List Char) :
    seek next? (c :: cs) =
      match next? (c :: cs) with
      | some rest => some rest
      | none => seek next? cs :=
  rfl

/-- A search goes past a stretch where nothing is found. -/
theorem seek_append (h : Passes next? xs ys) : seek next? (xs ++ ys) = seek next? ys := by
  induction xs with
  | nil => rfl
  | cons x xs ih => rw [List.cons_append, seek_cons, h.head, ih h.tail]

theorem seek_of_some {rest : List Char} (h : next? ys = some rest) : seek next? ys = some rest := by
  cases ys with
  | nil => exact h
  | cons c cs => rw [seek_cons, h]

end Searching

section Scanning

/-- The line behind a character, counted in line feeds. -/
theorem line_eq (c : Char) (line : Nat) :
    (if (c == '\n') = true then line + 1 else line) = line + [c].count '\n' := by
  rw [List.count_singleton]
  split <;> rfl

theorem scanTags_succ (line k : Nat) (c : Char) (cs : List Char) :
    scanTags line (k + 1) (c :: cs) = scanTags (line + [c].count '\n') k cs := by
  rw [← line_eq]
  rfl

theorem scanTags_of_none {c : Char} {cs : List Char} (h : tagAt? (c :: cs) = none) (line : Nat) :
    scanTags line 0 (c :: cs) = scanTags (line + [c].count '\n') 0 cs := by
  rw [← line_eq]
  simp only [scanTags, h]

theorem scanTags_of_some {c : Char} {cs arg rest : List Char} {tag : Tag}
    (h : tagAt? (c :: cs) = some (tag, arg, rest)) (line : Nat) :
    scanTags line 0 (c :: cs) = (directive? tag line arg).toList ++
      scanTags (line + [c].count '\n') (cs.length - rest.length) cs := by
  rw [← line_eq]
  simp only [scanTags, h]

/-- A stretch without a tag has no references, and lines. -/
theorem scanTags_append (h : Passes tagAt? xs ys) (line : Nat) :
    scanTags line 0 (xs ++ ys) = scanTags (line + xs.count '\n') 0 ys := by
  induction xs generalizing line with
  | nil => rfl
  | cons x xs ih =>
      rw [List.cons_append, scanTags_of_none h.head, ih h.tail, Nat.add_assoc, ← List.count_append,
        List.singleton_append]

/-- What is left of a tag is skipped, and lines are counted in it. -/
theorem scanTags_skip (xs ys : List Char) (line : Nat) :
    scanTags line xs.length (xs ++ ys) = scanTags (line + xs.count '\n') 0 ys := by
  induction xs generalizing line with
  | nil => rfl
  | cons x xs ih => rw [List.cons_append, List.length_cons, scanTags_succ, ih, Nat.add_assoc,
      ← List.count_append, List.singleton_append]

/-- A tag makes its reference, and the scan goes on behind it. -/
theorem scanTags_match {tag : Tag} {arg : List Char} (hne : xs ≠ [])
    (h : tagAt? (xs ++ ys) = some (tag, arg, ys)) (line : Nat) :
    scanTags line 0 (xs ++ ys) =
      (directive? tag line arg).toList ++ scanTags (line + xs.count '\n') 0 ys := by
  cases xs with
  | nil => exact absurd rfl hne
  | cons x xs =>
      rw [List.cons_append] at h ⊢
      rw [scanTags_of_some h, List.length_append, Nat.add_sub_cancel, scanTags_skip,
        Nat.add_assoc, ← List.count_append, List.singleton_append]

end Scanning

end Reference

end Stencil
