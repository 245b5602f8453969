import Mathlib.Data.List.Basic
import Stencil.Proofs.FileSystem.Directory
import Stencil.Proofs.Text.Split

/-!
# Null Characters

Which paths no file can have.

A path with a null character is refused wherever it is looked up, because the
system would take the character for the end of the path. `NullFree` says of a
path that it has no null character in its root or its components, which comes
to the same as its text having none. Whatever takes paths apart or puts them
together neither adds null characters nor loses them.

## Main definitions

* `Path.NullFree`: No part of the path has a null character.

## Theorems

* `Path.nullFree_iff`: A path without null characters has a text without.
* `Path.nullFree_ofString`: A path that is read is free of them if its text is.
* `Path.nullFree_join`: A path below another is free of them if both are.
* `Path.NullFree.withoutDots`: Resolving double dots adds none.
-/

namespace Stencil

/-- The character that no path may have. -/
def nullChar : Char :=
  Char.ofNat 0

namespace Text

theorem mem_joinStrings {c : Char} {sep : String} (hsep : c ∉ sep.toList) {parts : List String} :
    c ∈ (joinStrings sep parts).toList ↔ ∃ p ∈ parts, c ∈ p.toList := by
  induction parts with
  | nil => simp only [joinStrings, String.toList_empty, List.not_mem_nil, false_and, exists_false]
  | cons p ps ih =>
      cases ps with
      | nil => simp only [joinStrings, List.mem_singleton, exists_eq_left]
      | cons q qs =>
          rw [joinStrings, String.toList_append, String.toList_append, List.mem_append,
            List.mem_append, ih, List.exists_mem_cons_iff (a := p)]
          simp only [hsep, or_false]

theorem mem_splitOnChar {c sep : Char} (hc : c ≠ sep) (s : String) :
    (∃ p ∈ splitOnChar sep s, c ∈ p.toList) ↔ c ∈ s.toList := by
  have hsplit := mem_splitChars hc s.toList []
  simp only [List.not_mem_nil, false_or] at hsplit
  rw [splitOnChar, ← hsplit]
  simp only [List.mem_map, exists_exists_and_eq_and, String.toList_ofList]

end Text

namespace Path

/-- No part of the path has a null character. -/
structure NullFree (p : Path) : Prop where
  /-- The root has none. -/
  root : nullChar ∉ p.root.toList
  /-- No component has one. -/
  parts : ∀ part ∈ p.parts, nullChar ∉ part.toList

/-- The text of a path has the null characters of its parts. -/
theorem nullFree_iff {p : Path} : p.NullFree ↔ nullChar ∉ p.text.toList := by
  have hsep : nullChar ∉ "/".toList := by decide
  have hjoin : nullChar ∉ (p.root ++ Text.joinStrings "/" p.parts).toList ↔ p.NullFree := by
    rw [String.toList_append, List.mem_append, Text.mem_joinStrings hsep, not_or]
    simp only [not_exists, not_and]
    exact ⟨fun h => ⟨h.1, h.2⟩, fun h => ⟨h.root, h.parts⟩⟩
  rw [text]
  by_cases hempty : (p.root.isEmpty && p.parts.isEmpty) = true
  · rw [if_pos hempty]
    rw [Bool.and_eq_true, String.isEmpty_iff, List.isEmpty_iff] at hempty
    refine ⟨fun _ => by decide, fun _ => ⟨?_, fun part hpart => ?_⟩⟩
    · rw [hempty.1]
      decide
    · rw [hempty.2] at hpart
      exact absurd hpart List.not_mem_nil
  · rw [if_neg hempty]
    exact hjoin.symm

theorem NullFree.parent {p : Path} (h : p.NullFree) : p.parent.NullFree :=
  ⟨h.root, fun part hpart => h.parts part ((List.dropLast_sublist p.parts).mem hpart)⟩

theorem root_ofString (s : String) :
    (ofString s).root = "" ∨ (ofString s).root = "/" ∨ (ofString s).root = "//" := by
  rw [ofString]
  simp only [rootOf]
  split
  · exact Or.inr (Or.inl rfl)
  · exact Or.inr (Or.inr rfl)
  · exact Or.inr (Or.inl rfl)
  · exact Or.inl rfl

theorem null_notMem_root_ofString (s : String) : nullChar ∉ (ofString s).root.toList := by
  rcases root_ofString s with heq | heq | heq
  · rw [heq]
    decide
  · rw [heq]
    decide
  · rw [heq]
    decide

/-- A path that is read has the null characters of its text. -/
theorem nullFree_ofString {s : String} : (ofString s).NullFree ↔ nullChar ∉ s.toList := by
  have hslash : nullChar ≠ '/' := by decide
  constructor
  · intro h hmem
    rcases (Text.mem_splitOnChar hslash s).mpr hmem with ⟨part, hpart, hnull⟩
    refine h.parts part (List.mem_filter.mpr ⟨hpart, ?_⟩) hnull
    -- What has a null character is neither empty nor a dot.
    simp only [isProper, Bool.and_eq_true, bne_iff_ne, ne_eq]
    refine ⟨fun heq => ?_, fun heq => ?_⟩
    · rw [heq] at hnull
      exact absurd hnull (by decide)
    · rw [heq] at hnull
      exact absurd hnull (by decide)
  · intro h
    refine ⟨null_notMem_root_ofString s, fun part hpart hnull => ?_⟩
    exact h ((Text.mem_splitOnChar hslash s).mp ⟨part, (List.mem_filter.mp hpart).1, hnull⟩)

/-- A path below another one has the null characters of both. -/
theorem nullFree_join {p q : Path} (hq : q.isAbsolute = false) (hroot : nullChar ∉ q.root.toList) :
    (p.join q).NullFree ↔ p.NullFree ∧ q.NullFree := by
  rw [join, hq, if_neg Bool.false_ne_true]
  constructor
  · intro h
    exact ⟨⟨h.root, fun part hpart => h.parts part (List.mem_append_left _ hpart)⟩, hroot,
      fun part hpart => h.parts part (List.mem_append_right _ hpart)⟩
  · intro h
    refine ⟨h.1.root, fun part hpart => ?_⟩
    rcases List.mem_append.mp hpart with hpart | hpart
    · exact h.1.parts part hpart
    · exact h.2.parts part hpart

theorem NullFree.join {p q : Path} (hp : p.NullFree) (hq : q.NullFree) : (p.join q).NullFree := by
  by_cases habs : q.isAbsolute = true
  · rwa [join_of_isAbsolute habs]
  · exact (nullFree_join (Bool.eq_false_iff.mpr habs) hq.root).mpr ⟨hp, hq⟩

theorem NullFree.child {p : Path} (hp : p.NullFree) {s : String} (hs : nullChar ∉ s.toList) :
    (p.child s).NullFree :=
  hp.join (nullFree_ofString.mpr hs)

/-- Resolving double dots leaves components that were there, or double dots. -/
theorem mem_resolveDots {rooted : Bool} (ps : List String) :
    ∀ stack part, part ∈ resolveDots rooted stack ps → part ∈ stack ∨ part ∈ ps ∨ part = ".." := by
  induction ps with
  | nil =>
      intro stack part h
      rw [resolveDots, List.mem_reverse] at h
      exact Or.inl h
  | cons p ps ih =>
      intro stack part h
      unfold resolveDots at h
      have hlater : ∀ stack', (∀ q ∈ stack', q ∈ stack ∨ q ∈ p :: ps ∨ q = "..") →
          part ∈ resolveDots rooted stack' ps → part ∈ stack ∨ part ∈ p :: ps ∨ part = ".." := by
        intro stack' hstack hmem
        rcases ih stack' part hmem with hmem | hmem | hmem
        · exact hstack part hmem
        · exact Or.inr (Or.inl (List.mem_cons_of_mem p hmem))
        · exact Or.inr (Or.inr hmem)
      by_cases hdots : (p == "..") = true
      · rw [if_pos hdots] at h
        cases stack with
        | nil =>
            simp only at h
            by_cases hrooted : rooted = true
            · rw [if_pos hrooted] at h
              exact hlater [] (fun q hq => absurd hq List.not_mem_nil) h
            · rw [if_neg hrooted] at h
              exact hlater [".."] (fun q hq => Or.inr (Or.inr (List.mem_singleton.mp hq))) h
        | cons top rest =>
            simp only at h
            by_cases htop : (top == "..") = true
            · rw [if_pos htop] at h
              refine hlater (".." :: top :: rest) (fun q hq => ?_) h
              rcases List.mem_cons.mp hq with hq | hq
              · exact Or.inr (Or.inr hq)
              · exact Or.inl hq
            · rw [if_neg htop] at h
              exact hlater rest (fun q hq => Or.inl (List.mem_cons_of_mem top hq)) h
      · rw [if_neg hdots] at h
        refine hlater (p :: stack) (fun q hq => ?_) h
        rcases List.mem_cons.mp hq with hq | hq
        · exact Or.inr (Or.inl (hq ▸ List.mem_cons_self))
        · exact Or.inl hq

theorem NullFree.withoutDots {p : Path} (h : p.NullFree) : p.withoutDots.NullFree := by
  refine ⟨h.root, fun part hpart => ?_⟩
  rcases mem_resolveDots p.parts [] part hpart with hmem | hmem | rfl
  · exact absurd hmem List.not_mem_nil
  · exact h.parts part hmem
  · decide

end Path

end Stencil
