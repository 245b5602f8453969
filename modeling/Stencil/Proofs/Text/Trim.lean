import Stencil.Text.Blank

/-!
# Trimming

A text is trimmed once and for all.

What is left of a list after trimming neither starts nor ends with a character
of the set that was trimmed away, and a list of which that is true is left
alone. Both ends are the same fact, because trimming on the right is trimming
on the left read backwards.

## Theorems

* `Text.head?_dropWhile`, `Text.getLast?_dropRightWhile`: What is left at an end.
* `Text.dropWhile_eq_self`, `Text.dropRightWhile_eq_self`: What is left alone.
* `Text.takeWhile_append_stop`, `Text.eq_of_runs`: A run ends where it stops.
* `Text.trim_of_ends`: A text that is trimmed is left alone.
* `Text.trimChars_trimChars`: Trimming twice is trimming once.
* `Text.filter_trimChars`: Trimming blanks takes nothing else away.
-/

namespace Stencil

namespace Text

variable {p : Char → Bool}

/-- What is left does not start with a character of the set. -/
theorem head?_dropWhile (p : Char → Bool) (cs : List Char) :
    ∀ c ∈ (cs.dropWhile p).head?, p c = false := by
  intro c hc
  have hleft := List.head?_dropWhile_not p cs
  rw [Option.mem_def.mp hc] at hleft
  exact hleft

theorem dropWhile_eq_self {cs : List Char} (h : ∀ c ∈ cs.head?, p c = false) :
    cs.dropWhile p = cs := by
  cases cs with
  | nil => rfl
  | cons c cs =>
      have hc : ¬ p c = true := by
        rw [h c rfl]
        exact Bool.false_ne_true
      rw [List.dropWhile_cons, if_neg hc]

/-- A run of characters of the set ends where one follows that is none. -/
theorem takeWhile_append_stop {w rest : List Char} (hw : ∀ c ∈ w, p c = true)
    (h : ∀ c ∈ rest.head?, p c = false) : (w ++ rest).takeWhile p = w := by
  rw [List.takeWhile_append_of_pos hw]
  cases rest with
  | nil => rw [List.takeWhile_nil, List.append_nil]
  | cons c rest =>
      rw [List.takeWhile_cons_of_neg (by rw [h c rfl]; exact Bool.false_ne_true), List.append_nil]

/-- Two such runs at the start of one list are the same. -/
theorem eq_of_runs {w v xs ys : List Char} (h : w ++ xs = v ++ ys) (hw : ∀ c ∈ w, p c = true)
    (hv : ∀ c ∈ v, p c = true) (hxs : ∀ c ∈ xs.head?, p c = false)
    (hys : ∀ c ∈ ys.head?, p c = false) : w = v ∧ xs = ys := by
  have hrun : w = v := by
    rw [← takeWhile_append_stop hw hxs, h, takeWhile_append_stop hv hys]
  rw [hrun] at h
  exact ⟨hrun, List.append_cancel_left h⟩

/-- Trimming on the right leaves a beginning. -/
theorem dropRightWhile_starts (p : Char → Bool) (cs : List Char) :
    dropRightWhile p cs <+: cs := by
  rw [← List.reverse_suffix, dropRightWhile, List.reverse_reverse]
  exact List.dropWhile_suffix p

/-- What is left does not end with a character of the set. -/
theorem getLast?_dropRightWhile (p : Char → Bool) (cs : List Char) :
    ∀ c ∈ (dropRightWhile p cs).getLast?, p c = false := by
  rw [dropRightWhile, List.getLast?_reverse]
  exact head?_dropWhile p cs.reverse

theorem dropRightWhile_eq_self {cs : List Char} (h : ∀ c ∈ cs.getLast?, p c = false) :
    dropRightWhile p cs = cs := by
  rw [← List.head?_reverse] at h
  rw [dropRightWhile, dropWhile_eq_self h, List.reverse_reverse]

theorem mem_of_mem_trim {s : String} {c : Char} (h : c ∈ (trim s p).toList) : c ∈ s.toList := by
  rw [trim, String.toList_ofList] at h
  exact (List.dropWhile_suffix p).mem ((dropRightWhile_starts p _).mem h)

/-- Trimming at both ends leaves no character of the set at the start. -/
theorem head?_trim (p : Char → Bool) (s : String) :
    ∀ c ∈ (trim s p).toList.head?, p c = false := by
  rw [trim, String.toList_ofList]
  intro c hc
  rcases dropRightWhile_starts p (s.toList.dropWhile p) with ⟨rest, hrest⟩
  refine head?_dropWhile p s.toList c ?_
  rw [← hrest, List.head?_append, Option.mem_def.mp hc]
  rfl

/-- Nor at the end. -/
theorem getLast?_trim (p : Char → Bool) (s : String) :
    ∀ c ∈ (trim s p).toList.getLast?, p c = false := by
  rw [trim, String.toList_ofList]
  exact getLast?_dropRightWhile p _

/-- A text that neither starts nor ends with a character of the set is left
    alone. -/
theorem trim_of_ends {s : String} (hstart : ∀ c ∈ s.toList.head?, p c = false)
    (hend : ∀ c ∈ s.toList.getLast?, p c = false) : trim s p = s := by
  rw [trim, dropWhile_eq_self hstart, dropRightWhile_eq_self hend, String.ofList_toList]

/-- Trimming does to a list what it does to a text. -/
theorem trimChars_eq (cs : List Char) : trimChars cs = (trim (String.ofList cs)).toList := by
  rw [trim, String.toList_ofList, String.toList_ofList]
  rfl

theorem trimChars_trimChars (cs : List Char) : trimChars (trimChars cs) = trimChars cs := by
  rw [trimChars_eq, trimChars_eq, String.ofList_toList,
    trim_of_ends (head?_trim isBlank _) (getLast?_trim isBlank _)]

theorem mem_of_mem_trimChars {cs : List Char} {c : Char} (h : c ∈ trimChars cs) : c ∈ cs := by
  rw [trimChars_eq] at h
  have hc := mem_of_mem_trim h
  rwa [String.toList_ofList] at hc

/-- The first character of a trimmed text is not blank. -/
theorem head_of_trimChars {c : Char} {cs : List Char} (h : trimChars (c :: cs) = c :: cs) :
    isBlank c = false := by
  refine head?_trim isBlank (String.ofList (c :: cs)) c ?_
  rw [← trimChars_eq, h]
  rfl

theorem filter_dropWhile_not (p : Char → Bool) (cs : List Char) :
    (cs.dropWhile p).filter (!p ·) = cs.filter (!p ·) := by
  induction cs with
  | nil => rfl
  | cons c cs ih =>
      rw [List.dropWhile_cons]
      by_cases hc : p c = true
      · rw [if_pos hc, ih, List.filter_cons, hc, Bool.not_true, if_neg Bool.false_ne_true]
      · rw [if_neg hc]

theorem filter_trimChars (cs : List Char) :
    (trimChars cs).filter (!isBlank ·) = cs.filter (!isBlank ·) := by
  rw [trimChars, dropRightWhile, List.filter_reverse, filter_dropWhile_not, List.filter_reverse,
    List.reverse_reverse, dropBlanks, filter_dropWhile_not]

end Text

end Stencil
