import Mathlib.Data.List.Basic
import Mathlib.Data.List.Nodup
import Stencil.Reference.Resolver

/-!
# Sorted Texts

What sorting texts and dropping their duplicates gives.

Every list that a report shows is `sortedSet` of something: watch sets,
candidates of an ambiguous name, the files that failed. Two facts settle all
of them. The result is strictly ascending, and it has the members it was made
from. A strictly ascending list is determined by its members, so two sorted
sets are equal as soon as the same texts went in, however they were found.

## Theorems

* `nodup_eraseDups`: Dropping duplicates leaves none.
* `eraseDups_of_nodup`: Where there are none, nothing is dropped.
* `sortTexts_pairwise`: Sorted texts ascend.
* `mem_sortedSet`: A sorted set has the members it was made from.
* `sortedSet_pairwise`: A sorted set ascends strictly.
* `eq_of_pairwise_lt`: A strictly ascending list is determined by its members.
* `sortedSet_congr`: Sorted sets of the same members are equal.
* `sortedSet_of_pairwise`: A strictly ascending list is its own sorted set.
-/

namespace Stencil

theorem nodup_eraseDups {α : Type} [BEq α] [LawfulBEq α] (as : List α) :
    as.eraseDups.Nodup := by
  cases as with
  | nil => simp only [List.eraseDups_nil, List.nodup_nil]
  | cons a as =>
      rw [List.eraseDups_cons, List.nodup_cons]
      -- The head was filtered out of what follows it.
      refine ⟨fun hmem => ?_, nodup_eraseDups _⟩
      rw [List.mem_eraseDups, List.mem_filter] at hmem
      simp only [BEq.rfl, Bool.not_true, Bool.false_eq_true, and_false] at hmem
termination_by as.length
decreasing_by
  have hlen := List.length_filter_le (fun b => !b == a) as
  rw [List.length_cons]
  omega

theorem eraseDups_of_nodup {α : Type} [BEq α] [LawfulBEq α] {as : List α} (h : as.Nodup) :
    as.eraseDups = as := by
  induction as with
  | nil => exact List.eraseDups_nil
  | cons a as ih =>
      rw [List.nodup_cons] at h
      have hkeep : (as.filter fun b => !b == a) = as := by
        rw [List.filter_eq_self]
        intro b hb
        have hne : b ≠ a := fun heq => h.1 (heq ▸ hb)
        rw [beq_eq_false_iff_ne.mpr hne, Bool.not_false]
      rw [List.eraseDups_cons, hkeep, ih h.2]

theorem mem_sortTexts {s : String} {ss : List String} : s ∈ sortTexts ss ↔ s ∈ ss :=
  List.mem_mergeSort

theorem sortTexts_perm (ss : List String) : (sortTexts ss).Perm ss :=
  List.mergeSort_perm ss _

/-- The comparison that sorting uses is a total order, so the result ascends. -/
theorem sortTexts_pairwise (ss : List String) : (sortTexts ss).Pairwise (· ≤ ·) := by
  have hsorted : (sortTexts ss).Pairwise fun a b => (!decide (b < a)) = true := by
    refine List.pairwise_mergeSort (fun a b c hab hbc => ?_) (fun a b => ?_) ss
    · simp only [Bool.not_eq_true', decide_eq_false_iff_not, String.not_lt] at hab hbc ⊢
      exact String.le_trans hab hbc
    · simp only [Bool.or_eq_true, Bool.not_eq_true', decide_eq_false_iff_not, String.not_lt]
      exact String.le_total a b
  refine hsorted.imp (fun {a b} hab => ?_)
  simpa only [Bool.not_eq_true', decide_eq_false_iff_not, String.not_lt] using hab

theorem mem_sortedSet {s : String} {ss : List String} : s ∈ sortedSet ss ↔ s ∈ ss := by
  rw [sortedSet, mem_sortTexts, List.mem_eraseDups]

theorem sortedSet_pairwise (ss : List String) : (sortedSet ss).Pairwise (· < ·) := by
  have hle := sortTexts_pairwise ss.eraseDups
  have hne : (sortTexts ss.eraseDups).Pairwise (· ≠ ·) :=
    (sortTexts_perm ss.eraseDups).nodup_iff.mpr (nodup_eraseDups ss)
  refine (hle.and hne).imp (fun {a b} hab => ?_)
  by_contra hlt
  exact hab.2 (String.le_antisymm hab.1 (String.not_lt.mp hlt))

/-- Two strictly ascending lists with the same members are equal: the heads
    are both least, and each tail keeps what is above its head. -/
theorem eq_of_pairwise_lt {as bs : List String} (ha : as.Pairwise (· < ·))
    (hb : bs.Pairwise (· < ·)) (h : ∀ s, s ∈ as ↔ s ∈ bs) : as = bs := by
  have hna : as.Nodup := ha.imp (fun hab => String.ne_of_lt hab)
  have hnb : bs.Nodup := hb.imp (fun hab => String.ne_of_lt hab)
  have hperm : as.Perm bs := (List.perm_ext_iff_of_nodup hna hnb).mpr h
  refine hperm.eq_of_pairwise (fun a b _ _ hab hba => ?_) ha hb
  exact absurd hba (String.lt_asymm hab)

theorem sortedSet_congr {as bs : List String} (h : ∀ s, s ∈ as ↔ s ∈ bs) :
    sortedSet as = sortedSet bs :=
  eq_of_pairwise_lt (sortedSet_pairwise as) (sortedSet_pairwise bs)
    (fun s => by rw [mem_sortedSet, mem_sortedSet, h s])

theorem sortedSet_of_pairwise {as : List String} (h : as.Pairwise (· < ·)) :
    sortedSet as = as :=
  eq_of_pairwise_lt (sortedSet_pairwise as) h (fun _ => mem_sortedSet)

end Stencil
