import Mathlib.Data.List.Infix
import Stencil.Text.Blank
import Stencil.Text.Lines
import Stencil.Text.Search

/-!
# Unified Line Breaks

What bringing the line breaks of a text to one spelling does to its parts.

Every spelling of a break becomes a line feed, and nothing else changes. So a
text whose breaks were unified can be cut anywhere and the cut be made in the
text itself: `exists_append_of_unifyBreaks` never has to cut between a carriage
return and the line feed that belongs to it. The other direction needs care
there. Two parts are unified on their own only if no break lies across them.

A break is blank in every spelling and part of no word, so looking at blanks,
or for words, comes to the same before and after.

## Theorems

* `induction_on_breaks`: Induction on a text along its breaks.
* `unifyBreaks_of_notMem`, `unifyBreaks_eq_self`: Texts that stay as they are.
* `exists_append_of_unifyBreaks`, `exists_of_unifyBreaks_fixed`,
  `unifyBreaks_append`: Parts of a text.
* `head?_unifyBreaks`, `mem_unifyBreaks`, `infix_unifyBreaks`,
  `getLast?_unifyBreaks`: What is kept.
* `dropBlanks_unifyBreaks`, `dropPrefix?_unifyBreaks`: What is taken off.
-/

namespace Stencil

namespace Text

/-- A line feed for a carriage return. -/
def unifiedBreak (c : Char) : Char :=
  if c == '\r' then '\n' else c

theorem unifiedBreak_of_ne {c : Char} (h : c ≠ '\r') : unifiedBreak c = c :=
  if_neg (mt beq_iff_eq.mp h)

theorem isBlank_unifiedBreak (c : Char) : isBlank (unifiedBreak c) = isBlank c := by
  by_cases hc : c = '\r'
  · rw [hc]
    decide
  · rw [unifiedBreak_of_ne hc]

theorem unifyBreaks_pair (cs : List Char) :
    unifyBreaks ('\r' :: '\n' :: cs) = '\n' :: unifyBreaks cs :=
  rfl

theorem unifyBreaks_cons {c : Char} {cs : List Char} (h : c = '\r' → cs.head? ≠ some '\n') :
    unifyBreaks (c :: cs) = unifiedBreak c :: unifyBreaks cs := by
  rw [unifyBreaks]
  · rfl
  · rintro cs' rfl rfl
    exact h rfl rfl

theorem unifyBreaks_cons_of_ne {c : Char} (h : c ≠ '\r') (cs : List Char) :
    unifyBreaks (c :: cs) = c :: unifyBreaks cs := by
  rw [unifyBreaks_cons (fun hc => absurd hc h), unifiedBreak_of_ne h]

theorem unifyBreaks_of_notMem {cs : List Char} (h : '\r' ∉ cs) : unifyBreaks cs = cs := by
  induction cs with
  | nil => rfl
  | cons c cs ih =>
      rw [List.mem_cons, not_or] at h
      rw [unifyBreaks_cons_of_ne (Ne.symm h.1), ih h.2]

/-- Induction on a text, with a break of two characters taken as one step. -/
@[elab_as_elim]
theorem induction_on_breaks {motive : List Char → Prop} (cs : List Char) (nil : motive [])
    (pair : ∀ cs, motive cs → motive ('\r' :: '\n' :: cs))
    (cons : ∀ c cs, (c = '\r' → cs.head? ≠ some '\n') → motive cs → motive (c :: cs)) :
    motive cs := by
  induction cs using unifyBreaks.induct with
  | case1 => exact nil
  | case2 cs ih => exact pair cs ih
  | case3 c cs hpair ih =>
      refine cons c cs (fun hc hhead => ?_) ih
      rcases List.head?_eq_some_iff.mp hhead with ⟨ds, rfl⟩
      exact hpair ds hc rfl

/-- The first character is the same, but for a break. -/
theorem head?_unifyBreaks (cs : List Char) :
    (unifyBreaks cs).head? = cs.head?.map unifiedBreak := by
  induction cs using induction_on_breaks with
  | nil => rfl
  | pair cs _ => rfl
  | cons c cs hpair _ => rw [unifyBreaks_cons hpair, List.head?_cons, List.head?_cons,
      Option.map_some]

/-- Two parts are unified on their own if no break reaches from one into the
    other. -/
theorem unifyBreaks_append {xs ys : List Char}
    (h : xs.getLast? = some '\r' → ys.head? ≠ some '\n') :
    unifyBreaks (xs ++ ys) = unifyBreaks xs ++ unifyBreaks ys := by
  induction xs using induction_on_breaks with
  | nil => rfl
  | pair xs ih =>
      rw [List.cons_append, List.cons_append, unifyBreaks_pair, unifyBreaks_pair, ih,
        List.cons_append]
      intro hlast
      exact h (by rw [List.getLast?_cons, List.getLast?_cons, hlast]; rfl)
  | cons c xs hpair ih =>
      rw [List.cons_append, unifyBreaks_cons, unifyBreaks_cons hpair, ih, List.cons_append]
      · intro hlast
        exact h (by rw [List.getLast?_cons, hlast]; rfl)
      · intro hc
        -- A break that ends the first part could only go on in the second.
        cases xs with
        | nil => exact h (congrArg some hc)
        | cons d xs => exact hpair hc

/-- Where the unified text can be cut, the text can be cut as well, and not
    inside of a break. -/
theorem exists_append_of_unifyBreaks {cs xs ys : List Char} (h : unifyBreaks cs = xs ++ ys) :
    ∃ xs' ys', cs = xs' ++ ys' ∧ unifyBreaks xs' = xs ∧ unifyBreaks ys' = ys ∧
      (xs'.getLast? = some '\r' → ys'.head? ≠ some '\n') := by
  have hempty (ys : List Char) : [].getLast? = some '\r' → ys.head? ≠ some '\n' :=
    fun hlast => absurd hlast.symm (Option.some_ne_none _)
  induction cs using induction_on_breaks generalizing xs with
  | nil =>
      rcases List.append_eq_nil_iff.mp h.symm with ⟨rfl, rfl⟩
      exact ⟨[], [], rfl, rfl, rfl, hempty _⟩
  | pair cs ih =>
      cases xs with
      | nil => exact ⟨[], '\r' :: '\n' :: cs, rfl, rfl, h, hempty _⟩
      | cons x xs =>
          rw [unifyBreaks_pair, List.cons_append, List.cons.injEq] at h
          rcases h with ⟨rfl, h⟩
          rcases ih h with ⟨xs', ys', rfl, rfl, hys, hcut⟩
          refine ⟨'\r' :: '\n' :: xs', ys', rfl, rfl, hys, fun hlast => hcut ?_⟩
          -- The break itself ends with a line feed.
          cases hxs' : xs'.getLast? with
          | none =>
              rw [List.getLast?_cons, List.getLast?_cons, hxs'] at hlast
              exact absurd (Option.some.inj hlast) (by decide)
          | some d =>
              rwa [List.getLast?_cons, List.getLast?_cons, hxs'] at hlast
  | cons c cs hpair ih =>
      cases xs with
      | nil => exact ⟨[], c :: cs, rfl, rfl, h, hempty _⟩
      | cons x xs =>
          rw [unifyBreaks_cons hpair, List.cons_append, List.cons.injEq] at h
          rcases h with ⟨rfl, h⟩
          rcases ih h with ⟨xs', ys', rfl, rfl, hys, hcut⟩
          refine ⟨c :: xs', ys', rfl, ?_, hys, fun hlast => ?_⟩
          · -- The first part does not start with the other half of a break.
            refine unifyBreaks_cons (fun hc hhead => hpair hc ?_)
            rw [List.head?_append, hhead, Option.some_or]
          · cases hxs' : xs'.getLast? with
            | none =>
                rw [List.getLast?_cons, hxs'] at hlast
                rw [List.getLast?_eq_none_iff.mp hxs'] at hpair
                exact hpair (Option.some.inj hlast)
            | some d =>
                rw [List.getLast?_cons, hxs'] at hlast
                exact hcut (hxs'.trans hlast)

theorem unifyBreaks_eq_nil {cs : List Char} (h : unifyBreaks cs = []) : cs = [] := by
  have hhead := head?_unifyBreaks cs
  rw [h] at hhead
  cases cs with
  | nil => rfl
  | cons c cs => exact absurd hhead.symm (Option.some_ne_none _)

/-- What is no break is kept. -/
theorem mem_unifyBreaks {c : Char} {cs : List Char} (h : c ∈ cs) (hc : c ≠ '\r') :
    c ∈ unifyBreaks cs := by
  induction cs using induction_on_breaks with
  | nil => exact h
  | pair cs ih =>
      rw [unifyBreaks_pair]
      rcases List.mem_cons.mp h with heq | h
      · exact absurd heq hc
      · rcases List.mem_cons.mp h with rfl | h
        · exact List.mem_cons_self
        · exact List.mem_cons_of_mem _ (ih h)
  | cons d cs hpair ih =>
      rw [unifyBreaks_cons hpair]
      rcases List.mem_cons.mp h with rfl | h
      · rw [unifiedBreak_of_ne hc]
        exact List.mem_cons_self
      · exact List.mem_cons_of_mem _ (ih h)

/-- Nothing but line feeds is new. -/
theorem mem_of_mem_unifyBreaks {c : Char} {cs : List Char} (h : c ∈ unifyBreaks cs)
    (hc : c ≠ '\n') : c ∈ cs := by
  induction cs using induction_on_breaks with
  | nil => exact h
  | pair cs ih =>
      rw [unifyBreaks_pair] at h
      rcases List.mem_cons.mp h with heq | h
      · exact absurd heq hc
      · exact List.mem_cons_of_mem _ (List.mem_cons_of_mem _ (ih h))
  | cons d cs hpair ih =>
      rw [unifyBreaks_cons hpair] at h
      rcases List.mem_cons.mp h with heq | h
      · unfold unifiedBreak at heq
        split at heq
        · exact absurd heq hc
        · exact heq ▸ List.mem_cons_self
      · exact List.mem_cons_of_mem _ (ih h)

/-- No carriage return is left. -/
theorem notMem_unifyBreaks (cs : List Char) : '\r' ∉ unifyBreaks cs := by
  induction cs using induction_on_breaks with
  | nil => exact List.not_mem_nil
  | pair cs ih =>
      rw [unifyBreaks_pair, List.mem_cons, not_or]
      exact ⟨by decide, ih⟩
  | cons c cs hpair ih =>
      rw [unifyBreaks_cons hpair, List.mem_cons, not_or]
      refine ⟨?_, ih⟩
      unfold unifiedBreak
      split
      · decide
      · next hc => exact fun heq => hc (beq_iff_eq.mpr heq.symm)

/-- A break leaves a line feed. -/
theorem feed_mem_unifyBreaks {cs : List Char} (h : '\r' ∈ cs) : '\n' ∈ unifyBreaks cs := by
  induction cs using induction_on_breaks with
  | nil => exact absurd h List.not_mem_nil
  | pair cs _ => exact List.mem_cons_self
  | cons c cs hpair ih =>
      rw [unifyBreaks_cons hpair]
      rcases List.mem_cons.mp h with rfl | h
      · exact List.mem_cons_self
      · exact List.mem_cons_of_mem _ (ih h)

/-- A text that has no line feed in the end had no break. -/
theorem unifyBreaks_eq_self {cs : List Char} (h : '\n' ∉ unifyBreaks cs) : unifyBreaks cs = cs :=
  unifyBreaks_of_notMem (mt feed_mem_unifyBreaks h)

/-- What has no line feed is found as it stands. -/
theorem exists_of_unifyBreaks_fixed {cs xs ys : List Char} (hxs : '\n' ∉ xs)
    (h : unifyBreaks cs = xs ++ ys) : ∃ ys', cs = xs ++ ys' ∧ unifyBreaks ys' = ys := by
  rcases exists_append_of_unifyBreaks h with ⟨xs', ys', rfl, rfl, hys, -⟩
  exact ⟨ys', by rw [unifyBreaks_eq_self hxs], hys⟩

/-- What stands between two characters that are no breaks does so before and
    after. -/
theorem exists_between_of_unifyBreaks {a b : Char} {cs xs : List Char} (ha : a ≠ '\n')
    (hb : b ≠ '\n') (h : unifyBreaks cs = a :: xs ++ [b]) :
    ∃ xs', cs = a :: xs' ++ [b] ∧ unifyBreaks xs' = xs := by
  rcases exists_of_unifyBreaks_fixed (show '\n' ∉ [a] by rwa [List.mem_singleton, eq_comm]) h with
    ⟨ys, rfl, hys⟩
  rcases exists_append_of_unifyBreaks hys with ⟨xs', zs, rfl, hxs, hzs, -⟩
  rcases exists_of_unifyBreaks_fixed (show '\n' ∉ [b] by rwa [List.mem_singleton, eq_comm])
    (hzs.trans (List.append_nil [b]).symm) with ⟨rest, rfl, hrest⟩
  rw [unifyBreaks_eq_nil hrest, List.append_nil]
  exact ⟨xs', rfl, hxs⟩

theorem isBlank_of_unifyBreaks {cs : List Char}
    (h : ∀ c ∈ unifyBreaks cs, isBlank c = true) : ∀ c ∈ cs, isBlank c = true := by
  intro c hc
  by_cases hreturn : c = '\r'
  · rw [hreturn]
    decide
  · exact h c (mem_unifyBreaks hc hreturn)

/-- Two characters that are no breaks still follow one another. -/
theorem infix_unifyBreaks {a b : Char} {cs : List Char} (ha : a ≠ '\r' ∧ a ≠ '\n')
    (hb : b ≠ '\r') (h : [a, b] <:+: cs) : [a, b] <:+: unifyBreaks cs := by
  rcases h with ⟨before, after, rfl⟩
  refine ⟨unifyBreaks before, unifyBreaks after, ?_⟩
  rw [List.append_assoc before, unifyBreaks_append, List.cons_append, List.singleton_append,
    unifyBreaks_cons_of_ne ha.1, unifyBreaks_cons_of_ne hb, List.append_assoc, List.cons_append,
    List.singleton_append]
  intro _
  rw [List.cons_append, List.head?_cons, ne_eq, Option.some.injEq]
  exact ha.2

theorem getLast?_unifyBreaks {c : Char} {cs : List Char} (hc : c ≠ '\r' ∧ c ≠ '\n')
    (h : c ∈ cs.getLast?) : c ∈ (unifyBreaks cs).getLast? := by
  rw [← List.dropLast_append_getLast? c h, unifyBreaks_append, unifyBreaks_cons_of_ne hc.1,
    List.getLast?_append]
  · rfl
  · intro _
    rw [List.head?_cons, ne_eq, Option.some.injEq]
    exact hc.2

theorem dropBlanks_unifyBreaks (cs : List Char) :
    dropBlanks (unifyBreaks cs) = unifyBreaks (dropBlanks cs) := by
  induction cs using induction_on_breaks with
  | nil => rfl
  | pair cs ih => exact ih
  | cons c cs hpair ih =>
      rw [unifyBreaks_cons hpair, dropBlanks, dropBlanks, List.dropWhile_cons,
        List.dropWhile_cons, isBlank_unifiedBreak]
      split
      · exact ih
      · exact (unifyBreaks_cons hpair).symm

/-- A word without breaks is taken off before or after. -/
theorem dropPrefix?_unifyBreaks {word : List Char} (h : '\r' ∉ word ∧ '\n' ∉ word)
    (cs : List Char) :
    dropPrefix? word (unifyBreaks cs) = (dropPrefix? word cs).map unifyBreaks := by
  induction word generalizing cs with
  | nil => rfl
  | cons w word ih =>
      rw [List.mem_cons, List.mem_cons, not_or, not_or] at h
      cases cs with
      | nil => rfl
      | cons c cs =>
          by_cases hc : c = '\r'
          · -- The word starts neither with the break nor with what it becomes.
            have hleft : dropPrefix? (w :: word) ('\r' :: cs) = none := by
              rw [dropPrefix?, if_neg (mt beq_iff_eq.mp (Ne.symm h.1.1))]
            have hhead : (unifyBreaks ('\r' :: cs)).head? = some '\n' := head?_unifyBreaks _
            rw [hc, hleft, Option.map_none]
            rcases List.head?_eq_some_iff.mp hhead with ⟨ds, hds⟩
            rw [hds, dropPrefix?, if_neg (mt beq_iff_eq.mp (Ne.symm h.2.1))]
          · rw [unifyBreaks_cons_of_ne hc, dropPrefix?, dropPrefix?]
            split
            · exact ih ⟨h.1.2, h.2.2⟩ cs
            · rfl

end Text

end Stencil
