import Stencil.Proofs.Template.Piece

/-!
# How a Piece Ends

The last character of a piece of a tag.

A tag may have a sign just before its close, which then belongs to the close.
So nothing inside of a tag ends in a sign where the close stands, unless a sign
is read as a symbol of its own. A numeral has a sign inside of it at most, and
ends in a digit.

## Main definitions

* `IsUnsigned`, `EndsUnsigned`: Characters without signs, and with none at their
  end.

## Theorems

* `takeFloat?_ends`, `takeInteger?_ends`: Numerals do not end in signs.
* `piece_sign`: What ends in a sign is a symbol.
-/

namespace Stencil

namespace Template

open Text

/-- The characters hold no sign. -/
def IsUnsigned (cs : List Char) : Prop :=
  ∀ e ∈ cs, e ≠ '-' ∧ e ≠ '+'

/-- The characters do not end in a sign. -/
def EndsUnsigned (cs : List Char) : Prop :=
  ∀ e ∈ cs.getLast?, e ≠ '-' ∧ e ≠ '+'

theorem isUnsigned_nil : IsUnsigned [] :=
  fun _ h => absurd h List.not_mem_nil

theorem IsUnsigned.cons {c : Char} {cs : List Char} (hc : c ≠ '-' ∧ c ≠ '+') (h : IsUnsigned cs) :
    IsUnsigned (c :: cs) := by
  intro e he
  rcases List.mem_cons.mp he with rfl | he
  · exact hc
  · exact h e he

theorem IsUnsigned.ends {cs : List Char} (h : IsUnsigned cs) : EndsUnsigned cs :=
  fun e he => h e (List.mem_of_getLast? he)

theorem isUnsigned_of_true {f : Char → Bool} {cs : List Char} (minus : f '-' = false)
    (plus : f '+' = false) (h : ∀ c ∈ cs, f c = true) : IsUnsigned cs := by
  intro e he
  refine ⟨?_, ?_⟩
  · rintro rfl
    exact Bool.noConfusion (minus.symm.trans (h _ he))
  · rintro rfl
    exact Bool.noConfusion (plus.symm.trans (h _ he))

theorem EndsUnsigned.append {cs ds : List Char} (hc : EndsUnsigned cs) (hd : EndsUnsigned ds) :
    EndsUnsigned (cs ++ ds) := by
  intro e he
  rw [List.getLast?_append] at he
  cases hl : ds.getLast? with
  | none =>
    rw [hl, Option.none_or] at he
    exact hc e he
  | some e' =>
    rw [hl, Option.some_or] at he
    exact hd e (hl ▸ he)

theorem EndsUnsigned.of_suffix {cs ds : List Char} (h : EndsUnsigned cs) (hd : ds <:+ cs) :
    EndsUnsigned ds := by
  rcases hd with ⟨before, rfl⟩
  intro e he
  exact h e (by rw [List.getLast?_append, he, Option.some_or]; rfl)

theorem EndsUnsigned.append_right {cs ds : List Char} (present : ds ≠ [])
    (hd : EndsUnsigned ds) : EndsUnsigned (cs ++ ds) := by
  intro e he
  rw [List.getLast?_append, List.getLast?_eq_some_getLast present, Option.some_or] at he
  exact hd e (by rw [List.getLast?_eq_some_getLast present]; exact he)

theorem digitRun_isUnsigned {f : Char → Bool} (minus : f '-' = false) (plus : f '+' = false)
    (after : Bool) (cs : List Char) : IsUnsigned (cs.take (digitRun f after cs).2) := by
  have digit {c : Char} (hc : f c = true) : c ≠ '-' ∧ c ≠ '+' := by
    refine ⟨?_, ?_⟩
    · rintro rfl
      exact Bool.noConfusion (minus.symm.trans hc)
    · rintro rfl
      exact Bool.noConfusion (plus.symm.trans hc)
  fun_induction digitRun f after cs with
  | case1 => exact isUnsigned_nil
  | case2 after c cs both ds n hd ih =>
    rw [hd] at ih
    rw [Bool.and_eq_true] at both
    exact (ih.cons (digit both.2)).cons ⟨by decide, by decide⟩
  | case3 => exact isUnsigned_nil
  | case4 after c cs _ hc ds n hd ih =>
    rw [hd] at ih
    exact ih.cons (digit hc)
  | case5 => exact isUnsigned_nil

theorem takeExponent?_ends {cs : List Char} {e : Int} {n : Nat}
    (h : takeExponent? cs = some (e, n)) : EndsUnsigned (cs.take n) := by
  -- Behind the sign there is a digit at least, and it is the last character.
  have digits {ds : List Char} (present : (digitRun isDecimal false ds).1.isEmpty ≠ true) :
      EndsUnsigned (ds.take (digitRun isDecimal false ds).2) ∧
        ds.take (digitRun isDecimal false ds).2 ≠ [] := by
    refine ⟨(digitRun_isUnsigned (by decide) (by decide) false ds).ends, ?_⟩
    rcases digitRun_head (fun none => present (List.isEmpty_iff.mpr none)) with
      ⟨pos, c, rest, rfl, -⟩
    intro none
    rcases List.take_eq_nil_iff.mp none with zero | none
    · omega
    · exact absurd none (List.cons_ne_nil _ _)
  unfold takeExponent? at h
  split at h
  · split at h
    · next mark rest he =>
      split at h
      next _ negative signed ds hm =>
        -- The sign may be missing; in any case it is counted.
        have split : ∃ sign : List Char, rest = sign ++ ds ∧ signed = sign.length := by
          split at hm
          · cases hm
            exact ⟨['-'], rfl, rfl⟩
          · cases hm
            exact ⟨['+'], rfl, rfl⟩
          · cases hm
            exact ⟨[], rfl, rfl⟩
        rcases split with ⟨sign, rfl, rfl⟩
        dsimp only at h
        by_cases present : (digitRun isDecimal false ds).1.isEmpty = true
        · rw [if_pos present] at h
          exact absurd h (Option.some_ne_none _).symm
        · rw [if_neg present] at h
          injection h with h
          injection h with _ count
          rcases digits present with ⟨ends, some_digit⟩
          rw [← count, Nat.add_comm _ sign.length, List.take_succ_cons, List.take_length_add_append,
            ← List.cons_append]
          exact EndsUnsigned.append_right some_digit ends
    · exact absurd h (Option.some_ne_none _).symm
  · exact absurd h (Option.some_ne_none _).symm

theorem takeFraction?_isUnsigned {cs ds : List Char} {n : Nat}
    (h : takeFraction? cs = some (ds, n)) : IsUnsigned (cs.take n) := by
  unfold takeFraction? at h
  split at h
  · next rest =>
    by_cases none : (digitRun isDecimal false rest).1.isEmpty = true
    · simp only [none, if_true] at h
      exact absurd h (Option.some_ne_none _).symm
    · simp only [none, Bool.false_eq_true, if_false] at h
      injection h with h
      injection h with _ count
      rw [← count, List.take_succ_cons]
      exact (digitRun_isUnsigned (by decide) (by decide) false rest).cons ⟨by decide, by decide⟩
  · exact absurd h (Option.some_ne_none _).symm

theorem takeFloat?_ends {cs : List Char} {x : Binary64} {n : Nat}
    (h : takeFloat? cs = some (x, n)) : EndsUnsigned (cs.take n) := by
  have whole := digitRun_isUnsigned (f := isDecimal) (by decide) (by decide) false cs
  unfold takeFloat? at h
  cases none : (digitRun isDecimal false cs).1.isEmpty with
  | true =>
    simp only [none, if_true] at h
    exact absurd h (Option.some_ne_none _).symm
  | false =>
    simp only [none, Bool.false_eq_true, if_false] at h
    -- The number ends in its exponent, its fraction or its whole part, and each of these ends in a
    -- digit.
    split at h
    · next part m hf =>
      have fraction := takeFraction?_isUnsigned hf
      split at h
      · next e k he =>
        injection h with h
        injection h with _ count
        rw [← count, List.take_add, List.take_add, ← List.drop_drop]
        exact (whole.ends.append fraction.ends).append (takeExponent?_ends he)
      · injection h with h
        injection h with _ count
        rw [← count, List.take_add]
        exact whole.ends.append fraction.ends
    · rcases Option.map_eq_some_iff.mp h with ⟨⟨e, k⟩, he, h⟩
      injection h with _ count
      rw [← count, List.take_add]
      exact whole.ends.append (takeExponent?_ends he)

theorem takeInteger?_ends {cs : List Char} {k n : Nat} (h : takeInteger? cs = some (k, n)) :
    EndsUnsigned (cs.take n) := by
  have zero : '0' ≠ '-' ∧ '0' ≠ '+' := ⟨by decide, by decide⟩
  -- With a base, the number ends in its digits, behind a zero and the letter.
  have based {base : Nat} {f : Char → Bool} {mark : Char} {rest : List Char} (minus : f '-' = false)
      (plus : f '+' = false) (hm : mark ≠ '-' ∧ mark ≠ '+')
      (h : takeBased? base f rest = some (k, n)) :
      EndsUnsigned (('0' :: mark :: rest).take n) := by
    unfold takeBased? at h
    cases none : (digitRun f true rest).1.isEmpty with
    | true =>
      simp only [none, if_true] at h
      exact absurd h (Option.some_ne_none _).symm
    | false =>
      simp only [none, Bool.false_eq_true, if_false] at h
      injection h with h
      injection h with _ count
      rw [← count, List.take_succ_cons, List.take_succ_cons]
      exact (((digitRun_isUnsigned minus plus true rest).cons hm).cons zero).ends
  unfold takeInteger? at h
  dsimp only at h
  split at h
  · next found hb =>
    split at hb
    · next b rest =>
      rw [Option.some.inj h] at hb
      have mark {x y : Char} (hx : x ≠ '-' ∧ x ≠ '+') (hy : y ≠ '-' ∧ y ≠ '+')
          (hb : (b == x || b == y) = true) : b ≠ '-' ∧ b ≠ '+' := by
        rcases Bool.or_eq_true_iff.mp hb with hb | hb
        · exact eq_of_beq hb ▸ hx
        · exact eq_of_beq hb ▸ hy
      split at hb
      · next hm =>
        exact based (by decide) (by decide) (mark (by decide) (by decide) hm) hb
      · split at hb
        · next hm =>
          exact based (by decide) (by decide) (mark (by decide) (by decide) hm) hb
        · split at hb
          · next hm =>
            exact based (by decide) (by decide) (mark (by decide) (by decide) hm) hb
          · exact absurd hb (Option.some_ne_none _).symm
    · exact absurd hb (Option.some_ne_none _).symm
  · split at h
    · next rest _ =>
      injection h with h
      injection h with _ count
      rw [← count, List.take_succ_cons]
      exact ((digitRun_isUnsigned (by decide) (by decide) true rest).cons zero).ends
    · next c rest _ _ =>
      split at h
      · next bounds =>
        injection h with h
        injection h with _ count
        rw [Bool.and_eq_true, decide_eq_true_eq, decide_eq_true_eq] at bounds
        have low : '0' ≤ c := Nat.le_trans (by decide) bounds.1
        have digit := isDecimal_of_le low bounds.2
        rw [← count, List.take_succ_cons]
        refine ((digitRun_isUnsigned (by decide) (by decide) true rest).cons ⟨?_, ?_⟩).ends
        · rintro rfl
          exact absurd digit (by decide)
        · rintro rfl
          exact absurd digit (by decide)
      · exact absurd h (Option.some_ne_none _).symm
    · exact absurd h (Option.some_ne_none _).symm

/-- A symbol that ends in a sign is that sign. -/
theorem symbol?_sign {cs : List Char} {s : Symbol} (h : symbol? cs = some s) :
    EndsUnsigned (cs.take s.text.length) ∨
      ∃ e rest, cs = e :: rest ∧ (e = '-' ∨ e = '+') ∧ (s = .sub ∨ s = .add) := by
  unfold symbol? at h
  split at h
  all_goals first
    | exact absurd h (Option.some_ne_none _).symm
    | cases h
      exact .inr ⟨_, _, rfl, by decide, by decide⟩
    | cases h
      exact .inl (@IsUnsigned.cons _ [_] (by decide) (.cons (by decide) isUnsigned_nil)).ends
    | cases h
      exact .inl (IsUnsigned.cons (by decide) isUnsigned_nil).ends

/-- What ends in a sign inside of a tag is that sign alone, and leaves the open
brackets as they are. -/
theorem piece_sign {c : Cursor} {opened : List Symbol} {p : Piece}
    (h : piece c opened = .ok p) :
    EndsUnsigned (c.rest.take p.count) ∨
      ∃ e, (e = '-' ∨ e = '+') ∧ c.rest.take p.count = [e] ∧ p.opened = opened := by
  cases pieceAt_of_piece h with
  | blanks pos =>
    rcases exists_takeWhile isBlank c.rest with ⟨w, after, hw, -, all, inner, -⟩
    dsimp only
    rw [blankCount, hw, all, List.take_left]
    exact .inl (isUnsigned_of_true (by decide) (by decide) inner).ends
  | float _ hx => exact .inl (takeFloat?_ends hx)
  | integer _ hk => exact .inl (takeInteger?_ends hk)
  | name =>
    rcases exists_takeWhile continuesWord c.rest with ⟨w, after, hw, -, all, inner, -⟩
    rw [hw]
    dsimp only
    rw [all, List.take_left]
    exact .inl (isUnsigned_of_true (by decide) (by decide) inner).ends
  | string hs =>
    rcases stringPiece?_spec hs with ⟨q, body, after, s, quote, hcs, rfl, -⟩
    have count : body.length + 2 = (q :: body ++ [q]).length := by
      rw [List.length_append, List.length_cons]
      rfl
    dsimp only
    rw [hcs, count, List.take_left]
    refine .inl (EndsUnsigned.append_right (List.cons_ne_nil _ _) (IsUnsigned.ends ?_))
    rcases quote with rfl | rfl
    · exact IsUnsigned.cons ⟨by decide, by decide⟩ isUnsigned_nil
    · exact IsUnsigned.cons ⟨by decide, by decide⟩ isUnsigned_nil
  | symbol _ _ hs hb =>
    -- Only the symbols for plus and minus are signs, and they open no bracket.
    rcases symbol?_sign hs with ends | ⟨e, rest, hcs, he, rfl | rfl⟩
    · exact .inl ends
    · cases hb
      exact .inr ⟨e, he, by rw [hcs]; rfl, rfl⟩
    · cases hb
      exact .inr ⟨e, he, by rw [hcs]; rfl, rfl⟩

end Template

end Stencil
