import Mathlib.Data.List.Basic
import Mathlib.Data.List.TakeWhile
import Stencil.Text.Search

/-!
# Splitting and Joining

What was joined with a separator splits into the same pieces.

Paths are written by joining names with slashes and read by splitting at them.
Nothing is lost on the way as long as no name has a slash in it, so a path
written from names determines them.

## Theorems

* `Text.dropPrefix?_append`, `Text.eq_append_of_dropPrefix?`: What stands at the
  start of a text is taken off.
* `Text.startsWith_iff`: The test for a beginning finds it and nothing else.
* `Text.splitOnChar_of_not_mem`: A text without the separator is one piece.
* `Text.splitOnChar_append`: A piece, a separator and a text split apart.
* `Text.splitOnChar_join`: So do two texts with a separator between them.
* `Text.splitOnChar_joinStrings`: Joined pieces split into themselves.
* `Text.mem_splitChars`, `Text.notMem_of_mem_splitChars`: The pieces hold what
  the text holds, apart from separators.
* `Text.utf8ByteSize_le_of_mem_splitOnChar`: No piece is longer than the text.
* `Text.exists_splitOnChar_eq`: What is put before a text stays in one piece.
* `Text.splitChars_joinWith`: The same for lists of characters.
* `Text.joinStrings_inj`: Joined pieces determine the pieces.
* `Text.cutLast_append`, `Text.cutLast_of_not_mem`: Cutting off the last piece.
* `Text.replaceAll_char`: Replacing a character replaces it wherever it stands.
-/

namespace Stencil

namespace Text

/-- What a list goes on with after a fixed beginning. -/
theorem eq_append_of_dropPrefix? {ps cs rest : List Char} (h : dropPrefix? ps cs = some rest) :
    cs = ps ++ rest := by
  induction ps generalizing cs with
  | nil =>
      rw [dropPrefix?, Option.some.injEq] at h
      exact h
  | cons p ps ih =>
      cases cs with
      | nil => exact absurd h (by simp only [dropPrefix?, reduceCtorEq, not_false_eq_true])
      | cons c cs =>
          rw [dropPrefix?] at h
          by_cases hpc : (p == c) = true
          · rw [if_pos hpc] at h
            rw [ih h, eq_of_beq hpc, List.cons_append]
          · rw [if_neg hpc] at h
            exact absurd h (Option.some_ne_none _).symm

theorem dropPrefix?_append (ps cs : List Char) : dropPrefix? ps (ps ++ cs) = some cs := by
  induction ps with
  | nil => rfl
  | cons p ps ih => rw [List.cons_append, dropPrefix?, beq_self_eq_true, if_pos rfl, ih]

theorem startsWith_iff {start cs : List Char} : startsWith start cs = true ↔ start <+: cs := by
  rw [startsWith, Option.isSome_iff_exists]
  constructor
  · rintro ⟨rest, hrest⟩
    exact ⟨rest, (eq_append_of_dropPrefix? hrest).symm⟩
  · rintro ⟨rest, rfl⟩
    exact ⟨rest, dropPrefix?_append start rest⟩

/-- What ends with a list has the list after something else. -/
theorem exists_eq_append_of_endsWith {stop cs : List Char} (h : endsWith stop cs = true) :
    ∃ stem, cs = stem ++ stop := by
  rcases Option.isSome_iff_exists.mp h with ⟨rest, hrest⟩
  refine ⟨rest.reverse, ?_⟩
  rw [← List.reverse_inj, List.reverse_append, List.reverse_reverse]
  exact eq_append_of_dropPrefix? hrest

theorem splitChars_of_not_mem {sep : Char} {cs : List Char} (h : sep ∉ cs) (piece : List Char) :
    splitChars sep piece cs = [piece.reverse ++ cs] := by
  induction cs generalizing piece with
  | nil => rw [splitChars, List.append_nil]
  | cons c cs ih =>
      rw [List.mem_cons, not_or] at h
      rw [splitChars, if_neg (fun heq => h.1 (eq_of_beq heq).symm), ih h.2, List.reverse_cons,
        List.append_assoc, List.singleton_append]

theorem splitChars_append {sep : Char} {cs : List Char} (h : sep ∉ cs) (piece rest : List Char) :
    splitChars sep piece (cs ++ sep :: rest) =
      (piece.reverse ++ cs) :: splitChars sep [] rest := by
  induction cs generalizing piece with
  | nil => rw [List.nil_append, splitChars, beq_self_eq_true, if_pos rfl, List.append_nil]
  | cons c cs ih =>
      rw [List.mem_cons, not_or] at h
      rw [List.cons_append, splitChars, if_neg (fun heq => h.1 (eq_of_beq heq).symm), ih h.2,
        List.reverse_cons, List.append_assoc, List.singleton_append]

theorem splitOnChar_of_not_mem {sep : Char} {s : String} (h : sep ∉ s.toList) :
    splitOnChar sep s = [s] := by
  rw [splitOnChar, splitChars_of_not_mem h, List.reverse_nil, List.nil_append, List.map_singleton,
    String.ofList_toList]

theorem splitOnChar_append {sep : Char} {s : String} (h : sep ∉ s.toList) (t : String) :
    splitOnChar sep (s ++ String.ofList [sep] ++ t) = s :: splitOnChar sep t := by
  rw [splitOnChar, String.toList_append, String.toList_append, String.toList_ofList,
    List.append_assoc, List.singleton_append, splitChars_append h, List.reverse_nil,
    List.nil_append, List.map_cons, String.ofList_toList]
  rfl

/-- Joined pieces split into themselves, unless there are none: nothing joined
    is the empty text, which is one piece. -/
theorem splitOnChar_joinStrings (sep : Char) {parts : List String} (hne : parts ≠ [])
    (h : ∀ p ∈ parts, sep ∉ p.toList) :
    splitOnChar sep (joinStrings (String.ofList [sep]) parts) = parts := by
  induction parts with
  | nil => exact absurd rfl hne
  | cons p ps ih =>
      cases ps with
      | nil => exact splitOnChar_of_not_mem (h p List.mem_cons_self)
      | cons q qs =>
          rw [joinStrings, splitOnChar_append (h p List.mem_cons_self),
            ih (List.cons_ne_nil q qs) (fun r hr => h r (List.mem_cons_of_mem p hr))]

theorem joinStrings_inj (sep : Char) {parts parts' : List String} (hne : parts ≠ [])
    (hne' : parts' ≠ []) (h : ∀ p ∈ parts, sep ∉ p.toList) (h' : ∀ p ∈ parts', sep ∉ p.toList)
    (heq : joinStrings (String.ofList [sep]) parts = joinStrings (String.ofList [sep]) parts') :
    parts = parts' := by
  rw [← splitOnChar_joinStrings sep hne h, heq, splitOnChar_joinStrings sep hne' h']

theorem joinStrings_append (sep : String) {ps qs : List String} (hp : ps ≠ []) (hq : qs ≠ []) :
    joinStrings sep (ps ++ qs) = joinStrings sep ps ++ sep ++ joinStrings sep qs := by
  induction ps with
  | nil => exact absurd rfl hp
  | cons p ps ih =>
      cases ps with
      | nil =>
          cases qs with
          | nil => exact absurd rfl hq
          | cons q qs => rfl
      | cons p' ps =>
          have hrest := ih (List.cons_ne_nil p' ps)
          rw [List.cons_append] at hrest
          simp only [List.cons_append, joinStrings, hrest, String.append_assoc]

theorem splitChars_join (sep : Char) (cs rest : List Char) : ∀ piece,
    splitChars sep piece (cs ++ sep :: rest) =
      splitChars sep piece cs ++ splitChars sep [] rest := by
  induction cs with
  | nil =>
      intro piece
      have hcut : splitChars sep piece (sep :: rest) = piece.reverse :: splitChars sep [] rest := by
        rw [splitChars, if_pos (beq_self_eq_true sep)]
      exact hcut
  | cons c cs ih =>
      intro piece
      rw [List.cons_append, splitChars, splitChars]
      by_cases hc : (c == sep) = true
      · rw [if_pos hc, if_pos hc, ih, List.cons_append]
      · rw [if_neg hc, if_neg hc, ih]

/-- Two texts with a separator between them split apart. -/
theorem splitOnChar_join (sep : Char) (s t : String) :
    splitOnChar sep (s ++ String.ofList [sep] ++ t) = splitOnChar sep s ++ splitOnChar sep t := by
  rw [splitOnChar, String.toList_append, String.toList_append, String.toList_ofList,
    List.append_assoc, List.singleton_append, splitChars_join, List.map_append]
  rfl

theorem mem_splitChars {c sep : Char} (hc : c ≠ sep) (cs : List Char) :
    ∀ piece, (∃ p ∈ splitChars sep piece cs, c ∈ p) ↔ c ∈ piece ∨ c ∈ cs := by
  induction cs with
  | nil =>
      intro piece
      simp only [splitChars, List.mem_singleton, exists_eq_left, List.mem_reverse,
        List.not_mem_nil, or_false]
  | cons d cs ih =>
      intro piece
      rw [splitChars]
      by_cases hd : (d == sep) = true
      · have hcd : c ≠ d := fun heq => hc (heq.trans (eq_of_beq hd))
        rw [if_pos hd, List.exists_mem_cons_iff, ih []]
        simp only [List.mem_reverse, List.not_mem_nil, false_or, List.mem_cons, hcd]
      · rw [if_neg hd, ih (d :: piece)]
        simp only [List.mem_cons]
        exact ⟨fun h => by rcases h with (h | h) | h <;> simp only [h, true_or, or_true],
          fun h => by rcases h with h | h | h <;> simp only [h, true_or, or_true]⟩

theorem notMem_of_mem_splitChars {sep : Char} (cs : List Char) :
    ∀ piece : List Char, sep ∉ piece → ∀ p ∈ splitChars sep piece cs, sep ∉ p := by
  induction cs with
  | nil =>
      intro piece hpiece p hp
      rw [splitChars, List.mem_singleton] at hp
      rw [hp, List.mem_reverse]
      exact hpiece
  | cons c cs ih =>
      intro piece hpiece p hp
      rw [splitChars] at hp
      by_cases hc : (c == sep) = true
      · rw [if_pos hc, List.mem_cons] at hp
        rcases hp with rfl | hp
        · rwa [List.mem_reverse]
        · exact ih [] List.not_mem_nil p hp
      · rw [if_neg hc] at hp
        refine ih (c :: piece) ?_ p hp
        rw [List.mem_cons, not_or]
        exact ⟨fun heq => hc (beq_iff_eq.mpr heq.symm), hpiece⟩

/-- A text is split at all separators. -/
theorem notMem_of_mem_splitOnChar {sep : Char} {s p : String}
    (h : p ∈ splitOnChar sep s) : sep ∉ p.toList := by
  rcases List.mem_map.mp h with ⟨cs, hcs, rfl⟩
  rw [String.toList_ofList]
  exact notMem_of_mem_splitChars s.toList [] List.not_mem_nil cs hcs

/-- A piece stands somewhere in the text. -/
theorem isInfix_of_mem_splitChars {sep : Char} (cs : List Char) :
    ∀ piece : List Char, ∀ p ∈ splitChars sep piece cs, p <:+: piece.reverse ++ cs := by
  induction cs with
  | nil =>
      intro piece p hp
      rw [splitChars, List.mem_singleton] at hp
      rw [hp]
      exact (List.prefix_append piece.reverse []).isInfix
  | cons c cs ih =>
      intro piece p hp
      rw [splitChars] at hp
      by_cases hc : (c == sep) = true
      · rw [if_pos hc, List.mem_cons] at hp
        rcases hp with rfl | hp
        · exact (List.prefix_append _ _).isInfix
        · exact (ih [] p hp).trans
            ((List.suffix_cons c cs).trans (List.suffix_append _ _)).isInfix
      · rw [if_neg hc] at hp
        have hrest := ih (c :: piece) p hp
        rwa [List.reverse_cons, List.append_assoc, List.singleton_append] at hrest

/-- So it takes no more bytes than the text. -/
theorem utf8ByteSize_le_of_mem_splitOnChar {sep : Char} {s p : String}
    (h : p ∈ splitOnChar sep s) : p.utf8ByteSize ≤ s.utf8ByteSize := by
  rcases List.mem_map.mp h with ⟨cs, hcs, rfl⟩
  rcases isInfix_of_mem_splitChars s.toList [] cs hcs with ⟨before, after, htext⟩
  have hs : s = String.ofList before ++ String.ofList cs ++ String.ofList after := by
    rw [← String.ofList_append, ← String.ofList_append, htext, List.reverse_nil, List.nil_append,
      String.ofList_toList]
  rw [hs, String.utf8ByteSize_append, String.utf8ByteSize_append]
  omega

/-- Splitting takes away the separators and nothing else. -/
theorem filter_flatten_splitChars {sep : Char} {p : Char → Bool} (hsep : p sep = false)
    (cs : List Char) : ∀ piece,
    (splitChars sep piece cs).flatten.filter p = (piece.reverse ++ cs).filter p := by
  induction cs with
  | nil =>
      intro piece
      rw [splitChars, List.flatten_singleton, List.append_nil]
  | cons c cs ih =>
      intro piece
      rw [splitChars]
      by_cases hc : (c == sep) = true
      · have hpc : ¬ p c = true := by
          rw [eq_of_beq hc, hsep]
          exact Bool.false_ne_true
        rw [if_pos hc, List.flatten_cons, List.filter_append, ih [], List.reverse_nil,
          List.nil_append, List.filter_append, List.filter_cons_of_neg hpc]
      · rw [if_neg hc, ih, List.reverse_cons, List.append_assoc, List.singleton_append]

/-- Joined pieces split into themselves, unless there are none. -/
theorem splitChars_joinWith (sep : Char) {parts : List (List Char)} (hne : parts ≠ [])
    (h : ∀ p ∈ parts, sep ∉ p) : splitChars sep [] (joinWith [sep] parts) = parts := by
  induction parts with
  | nil => exact absurd rfl hne
  | cons p ps ih =>
      cases ps with
      | nil => exact splitChars_of_not_mem (h p List.mem_cons_self) []
      | cons q qs =>
          rw [joinWith, List.append_assoc, List.singleton_append,
            splitChars_append (h p List.mem_cons_self),
            ih (List.cons_ne_nil q qs) (fun r hr => h r (List.mem_cons_of_mem p hr))]
          rfl

/-- What was read of a piece goes before the first piece of the rest. -/
theorem exists_splitChars_eq (sep : Char) (cs : List Char) :
    ∃ first more, ∀ piece, splitChars sep piece cs = (piece.reverse ++ first) :: more := by
  induction cs with
  | nil => exact ⟨[], [], fun piece => by rw [splitChars, List.append_nil]⟩
  | cons c cs ih =>
      rcases ih with ⟨first, more, hrest⟩
      by_cases hc : (c == sep) = true
      · refine ⟨[], splitChars sep [] cs, fun piece => ?_⟩
        rw [splitChars, if_pos hc, List.append_nil]
      · refine ⟨c :: first, more, fun piece => ?_⟩
        rw [splitChars, if_neg hc, hrest, List.reverse_cons, List.append_assoc,
          List.singleton_append]

/-- What is put before a text without a separator goes before its first
    piece. -/
theorem exists_splitOnChar_eq (sep : Char) (t : String) :
    ∃ first more, ∀ s : String, sep ∉ s.toList →
      splitOnChar sep (s ++ t) = (s ++ first) :: more := by
  rcases exists_splitChars_eq sep t.toList with ⟨first, more, hfirst⟩
  refine ⟨String.ofList first, more.map String.ofList, fun s hs => ?_⟩
  have hskip : ∀ cs : List Char, sep ∉ cs → ∀ piece,
      splitChars sep piece (cs ++ t.toList) = splitChars sep (cs.reverse ++ piece) t.toList := by
    intro cs
    induction cs with
    | nil => exact fun _ _ => rfl
    | cons c cs ih =>
        intro hcs piece
        rw [List.mem_cons, not_or] at hcs
        rw [List.cons_append, splitChars, if_neg (fun heq => hcs.1 (eq_of_beq heq).symm),
          ih hcs.2, List.reverse_cons, List.append_assoc, List.singleton_append]
  rw [splitOnChar, String.toList_append, hskip _ hs, List.append_nil, hfirst, List.reverse_reverse,
    List.map_cons, String.ofList_append, String.ofList_toList]

theorem cutLast_of_not_mem {sep : Char} {s : String} (h : sep ∉ s.toList) :
    cutLast sep s = none := by
  have hall : s.toList.reverse.takeWhile (· != sep) = s.toList.reverse := by
    rw [List.takeWhile_eq_self_iff]
    intro c hc
    rw [bne_iff_ne]
    exact fun heq => h (heq ▸ List.mem_reverse.mp hc)
  simp only [cutLast, hall, List.drop_length]

/-- A text is cut where its last piece begins. -/
theorem cutLast_append {sep : Char} (s : String) {t : String} (h : sep ∉ t.toList) :
    cutLast sep (s ++ String.ofList [sep] ++ t) = some (s, t) := by
  have hreverse : (s ++ String.ofList [sep] ++ t).toList.reverse =
      t.toList.reverse ++ sep :: s.toList.reverse := by
    rw [String.toList_append, String.toList_append, String.toList_ofList, List.reverse_append,
      List.reverse_append]
    rfl
  have hafter : (t.toList.reverse ++ sep :: s.toList.reverse).takeWhile (· != sep) =
      t.toList.reverse := by
    rw [List.takeWhile_append_of_pos, List.takeWhile_cons_of_neg, List.append_nil]
    · rw [bne_self_eq_false]
      exact Bool.false_ne_true
    · intro c hc
      rw [bne_iff_ne]
      exact fun heq => h (heq ▸ List.mem_reverse.mp hc)
  simp only [cutLast, hreverse, hafter, List.drop_left, List.reverse_reverse, String.ofList_toList]

theorem splitTextFrom_ne_nil (sep : List Char) (cs : List Char) : ∀ most skip piece,
    splitTextFrom sep most skip piece cs ≠ [] := by
  induction cs with
  | nil => exact fun _ _ _ => List.cons_ne_nil _ _
  | cons c cs ih =>
      intro most skip piece
      unfold splitTextFrom
      split
      · exact ih _ _ _
      · split
        · exact ih _ _ _
        · split
          · exact List.cons_ne_nil _ _
          · exact ih _ _ _

/-- As long as there are cuts left, every character is replaced that is the one
    looked for. -/
theorem joinWith_splitTextFrom (a b : Char) (cs : List Char) : ∀ most piece, cs.length ≤ most →
    joinWith [b] (splitTextFrom [a] most 0 piece cs) =
      piece.reverse ++ cs.map fun c => if c = a then b else c := by
  induction cs with
  | nil =>
      intro most piece _
      rw [splitTextFrom, joinWith, List.map_nil, List.append_nil]
  | cons c cs ih =>
      intro most piece hmost
      rcases most with _ | most
      · exact absurd hmost (Nat.not_succ_le_zero _)
      · have hrest := Nat.le_of_succ_le_succ hmost
        rw [List.map_cons, splitTextFrom]
        -- Each piece ends at a character that is looked for, which takes one of the cuts.
        by_cases hc : c = a
        · have hstart : startsWith [a] (c :: cs) = true := by
            rw [startsWith, dropPrefix?, if_pos (beq_iff_eq.mpr hc.symm)]
            rfl
          rw [if_pos hstart, if_pos hc]
          rcases hpieces : splitTextFrom [a] most 0 [] cs with _ | ⟨p, ps⟩
          · exact absurd hpieces (splitTextFrom_ne_nil _ _ _ _ _)
          · have hthis := ih most [] hrest
            rw [hpieces, List.reverse_nil, List.nil_append] at hthis
            rw [List.length_singleton, Nat.sub_self, hpieces, joinWith, hthis, List.append_assoc,
              List.singleton_append]
        · have hstart : ¬ startsWith [a] (c :: cs) = true := by
            rw [startsWith, dropPrefix?, if_neg (fun heq => hc (eq_of_beq heq).symm)]
            exact Bool.false_ne_true
          rw [if_neg hstart, if_neg hc, ih _ _ (Nat.le_succ_of_le hrest), List.reverse_cons,
            List.append_assoc, List.singleton_append]

/-- Replacing a character replaces it wherever it stands. -/
theorem replaceAll_char (a b : Char) (s : String) :
    replaceAll (String.ofList [a]) (String.ofList [b]) s =
      mapChars (fun c => if c = a then b else c) s := by
  rw [replaceAll, mapChars, String.toList_ofList, String.toList_ofList, replaceText,
    List.isEmpty_cons, if_neg Bool.false_ne_true, splitOnText,
    joinWith_splitTextFrom a b _ _ [] (String.length_toList ▸ Nat.le_succ _), List.reverse_nil,
    List.nil_append]

end Text

end Stencil
