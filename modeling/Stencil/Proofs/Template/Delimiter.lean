import Stencil.Proofs.Reference.Frame
import Stencil.Template.Token.Scan

/-!
# How Tags Open and Close

What the scanner of tokens takes where something opens or closes.

It counts characters: those of a delimiter, of the sign next to it and, after a
minus sign, of the blanks that the sign removes. Here each count is told by the
characters themselves. The tags around a raw block are frames around one word,
as they are for the scanner of references, and that scanner finds the end of a
raw block in the same places.

The start of a raw block is the one delimiter on which the two differ: a plus
sign at the end of its tag is left to be read as part of a statement.

## Main definitions

* `TagKind.mark`, `TagKind.closing`: The characters that tell a kind of tag.

## Theorems

* `opening?_spec`: What opens, and the characters of the opening.
* `closeLength?_spec`, `commentCloseLength?_spec`: What closes.
* `rawCloseLength?_spec`, `bareTag?_of_rawCloseLength?`: Where a raw block ends.
-/

namespace Stencil

namespace Template

open Text Reference

/-- The character behind the brace that opens a tag. -/
def TagKind.mark : TagKind → Char
  | .print => '{'
  | .block => '%'

/-- The characters that close a tag. -/
def TagKind.closing : TagKind → List Char
  | .print => ['}', '}']
  | .block => ['%', '}']

section Counts

/-- A sign is counted, and only a sign. -/
theorem exists_sign_signLength (cs : List Char) :
    ∃ (s : Sign) (after : List Char), cs = s.chars ++ after ∧ signLength cs = s.chars.length := by
  unfold signLength
  split
  · exact ⟨.minus, _, rfl, rfl⟩
  · exact ⟨.plus, _, rfl, rfl⟩
  · exact ⟨.none, _, rfl, rfl⟩

theorem signLength_append (s : Sign) {after : List Char}
    (h : ∀ c ∈ after.head?, c ≠ '-' ∧ c ≠ '+') :
    signLength (s.chars ++ after) = s.chars.length := by
  cases s with
  | minus => rfl
  | plus => rfl
  | none =>
    cases after with
    | nil => rfl
    | cons c after =>
      have hc := h c rfl
      rw [Sign.chars, List.nil_append, signLength]
      · rfl
      · exact fun _ same => hc.1 (List.cons.inj same).1
      · exact fun _ same => hc.2 (List.cons.inj same).1

/-- Blanks are counted, and all of them. -/
theorem exists_space_blankCount (cs : List Char) :
    ∃ (b : Space) (after : List Char), cs = b.chars ++ after ∧ blankCount cs = b.chars.length ∧
      ∀ c ∈ after.head?, isBlank c = false :=
  ⟨⟨cs.takeWhile isBlank, fun c hc => List.all_eq_true.mp List.all_takeWhile c hc⟩,
    cs.dropWhile isBlank, List.takeWhile_append_dropWhile.symm, rfl, head?_dropWhile isBlank cs⟩

theorem blankCount_append (b : Space) {after : List Char}
    (h : ∀ c ∈ after.head?, isBlank c = false) :
    blankCount (b.chars ++ after) = b.chars.length := by
  rw [blankCount, takeWhile_append_stop b.blank h]

theorem spacedWord?_spec {word : String} {cs : List Char} {n : Nat}
    (h : spacedWord? word cs = some n) :
    ∃ (b b' : Space) (after : List Char),
      cs = b.chars ++ (word.toList ++ (b'.chars ++ after)) ∧
      n = b.chars.length + word.toList.length + b'.chars.length := by
  rcases exists_space_blankCount cs with ⟨b, inner, rfl, count, -⟩
  simp only [spacedWord?, count, List.drop_left] at h
  rcases Option.map_eq_some_iff.mp h with ⟨rest, found, rfl⟩
  rcases exists_space_blankCount rest with ⟨b', after, rfl, count', -⟩
  refine ⟨b, b', after, ?_, ?_⟩
  · rw [← eq_append_of_dropPrefix? found]
  · rw [count', String.length_toList]

theorem spacedWord?_append {word : String} (hword : IsWord word) (b b' : Space)
    {after : List Char} (h : ∀ c ∈ after.head?, isBlank c = false) :
    spacedWord? word (b.chars ++ (word.toList ++ (b'.chars ++ after))) =
      some (b.chars.length + word.toList.length + b'.chars.length) := by
  have lead := blankCount_append b fun c hc =>
    (hword.isSolid_head (b'.chars ++ after) c hc).1
  simp only [spacedWord?, lead, List.drop_left, dropPrefix?_append, Option.map_some,
    blankCount_append b' h, String.length_toList]

end Counts

/-- A tag closes with a sign and its delimiter, and blanks may belong to it. -/
theorem closeLength?_spec {kind : TagKind} {cs : List Char} {n : Nat}
    (h : closeLength? kind cs = some n) :
    ∃ (s : Sign) (b : Space) (after : List Char),
      cs = s.chars ++ (kind.closing ++ (b.chars ++ after)) ∧
      n = (s.chars ++ (kind.closing ++ b.chars)).length := by
  unfold closeLength? at h
  split at h
  · cases h
    -- Blanks belong to the close behind a minus sign only.
    exact ⟨.none, Space.empty, _, rfl, rfl⟩
  · next rest =>
    rcases exists_space_blankCount rest with ⟨b, after, rfl, count, -⟩
    cases h
    refine ⟨.minus, b, after, rfl, ?_⟩
    rw [count, List.length_append, List.length_append]
    exact Nat.add_assoc 1 2 _
  · cases h
    exact ⟨.none, Space.empty, _, rfl, rfl⟩
  · cases h
    exact ⟨.plus, Space.empty, _, rfl, rfl⟩
  · next rest =>
    rcases exists_space_blankCount rest with ⟨b, after, rfl, count, -⟩
    cases h
    refine ⟨.minus, b, after, rfl, ?_⟩
    rw [count, List.length_append, List.length_append]
    exact Nat.add_assoc 1 2 _
  · exact absurd h (Option.some_ne_none _).symm

/-- Where a tag closes there are characters, and some are taken. -/
theorem closeLength?_pos {kind : TagKind} {cs : List Char} {n : Nat}
    (h : closeLength? kind cs = some n) : 0 < n ∧ 0 < cs.length := by
  rcases closeLength?_spec h with ⟨s, b, after, rfl, rfl⟩
  cases kind <;>
    simp only [TagKind.closing, List.length_append, List.length_cons] <;> omega

theorem exists_closeLength?_block (s : Sign) (after : List Char) :
    ∃ n, closeLength? .block (s.chars ++ '%' :: '}' :: after) = some n := by
  cases s with
  | none => exact ⟨_, rfl⟩
  | minus => exact ⟨_, rfl⟩
  | plus => exact ⟨_, rfl⟩

/-- A comment closes with a sign and its delimiter, and blanks may belong to
it. -/
theorem commentCloseLength?_spec {cs : List Char} {n : Nat}
    (h : commentCloseLength? cs = some n) :
    ∃ (s : Sign) (b : Space) (after : List Char),
      cs = s.chars ++ '#' :: '}' :: (b.chars ++ after) ∧
      n = (s.chars ++ '#' :: '}' :: b.chars).length := by
  unfold commentCloseLength? at h
  split at h
  · cases h
    exact ⟨.none, Space.empty, _, rfl, rfl⟩
  · cases h
    exact ⟨.plus, Space.empty, _, rfl, rfl⟩
  · next rest =>
    rcases exists_space_blankCount rest with ⟨b, after, rfl, count, -⟩
    cases h
    refine ⟨.minus, b, after, rfl, ?_⟩
    rw [count]
    simp only [Sign.chars, List.cons_append, List.nil_append, List.length_cons]
    omega
  · exact absurd h (Option.some_ne_none _).symm

theorem exists_commentCloseLength? (after : List Char) :
    ∃ n, commentCloseLength? ('#' :: '}' :: after) = some n :=
  ⟨_, rfl⟩

section RawTags

/-- The characters in front of the close of a tag around one word. -/
theorem exists_start {word : String} {cs : List Char} {n : Nat}
    (h : spacedWord? word (cs.drop (signLength cs)) = some n) :
    ∃ (s : Sign) (b b' : Space) (after : List Char),
      cs = s.chars ++ (b.chars ++ (word.toList ++ (b'.chars ++ after))) ∧
      (cs.drop (signLength cs)).drop n = after ∧
      signLength cs + n = (s.chars ++ (b.chars ++ (word.toList ++ b'.chars))).length := by
  rcases exists_sign_signLength cs with ⟨s, inner, rfl, count⟩
  rw [count, List.drop_left] at h ⊢
  rcases spacedWord?_spec h with ⟨b, b', after, rfl, rfl⟩
  refine ⟨s, b, b', after, rfl, ?_, ?_⟩
  · rw [← List.append_assoc, ← List.append_assoc, ← List.length_append, ← List.length_append,
      List.drop_left]
  · rw [List.length_append, List.length_append, List.length_append]
    omega

/-- A raw block starts with a frame around its word, and blanks. -/
theorem rawOpenLength?_spec {cs : List Char} {n : Nat} (h : rawOpenLength? cs = some n) :
    ∃ (f : Frame) (b : Space) (after : List Char),
      cs = f.around "raw".toList ++ (b.chars ++ after) ∧
      n = (f.around "raw".toList ++ b.chars).length := by
  -- The scanner counts the parts one after another, behind the two characters that open.
  have size (f : Frame) (b : Space) : (f.around "raw".toList ++ b.chars).length =
      2 + (f.before.chars ++ (f.lead.chars ++ ("raw".toList ++ f.trail.chars))).length +
        (f.after.chars.length + 2) + b.chars.length := by
    simp only [Frame.around, Frame.start, Frame.stop, List.length_append, List.length_cons,
      List.length_nil]
    omega
  unfold rawOpenLength? at h
  split at h
  · next rest =>
    dsimp only at h
    split at h
    · exact absurd h (Option.some_ne_none _).symm
    · next k hk =>
      rcases exists_start hk with ⟨s, b, b', after, all, tail, count⟩
      rw [tail] at h
      split at h
      · next more =>
        cases h
        refine ⟨⟨s, b, b', .none⟩, Space.empty, more, ?_, ?_⟩
        · rw [all]
          simp only [Frame.around, Frame.start, Frame.stop, Sign.chars, Space.empty,
            List.append_assoc, List.cons_append, List.nil_append]
        · rw [size, ← count]
          simp only [Sign.chars, Space.empty, List.length_nil]
          omega
      · next more =>
        rcases exists_space_blankCount more with ⟨c, more', rfl, blanks, -⟩
        cases h
        refine ⟨⟨s, b, b', .minus⟩, c, more', ?_, ?_⟩
        · rw [all]
          simp only [Frame.around, Frame.start, Frame.stop, Sign.chars, List.append_assoc,
            List.cons_append, List.nil_append]
        · rw [size, ← count, blanks]
          simp only [Sign.chars, List.length_cons, List.length_nil]
          omega
      · exact absurd h (Option.some_ne_none _).symm
  · exact absurd h (Option.some_ne_none _).symm

/-- A raw block ends with a frame around its other word, and blanks. -/
theorem rawCloseLength?_spec {cs : List Char} {n : Nat} (h : rawCloseLength? cs = some n) :
    ∃ (f : Frame) (b : Space) (after : List Char),
      cs = f.around "endraw".toList ++ (b.chars ++ after) ∧
      n = (f.around "endraw".toList ++ b.chars).length := by
  unfold rawCloseLength? at h
  split at h
  · next rest =>
    dsimp only at h
    split at h
    · exact absurd h (Option.some_ne_none _).symm
    · next k hk =>
      rcases exists_start hk with ⟨s, b, b', after, all, tail, count⟩
      rw [tail] at h
      rcases Option.map_eq_some_iff.mp h with ⟨m, hm, rfl⟩
      rcases closeLength?_spec hm with ⟨s', c, more, rfl, rfl⟩
      refine ⟨⟨s, b, b', s'⟩, c, more, ?_, ?_⟩
      · rw [all]
        simp only [Frame.around, Frame.start, Frame.stop, TagKind.closing, List.append_assoc,
          List.cons_append, List.nil_append]
      · rw [Nat.add_assoc 2, count]
        simp only [Frame.around, Frame.start, Frame.stop, TagKind.closing, List.length_append,
          List.length_cons, List.length_nil]
        omega
  · exact absurd h (Option.some_ne_none _).symm

/-- Where a raw block does not end, there is no tag around its last word. -/
theorem bareTag?_of_rawCloseLength? {cs : List Char} (h : rawCloseLength? cs = none) :
    bareTag? "endraw" cs = none := by
  rw [Option.eq_none_iff_forall_ne_some]
  intro rest found
  rcases eq_of_bareTag? found with ⟨f, rfl⟩
  have word : IsWord "endraw" := by decide
  have percent : ∀ c ∈ (f.after.chars ++ '%' :: '}' :: rest).head?, isBlank c = false := by
    intro c hc
    cases hs : f.after with
    | none => rw [hs] at hc; rw [← Option.some.inj hc]; decide
    | minus => rw [hs] at hc; rw [← Option.some.inj hc]; decide
    | plus => rw [hs] at hc; rw [← Option.some.inj hc]; decide
  -- The sign behind the delimiter is followed by blanks or by the word.
  have lead : ∀ c ∈ (f.lead.chars ++ ("endraw".toList ++ (f.trail.chars ++
      (f.after.chars ++ '%' :: '}' :: rest)))).head?, c ≠ '-' ∧ c ≠ '+' := by
    intro c hc
    cases hb : f.lead.chars with
    | nil =>
      rw [hb, List.nil_append] at hc
      exact (word.isSolid_head _ c hc).2
    | cons d ds =>
      rw [hb, List.cons_append, List.head?_cons, Option.mem_some_iff] at hc
      have blank := f.lead.blank d (by rw [hb]; exact List.mem_cons_self)
      rw [hc] at blank
      constructor
      · rintro rfl; exact absurd blank (by decide)
      · rintro rfl; exact absurd blank (by decide)
  have all : f.around "endraw".toList ++ rest = '{' :: '%' :: (f.before.chars ++ (f.lead.chars ++
      ("endraw".toList ++ (f.trail.chars ++ (f.after.chars ++ '%' :: '}' :: rest))))) := by
    simp only [Frame.around, Frame.start, Frame.stop, List.append_assoc, List.cons_append,
      List.nil_append]
  rw [all, rawCloseLength?, signLength_append _ lead, List.drop_left,
    spacedWord?_append word _ _ percent] at h
  dsimp only at h
  rw [← List.append_assoc, ← List.append_assoc, ← List.length_append, ← List.length_append,
    List.drop_left] at h
  -- What the frame ends with is a close, so the block would end here.
  rcases exists_closeLength?_block f.after rest with ⟨n, hn⟩
  rw [hn] at h
  exact Option.some_ne_none _ h

end RawTags

/-- What opens has a brace, a character that tells what it is, and a sign. -/
theorem opening?_spec {cs : List Char} {o : Opening} {n : Nat} (h : opening? cs = some (o, n)) :
    match o with
    | .raw => ∃ (f : Frame) (b : Space) (after : List Char),
        cs = f.around "raw".toList ++ (b.chars ++ after) ∧
        n = (f.around "raw".toList ++ b.chars).length
    | .comment => ∃ (s : Sign) (after : List Char), cs = '{' :: '#' :: (s.chars ++ after) ∧
        n = ('{' :: '#' :: s.chars).length
    | .tag kind => ∃ (s : Sign) (after : List Char), cs = '{' :: kind.mark :: (s.chars ++ after) ∧
        n = ('{' :: kind.mark :: s.chars).length := by
  unfold opening? at h
  -- A raw block is tried first, since it opens like a statement.
  split at h
  · next k hk =>
    cases h
    exact rawOpenLength?_spec hk
  · split at h
    · next rest _ _ =>
      rcases exists_sign_signLength rest with ⟨s, after, rfl, count⟩
      cases h
      exact ⟨s, after, rfl, by rw [count, List.length_cons, List.length_cons]; omega⟩
    · next rest _ _ =>
      rcases exists_sign_signLength rest with ⟨s, after, rfl, count⟩
      cases h
      exact ⟨s, after, rfl, by rw [count, List.length_cons, List.length_cons]; omega⟩
    · next rest _ _ =>
      rcases exists_sign_signLength rest with ⟨s, after, rfl, count⟩
      cases h
      exact ⟨s, after, rfl, by rw [count, List.length_cons, List.length_cons]; omega⟩
    · exact absurd h (Option.some_ne_none _).symm

/-- A brace with one of the characters that tell what opens opens something. -/
theorem opening?_ne_none {c : Char} (h : c = '#' ∨ c = '%') (cs : List Char) :
    opening? ('{' :: c :: cs) ≠ none := by
  unfold opening?
  split
  · exact Option.some_ne_none _
  · rcases h with rfl | rfl
    · exact Option.some_ne_none _
    · exact Option.some_ne_none _

end Template

end Stencil
