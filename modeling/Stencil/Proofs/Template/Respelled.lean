import Stencil.Proofs.Reference.Segment
import Stencil.Proofs.Template.Division
import Stencil.Proofs.Template.Word

/-!
# Line Breaks in a Text

A text falls into regions as it does with unified line breaks.

The scanner of tokens brings the line breaks of a text to one spelling before
it starts, and the scanner of references reads the text as it stands. Here the
regions that were found in the unified text are found in the text itself. A
break stands in text, in comments, in raw blocks, in blanks and in quotes, and
nowhere else, so the pieces of a tag keep their tokens.

## Main definitions

* `Region.Respells`: The region is another one but for its line breaks.

## Theorems

* `bareTag?_unifyBreaks`: The tags around a raw block may hold line breaks.
* `Reads.exists_pieces`: The pieces of a tag in the text itself.
* `FallsInto.respell`: A text falls into the same regions.
-/

namespace Stencil

namespace Reference

open Text

theorem dropSign_unifyBreaks (cs : List Char) :
    dropSign (unifyBreaks cs) = unifyBreaks (dropSign cs) := by
  have kept {ds : List Char} (h : ∀ c ∈ ds.head?, c ≠ '-' ∧ c ≠ '+') : dropSign ds = ds :=
    Sign.none.dropSign_append h
  cases cs with
  | nil => rfl
  | cons c cs =>
    by_cases hminus : c = '-'
    · rw [hminus, unifyBreaks_cons_of_ne (by decide)]
      rfl
    by_cases hplus : c = '+'
    · rw [hplus, unifyBreaks_cons_of_ne (by decide)]
      rfl
    -- Any other character is no sign, and neither is a break before or after.
    have same : dropSign (c :: cs) = c :: cs :=
      kept fun d hd => by rw [← Option.some.inj hd]; exact ⟨hminus, hplus⟩
    rw [same, kept]
    intro d hd
    rw [head?_unifyBreaks, List.head?_cons, Option.map_some, Option.mem_some_iff] at hd
    by_cases hreturn : c = '\r'
    · rw [← hd, hreturn]
      decide
    · rw [← hd, unifiedBreak_of_ne hreturn]
      exact ⟨hminus, hplus⟩

theorem tagStart?_unifyBreaks {keyword : String}
    (h : '\r' ∉ keyword.toList ∧ '\n' ∉ keyword.toList) (cs : List Char) :
    tagStart? keyword (unifyBreaks cs) = (tagStart? keyword cs).map unifyBreaks := by
  rw [tagStart?, tagStart?, dropPrefix?_unifyBreaks (by decide)]
  cases dropPrefix? ['{', '%'] cs with
  | none => rfl
  | some rest =>
    dsimp only [Option.map_some]
    rw [dropSign_unifyBreaks, dropBlanks_unifyBreaks, dropPrefix?_unifyBreaks h]

theorem tagEnd?_unifyBreaks (cs : List Char) :
    tagEnd? (unifyBreaks cs) = (tagEnd? cs).map unifyBreaks := by
  rw [tagEnd?, tagEnd?, dropBlanks_unifyBreaks, dropSign_unifyBreaks,
    dropPrefix?_unifyBreaks (by decide)]

/-- A tag that is only a keyword is one before and after. -/
theorem bareTag?_unifyBreaks {keyword : String}
    (h : '\r' ∉ keyword.toList ∧ '\n' ∉ keyword.toList) (cs : List Char) :
    bareTag? keyword (unifyBreaks cs) = (bareTag? keyword cs).map unifyBreaks := by
  rw [bareTag?, bareTag?, tagStart?_unifyBreaks h]
  cases tagStart? keyword cs with
  | none => rfl
  | some rest => exact tagEnd?_unifyBreaks rest

end Reference

namespace Template

open Text Reference

/-- The region is another one but for the spelling of its line breaks. -/
inductive Region.Respells : Region → Region → Prop where
  /-- A raw block. -/
  | raw {body' body : List Char} : unifyBreaks body' = body → Respells (.raw body') (.raw body)
  /-- A tag. Its pieces have the same tokens. -/
  | tag {kind : TagKind} {opening closing' closing : List Char} {ps' ps : List Spelled} :
      ps'.map (·.token) = ps.map (·.token) → unifyBreaks (spelling ps') = spelling ps →
      unifyBreaks (opening ++ (spelling ps' ++ closing')) = opening ++ (spelling ps ++ closing) →
      Respells (.tag kind ('{' :: opening) ps' closing') (.tag kind ('{' :: opening) ps closing)

section Pieces

/-- What follows a piece starts as it did, but for a break. -/
theorem head_of_unifyBreaks {f : Char → Bool} {after' : List Char}
    (same : f '\r' = f '\n') (h : ∀ c ∈ (unifyBreaks after').head?, f c = false) :
    ∀ c ∈ after'.head?, f c = false := by
  intro c hc
  have first := h (unifiedBreak c) (by
    rw [head?_unifyBreaks, Option.mem_def.mp hc]
    rfl)
  by_cases hreturn : c = '\r'
  · rw [hreturn] at first ⊢
    exact same.trans first
  · rwa [unifiedBreak_of_ne hreturn] at first

theorem Spelled.Reads.respell {p : Spelled} {w after' : List Char}
    (hw : unifyBreaks w = p.chars) (h : p.Reads (unifyBreaks after')) :
    Spelled.Reads ⟨p.token, w⟩ after' := by
  rcases p with ⟨t, v⟩
  cases (show unifyBreaks w = v from hw)
  have present : unifyBreaks w ≠ [] → w ≠ [] := fun h empty => h (by rw [empty]; rfl)
  cases t with
  | none =>
    exact ⟨present h.1, isBlank_of_unifyBreaks h.2.1, head_of_unifyBreaks rfl h.2.2⟩
  | some t =>
    cases t with
    | name s =>
      rcases h with ⟨same, some_char, word, stop⟩
      -- Neither spelling of a break is part of a word, so the word stays as it is.
      have whole : unifyBreaks w = w :=
        unifyBreaks_eq_self fun found => absurd (word _ found) (by decide)
      dsimp only at same some_char word
      rw [whole] at same some_char word
      exact ⟨same, some_char, word, head_of_unifyBreaks (by decide) stop⟩
    | string s =>
      rcases h with ⟨q, body, quote, hq, first⟩
      -- The quotes are no breaks, so they stay where they are; the body may change.
      have mark : q ≠ '\n' ∧ q ≠ '\r' := by
        rcases quote with rfl | rfl <;> exact ⟨by decide, by decide⟩
      rcases exists_between_of_unifyBreaks mark.1 mark.1 hq with ⟨body', rfl, rfl⟩
      refine ⟨q, body', quote, rfl, fun plain found => ?_⟩
      exact first (fun slash => plain (mem_of_mem_unifyBreaks slash (by decide)))
        (mem_unifyBreaks found mark.2)
    | _ =>
      rcases h with ⟨inner, c, cs, hc, blank, rest⟩
      have feed : c ≠ '\n' := by
        rintro rfl
        exact absurd blank (by decide)
      rcases exists_of_unifyBreaks_fixed
        (show '\n' ∉ [c] by rwa [List.mem_singleton, eq_comm]) hc with ⟨cs', rfl, -⟩
      exact ⟨inner, c, cs', rfl, blank, rest⟩

theorem Spelled.IsPlain.respell {p : Spelled} {w after : List Char} (h : p.IsPlain)
    (reads : p.Reads after) (hw : unifyBreaks w = p.chars) : Spelled.IsPlain ⟨p.token, w⟩ := by
  intro s hs
  rcases p with ⟨t, v⟩
  cases hs
  rcases reads with ⟨q, body, quote, hq, -⟩
  rcases h s rfl with ⟨q', body', hq', same⟩
  have mark : q ≠ '\n' := by
    rcases quote with rfl | rfl <;> decide
  dsimp only at hq hq' hw
  rw [hq, List.cons_append, List.cons_append, List.cons.injEq] at hq'
  rcases (List.append_inj' hq'.2 rfl).1 with rfl
  rcases exists_between_of_unifyBreaks mark mark (hw.trans hq) with ⟨body', rfl, rfl⟩
  refine ⟨q, body', rfl, fun plain => ?_⟩
  rw [same fun slash => plain (mem_of_mem_unifyBreaks slash (by decide)),
    unifyBreaks_of_notMem (notMem_unifyBreaks _)]

/-- The pieces of a tag are found in the text itself. -/
theorem Reads.exists_pieces {ps : List Spelled} {after cs : List Char} (h : Reads ps after)
    (hcs : unifyBreaks cs = spelling ps ++ after) :
    ∃ ps' after', cs = spelling ps' ++ after' ∧ unifyBreaks (spelling ps') = spelling ps ∧
      unifyBreaks after' = after ∧ ps'.map (·.token) = ps.map (·.token) ∧ Reads ps' after' ∧
      ((∀ p ∈ ps, p.IsPlain) → ∀ p ∈ ps', p.IsPlain) := by
  induction ps generalizing cs with
  | nil =>
    exact ⟨[], cs, rfl, rfl, hcs, rfl, trivial, fun _ p hp => absurd hp List.not_mem_nil⟩
  | cons p ps ih =>
    rw [spelling_cons, List.append_assoc] at hcs
    -- The first piece is cut off, never inside of a break.
    rcases exists_append_of_unifyBreaks hcs with ⟨w, rest, rfl, hw, hrest, cut⟩
    rcases ih h.2 hrest with ⟨ps', after', rfl, hps, hafter, tokens, reads, plain⟩
    refine ⟨⟨p.token, w⟩ :: ps', after', ?_, ?_, hafter, ?_, ⟨?_, reads⟩, fun all q hq => ?_⟩
    · rw [spelling_cons, List.append_assoc]
    · rw [spelling_cons, spelling_cons, unifyBreaks_append, hw, hps]
      intro last head
      exact cut last (List.mem_head?_append_of_mem_head? head)
    · rw [List.map_cons, List.map_cons, tokens]
    · refine Spelled.Reads.respell hw ?_
      rw [hrest]
      exact h.1
    · rcases List.mem_cons.mp hq with rfl | hq
      · exact (all p List.mem_cons_self).respell h.1 hw
      · exact plain (fun p' hp => all p' (List.mem_cons_of_mem _ hp)) q hq

end Pieces

section Parts

theorem IsText.of_unifyBreaks {cs : List Char} (h : IsText (unifyBreaks cs)) : IsText cs :=
  ⟨fun found => h.1 (infix_unifyBreaks (by decide) (by decide) found),
    fun found => h.2 (infix_unifyBreaks (by decide) (by decide) found)⟩

theorem exists_space_of_unifyBreaks {b : Space} {cs rest : List Char}
    (h : unifyBreaks cs = b.chars ++ rest) :
    ∃ (b' : Space) (rest' : List Char), cs = b'.chars ++ rest' ∧
      unifyBreaks b'.chars = b.chars ∧ unifyBreaks rest' = rest := by
  rcases exists_append_of_unifyBreaks h with ⟨w, rest', rfl, hw, hrest, -⟩
  exact ⟨⟨w, isBlank_of_unifyBreaks (hw ▸ b.blank)⟩, rest', rfl, hw, hrest⟩

theorem feed_notMem_sign (s : Sign) : '\n' ∉ s.chars := by
  cases s <;> decide

/-- A tag around words is one in the text itself. -/
theorem exists_frame_of_unifyBreaks {f : Frame} {words cs rest : List Char} (hwords : '\n' ∉ words)
    (h : unifyBreaks cs = f.around words ++ rest) :
    ∃ (f' : Frame) (rest' : List Char), cs = f'.around words ++ rest' ∧
      unifyBreaks rest' = rest := by
  have all : f.around words ++ rest = ('{' :: '%' :: f.before.chars) ++ (f.lead.chars ++
      (words ++ (f.trail.chars ++ ((f.after.chars ++ ['%', '}']) ++ rest)))) := by
    simp only [Frame.around, Frame.start, Frame.stop, List.append_assoc, List.cons_append]
  have opening : '\n' ∉ '{' :: '%' :: f.before.chars := by
    simp only [List.mem_cons, feed_notMem_sign, or_false]
    decide
  have closing : '\n' ∉ f.after.chars ++ ['%', '}'] := by
    simp only [List.mem_append, feed_notMem_sign, false_or]
    decide
  -- Delimiters, signs and words hold no break, and the blanks between them may.
  rcases exists_of_unifyBreaks_fixed opening (h.trans all) with ⟨cs₁, rfl, h₁⟩
  rcases exists_space_of_unifyBreaks h₁ with ⟨lead, cs₂, rfl, -, h₂⟩
  rcases exists_of_unifyBreaks_fixed hwords h₂ with ⟨cs₃, rfl, h₃⟩
  rcases exists_space_of_unifyBreaks h₃ with ⟨trail, cs₄, rfl, -, h₄⟩
  rcases exists_of_unifyBreaks_fixed closing h₄ with ⟨rest', rfl, hrest⟩
  refine ⟨⟨f.before, lead, trail, f.after⟩, rest', ?_, hrest⟩
  simp only [Frame.around, Frame.start, Frame.stop, List.append_assoc, List.cons_append]

theorem IsUnclosed.of_unifyBreaks {cs : List Char} (h : IsUnclosed (unifyBreaks cs)) :
    IsUnclosed cs := by
  generalize hus : unifyBreaks cs = us at h
  cases h with
  | nil =>
    rw [unifyBreaks_eq_nil hus]
    exact .nil
  | comment s =>
    have fixed : '\n' ∉ '{' :: '#' :: s.chars := by
      simp only [List.mem_cons, feed_notMem_sign, or_false]
      decide
    rcases exists_of_unifyBreaks_fixed fixed (hus.trans (List.append_nil _).symm) with
      ⟨rest, rfl, hrest⟩
    rw [unifyBreaks_eq_nil hrest, List.append_nil]
    exact .comment s
  | raw f b =>
    rcases exists_frame_of_unifyBreaks (by decide) hus with ⟨f', rest, rfl, hrest⟩
    exact .raw f' ⟨rest, isBlank_of_unifyBreaks (hrest ▸ b.blank)⟩

/-- No tag around a word is found in the text if none is in the unified one. -/
theorem passes_of_unifyBreaks {keyword : String}
    (h : '\r' ∉ keyword.toList ∧ '\n' ∉ keyword.toList) {body : List Char}
    (passes : Reference.Passes (bareTag? keyword) (unifyBreaks body) []) :
    Reference.Passes (bareTag? keyword) body [] := by
  rintro v ⟨before, rfl⟩ present
  rw [List.append_nil, Option.eq_none_iff_forall_ne_some]
  intro rest found
  rcases eq_of_bareTag? found with ⟨f, hv⟩
  -- A tag starts with a brace, so no break reaches into it from what stands before.
  have unified : unifyBreaks (before ++ v) = unifyBreaks before ++ unifyBreaks v := by
    refine unifyBreaks_append fun _ head => ?_
    rw [hv] at head
    exact absurd (Option.some.inj head) (by decide)
  have none := passes (unifyBreaks v) (unified ▸ List.suffix_append _ _)
    (fun empty => present (unifyBreaks_eq_nil empty))
  rw [List.append_nil, bareTag?_unifyBreaks h, found] at none
  exact absurd none (Option.some_ne_none _)

theorem EndsUnsigned.of_unifyBreaks {cs : List Char} (h : EndsUnsigned (unifyBreaks cs)) :
    EndsUnsigned cs := by
  intro e he
  constructor
  · rintro rfl
    exact (h _ (getLast?_unifyBreaks (by decide) he)).1 rfl
  · rintro rfl
    exact (h _ (getLast?_unifyBreaks (by decide) he)).2 rfl

theorem feed_notMem_closing (s : Sign) (kind : TagKind) : '\n' ∉ s.chars ++ kind.closing := by
  rw [List.mem_append, not_or]
  exact ⟨feed_notMem_sign s, by cases kind <;> decide⟩

end Parts

/-- A text falls into the regions of the unified text, with its own line
breaks. -/
theorem FallsInto.respell {us : List Char} {rs : List Region} (h : FallsInto us rs) :
    ∀ {cs : List Char}, unifyBreaks cs = us →
      ∃ rs', FallsInto cs rs' ∧ List.Forall₂ Region.Respells rs' rs := by
  induction h with
  | cut text tail =>
    intro cs hcs
    rcases exists_append_of_unifyBreaks hcs with ⟨data, rest, rfl, rfl, rfl, -⟩
    exact ⟨[], .cut text.of_unifyBreaks tail.of_unifyBreaks, .nil⟩
  | @comment data body rest rs b text close _ ih =>
    intro cs hcs
    rcases exists_append_of_unifyBreaks hcs with ⟨data, cs₁, rfl, rfl, h₁, -⟩
    rcases exists_of_unifyBreaks_fixed (show '\n' ∉ ['{', '#'] by decide) h₁ with ⟨cs₂, rfl, h₂⟩
    rcases exists_append_of_unifyBreaks h₂ with ⟨body, cs₃, rfl, rfl, h₃, -⟩
    rcases exists_of_unifyBreaks_fixed (show '\n' ∉ ['#', '}'] by decide) h₃ with ⟨cs₄, rfl, h₄⟩
    rcases exists_space_of_unifyBreaks h₄ with ⟨b, rest, rfl, -, hrest⟩
    rcases ih hrest with ⟨rs', falls, same⟩
    refine ⟨rs', .comment b text.of_unifyBreaks (fun found => close ?_) falls, same⟩
    exact infix_unifyBreaks (by decide) (by decide) found
  | @raw data body rest rs f g b b' text close _ ih =>
    intro cs hcs
    rcases exists_append_of_unifyBreaks hcs with ⟨data, cs₁, rfl, rfl, h₁, -⟩
    rcases exists_frame_of_unifyBreaks (by decide) h₁ with ⟨f, cs₂, rfl, h₂⟩
    rcases exists_space_of_unifyBreaks h₂ with ⟨b, cs₃, rfl, -, h₃⟩
    rcases exists_append_of_unifyBreaks h₃ with ⟨body, cs₄, rfl, rfl, h₄, -⟩
    rcases exists_frame_of_unifyBreaks (by decide) h₄ with ⟨g, cs₅, rfl, h₅⟩
    rcases exists_space_of_unifyBreaks h₅ with ⟨b', rest, rfl, -, hrest⟩
    rcases ih hrest with ⟨rs', falls, same⟩
    exact ⟨_, .raw f g b b' text.of_unifyBreaks (passes_of_unifyBreaks (by decide) close) falls,
      .cons (.raw rfl) same⟩
  | @tag data rest rs kind s ps s' b text reads unsigned plain _ ih =>
    intro cs hcs
    have opening : '\n' ∉ '{' :: kind.mark :: s.chars := by
      simp only [List.mem_cons, feed_notMem_sign, or_false]
      cases kind <;> decide
    have all : '{' :: kind.mark :: (s.chars ++ (spelling ps ++
        (s'.chars ++ (kind.closing ++ (b.chars ++ rest))))) =
        (('{' :: kind.mark :: s.chars) ++ (spelling ps ++
          (s'.chars ++ (kind.closing ++ b.chars)))) ++ rest := by
      simp only [List.append_assoc, List.cons_append]
    rcases exists_append_of_unifyBreaks hcs with ⟨data, cs₁, rfl, rfl, h₁, -⟩
    -- The tag is cut off as a whole first, so that its parts are those of one text.
    rcases exists_append_of_unifyBreaks (h₁.trans all) with ⟨tag, rest, rfl, htag, hrest, -⟩
    rcases ih hrest with ⟨rs', falls, same⟩
    rcases exists_of_unifyBreaks_fixed opening htag with ⟨cs₂, rfl, h₂⟩
    have reads' : Reads ps (s'.chars ++ (kind.closing ++ b.chars)) :=
      reads.of_head? (by cases s' <;> cases kind <;> rfl)
    rcases reads'.exists_pieces h₂ with ⟨ps', cs₃, rfl, hps, h₃, tokens, reads', plain'⟩
    rcases exists_of_unifyBreaks_fixed (feed_notMem_closing s' kind)
      (h₃.trans (List.append_assoc _ _ _).symm) with ⟨cs₄, rfl, h₄⟩
    rcases exists_space_of_unifyBreaks (h₄.trans (List.append_nil _).symm) with
      ⟨b', cs₅, rfl, hb, h₅⟩
    rw [unifyBreaks_eq_nil h₅, List.append_nil, List.append_assoc] at htag reads' ⊢
    have reads : Reads ps' (s'.chars ++ (kind.closing ++ (b'.chars ++ rest))) :=
      reads'.of_head? (by cases s' <;> cases kind <;> rfl)
    have falls' : FallsInto _ _ := .tag kind s s' b' text.of_unifyBreaks reads
      (fun block none => EndsUnsigned.of_unifyBreaks (hps ▸ unsigned block none))
      (plain' plain) falls
    rw [List.cons_append, unifyBreaks_cons_of_ne (by decide)] at htag
    refine ⟨_, ?_, .cons (.tag tokens hps (List.cons.inj htag).2) same⟩
    simpa only [List.append_assoc, List.cons_append] using falls'

end Template

end Stencil
