import Stencil.Proofs.Reference.Tail
import Stencil.Proofs.Template.Piece

/-!
# Words in a Tag

The words of a tag, found by their characters and by their tokens.

The scanner of references looks for words with blanks between them, and the
pieces of a tag are words with blanks between them as well. So the two can be
compared step by step. Going from characters to tokens, a word of the one is a
word of the other because both are as long as they can be. Going back, there
are blanks wherever two names follow one another, since they would be one name
otherwise. Only a text in quotes can have a word directly behind it, and
`startsApart` says that it has none.

## Main definitions

* `startsApart`: The first piece is blanks, if there is one.
* `behind`: The pieces behind the first token.

## Theorems

* `Reads.gapWord`, `Reads.spoken_space`: From characters to tokens.
* `Reads.exists_gapWord`, `Reads.exists_space`: From tokens to characters.
-/

namespace Stencil

namespace Text

theorem continuesWord_of_isWordChar {c : Char} (h : isWordChar c = true) :
    continuesWord c = true := by
  rw [continuesWord, h, Bool.true_or]

/-- A blank is neither a word character nor a mark on one. -/
theorem continuesWord_of_isBlank {c : Char} (h : isBlank c = true) : continuesWord c = false := by
  have marks : ∀ n ∈ blankCodes, markRanges.has n = false := by decide +kernel
  rw [continuesWord, isWordChar_of_isBlank h, marks _ (mem_blankCodes h), Bool.and_false,
    Bool.or_false]

theorem isBlank_of_continuesWord {c : Char} (h : continuesWord c = true) : isBlank c = false := by
  cases hblank : isBlank c with
  | false => rfl
  | true =>
    rw [continuesWord_of_isBlank hblank] at h
    exact Bool.noConfusion h

end Text

namespace Template

open Text Reference

/-- The first piece is blanks, if there is one. -/
def startsApart (ps : List Spelled) : Bool :=
  ps.head?.all (·.token.isNone)

/-- The pieces behind the first token. -/
def behind : List Spelled → List Spelled
  | [] => []
  | ⟨some _, _⟩ :: ps => ps
  | ⟨none, _⟩ :: ps => behind ps

theorem behind_suffix (ps : List Spelled) : behind ps <:+ ps := by
  fun_induction behind ps with
  | case1 => exact List.suffix_refl _
  | case2 => exact List.suffix_cons _ _
  | case3 _ _ ih => exact ih.trans (List.suffix_cons _ _)

theorem spelling_suffix {ps qs : List Spelled} (h : qs <:+ ps) : spelling qs <:+ spelling ps := by
  rcases h with ⟨before, rfl⟩
  rw [show spelling (before ++ qs) = spelling before ++ spelling qs from List.flatMap_append]
  exact List.suffix_append _ _

section First

variable {p : Spelled} {after cs : List Char} {c : Char}

/-- What starts with a blank is blanks. -/
theorem Spelled.Reads.token_of_isBlank (h : p.Reads after) (hc : c ∈ p.chars.head?)
    (blank : isBlank c = true) : p.token = none := by
  rcases p with ⟨t, w⟩
  cases t with
  | none => rfl
  | some t =>
    -- Every token starts with a character of its own, and that is no blank.
    refine absurd blank ?_
    rw [Bool.not_eq_true]
    cases t with
    | name s => exact isBlank_of_continuesWord (h.2.2.1 c (List.mem_of_head? hc))
    | string s =>
      rcases h with ⟨q, body, rfl | rfl, hw, -⟩
      · rw [hw] at hc
        rw [← Option.some.inj hc]
        decide
      · rw [hw] at hc
        rw [← Option.some.inj hc]
        decide
    | _ =>
      rcases h.2 with ⟨d, ds, hw, blank, -⟩
      rw [hw] at hc
      rw [← Option.some.inj hc]
      exact blank

/-- What starts as a word does, and not with a digit, is a name. -/
theorem Spelled.Reads.exists_name (h : p.Reads after) (hc : c ∈ p.chars.head?)
    (word : continuesWord c = true) (digit : isDecimal c = false) :
    ∃ s, p.token = some (.name s) := by
  rcases p with ⟨t, w⟩
  cases t with
  | none =>
    have blank := h.2.1 c (List.mem_of_head? hc)
    rw [isBlank_of_continuesWord word] at blank
    exact Bool.noConfusion blank
  | some t =>
    cases t with
    | name s => exact ⟨s, rfl⟩
    | string s =>
      rcases h with ⟨q, body, rfl | rfl, hw, -⟩
      · rw [hw] at hc
        rw [← Option.some.inj hc] at word
        exact absurd word (by decide)
      · rw [hw] at hc
        rw [← Option.some.inj hc] at word
        exact absurd word (by decide)
    | _ =>
      -- A number is the only other token that a word character can start.
      rcases h.2 with ⟨d, ds, hw, -, -, -, only⟩
      rw [hw] at hc
      rw [← Option.some.inj hc] at word digit
      exact absurd (only word) (by rw [digit]; exact Bool.false_ne_true)

/-- The first character of pieces is that of the first piece. -/
theorem head?_spelling {ps : List Spelled} (h : p.Reads after) (xs : List Char) :
    (spelling (p :: ps) ++ xs).head? = p.chars.head? := by
  rw [spelling_cons, List.append_assoc, List.head?_append_of_ne_nil _ h.ne_nil]

end First

section Characters

variable {ps : List Spelled} {after xs : List Char}

/-- Blanks are read as blanks. -/
theorem Reads.gap (h : Reads ps after) {g : Gap} (hps : spelling ps = g.chars ++ xs)
    (hxs : ∀ c ∈ xs.head?, isBlank c = false) :
    ∃ w qs, ps = ⟨none, w⟩ :: qs ∧ spelling qs = xs ∧ Reads qs after := by
  cases ps with
  | nil => exact absurd (List.append_eq_nil_iff.mp hps.symm).1 g.ne_nil
  | cons p qs =>
    rcases h with ⟨hp, hqs⟩
    rcases List.exists_cons_of_ne_nil g.ne_nil with ⟨c, cs, hg⟩
    have first : c ∈ p.chars.head? := by
      rw [← head?_spelling hp [], List.append_nil, hps, hg]
      rfl
    have blank := g.blank c (by rw [hg]; exact List.mem_cons_self)
    rcases p with ⟨t, w⟩
    cases (show t = none from hp.token_of_isBlank first blank)
    -- Both runs of blanks go as far as they can, so they are the same.
    have rest := (eq_of_runs ((spelling_cons _ _).symm.trans hps) hp.2.1 g.blank
      (fun d hd => hp.2.2 d (List.mem_head?_append_of_mem_head? hd)) hxs).2
    exact ⟨w, qs, rfl, rest, hqs⟩

/-- A word is read as the name that is the first token. -/
theorem Reads.eq_cons {a : String} {ts : List Token} (h : Reads ps after)
    (hps : spoken ps = .name a :: ts) (first : ∀ c ∈ (spelling ps).head?, isBlank c = false) :
    ∃ w qs, ps = ⟨some (.name a), w⟩ :: qs ∧ spoken qs = ts := by
  cases ps with
  | nil => exact absurd hps.symm (List.cons_ne_nil _ _)
  | cons p qs =>
    rcases p with ⟨t, w⟩
    cases t with
    | none =>
      -- The first piece would be blanks, and no blank comes first.
      rcases List.exists_cons_of_ne_nil h.1.1 with ⟨c, cs, hc⟩
      have blank := h.1.2.1 c (by rw [hc]; exact List.mem_cons_self)
      rw [first c (by rw [← List.append_nil (spelling _), head?_spelling h.1, hc]; rfl)] at blank
      exact Bool.noConfusion blank
    | some t =>
      rcases List.cons.inj hps with ⟨rfl, rest⟩
      exact ⟨w, qs, rfl, rest⟩

/-- A name goes on as far as its word. -/
theorem Reads.name {s : String} {v w : List Char} (h : Reads (⟨some (.name s), v⟩ :: ps) after)
    (hps : v ++ spelling ps = w ++ xs) (hw : ∀ c ∈ w, continuesWord c = true)
    (hxs : ∀ c ∈ xs.head?, continuesWord c = false) : s.toList = w ∧ spelling ps = xs := by
  rcases h with ⟨⟨same, -, word, stop⟩, -⟩
  rw [← same]
  exact eq_of_runs hps word hw
    (fun d hd => stop d (List.mem_head?_append_of_mem_head? hd)) hxs

theorem Reads.word {word : String} (hword : IsWord word)
    (digit : word.toList.head?.any isDecimal = false) (h : Reads ps after)
    (hps : spelling ps = word.toList ++ xs) (hxs : ∀ c ∈ xs.head?, continuesWord c = false) :
    ∃ w qs, ps = ⟨some (.name word), w⟩ :: qs ∧ spelling qs = xs ∧ Reads qs after := by
  rcases List.exists_cons_of_ne_nil hword.ne_nil with ⟨c, cs, hc⟩
  rw [hc] at digit
  have continues : ∀ d ∈ word.toList, continuesWord d = true := fun d hd =>
    continuesWord_of_isWordChar (hword.isWordChar d hd)
  cases ps with
  | nil => exact absurd (List.append_eq_nil_iff.mp hps.symm).1 hword.ne_nil
  | cons p qs =>
    have first : c ∈ p.chars.head? := by
      rw [← head?_spelling h.1 [], List.append_nil, hps, hc]
      rfl
    rcases h.1.exists_name first (continues c (by rw [hc]; exact List.mem_cons_self))
      digit with ⟨s, hs⟩
    rcases p with ⟨t, w⟩
    cases (show t = some (.name s) from hs)
    -- The name goes on as far as the word does, so it is the word.
    rcases Reads.name h ((spelling_cons _ _).symm.trans hps) continues hxs with ⟨same, rest⟩
    rw [← String.toList_inj.mp same]
    exact ⟨w, qs, rfl, rest, h.2⟩

/-- A word behind blanks is the first token. -/
theorem Reads.gapWord {word : String} (hword : IsWord word)
    (digit : word.toList.head?.any isDecimal = false) (h : Reads ps after) {g : Gap}
    (hps : spelling ps = g.chars ++ (word.toList ++ xs))
    (hxs : ∀ c ∈ xs.head?, continuesWord c = false) :
    ∃ qs, startsApart ps = true ∧ spoken ps = .name word :: spoken qs ∧ spelling qs = xs ∧
      Reads qs after := by
  rcases h.gap hps (fun c hc => (hword.isSolid_head xs c hc).1) with ⟨w, qs, rfl, hqs, h⟩
  rcases h.word hword digit hqs hxs with ⟨v, qs', rfl, hqs', h⟩
  exact ⟨qs', rfl, rfl, hqs', h⟩

/-- Blanks have no tokens. -/
theorem Reads.spoken_space (h : Reads ps after) {b : Space} (hps : spelling ps = b.chars) :
    startsApart ps = true ∧ spoken ps = [] := by
  have blank : ∀ c ∈ spelling ps, isBlank c = true := hps ▸ b.blank
  -- Only that all is blank is kept: the pieces behind the first are blank too.
  clear hps
  induction ps with
  | nil => exact ⟨rfl, rfl⟩
  | cons p qs ih =>
    rcases List.exists_cons_of_ne_nil h.1.ne_nil with ⟨c, cs, hc⟩
    rcases p with ⟨t, w⟩
    rw [spelling_cons] at blank
    have none := h.1.token_of_isBlank (c := c) (by rw [hc]; rfl)
      (blank c (List.mem_append_left _ (by rw [hc]; exact List.mem_cons_self)))
    cases (show t = Option.none from none)
    exact ⟨rfl, (ih h.2 fun d hd => blank d (List.mem_append_right _ hd)).2⟩

end Characters

section Tokens

variable {ps : List Spelled} {after : List Char}

/-- Without tokens there are only blanks. -/
theorem Reads.exists_space (h : Reads ps after) (hps : spoken ps = []) :
    startsApart ps = true ∧ ∃ b : Space, spelling ps = b.chars := by
  induction ps with
  | nil => exact ⟨rfl, Space.empty, rfl⟩
  | cons p qs ih =>
    rcases p with ⟨t, w⟩
    cases t with
    | some t => exact absurd hps (List.cons_ne_nil _ _)
    | none =>
      rcases ih h.2 hps with ⟨-, b, hb⟩
      refine ⟨rfl, ⟨w ++ b.chars, fun c hc => ?_⟩, ?_⟩
      · exact (List.mem_append.mp hc).elim (h.1.2.1 c) (b.blank c)
      · exact (spelling_cons _ _).trans (congrArg (w ++ ·) hb)

/-- Behind a word the next name is apart. -/
theorem Reads.apart {u : String} {ts : List Token} (h : Reads ps after)
    (stop : ∀ c ∈ (spelling ps ++ after).head?, continuesWord c = false)
    (hps : spoken ps = .name u :: ts) : startsApart ps = true := by
  cases ps with
  | nil => rfl
  | cons p qs =>
    rcases p with ⟨t, w⟩
    cases t with
    | none => rfl
    | some t =>
      cases (List.cons.inj hps).1
      rcases List.exists_cons_of_ne_nil h.1.2.1 with ⟨c, cs, hc⟩
      have word := h.1.2.2.1 c (by rw [hc]; exact List.mem_cons_self)
      -- Two names side by side would have been read as one.
      rw [stop c (by rw [head?_spelling h.1, hc]; rfl)] at word
      exact Bool.noConfusion word

/-- A name has a word, and blanks may stand in front of it. -/
theorem Reads.exists_word {v : String} {ts : List Token} (h : Reads ps after)
    (hps : spoken ps = .name v :: ts) :
    (∃ b : Space, spelling ps = b.chars ++ (v.toList ++ spelling (behind ps)) ∧
      (startsApart ps = true → b.chars ≠ [])) ∧
      spoken (behind ps) = ts ∧ Reads (behind ps) after ∧
      v.toList ≠ [] ∧ (∀ c ∈ v.toList, continuesWord c = true) ∧
      ∀ c ∈ (spelling (behind ps) ++ after).head?, continuesWord c = false := by
  induction ps with
  | nil => exact absurd hps.symm (List.cons_ne_nil _ _)
  | cons p qs ih =>
    rcases p with ⟨t, w⟩
    cases t with
    | none =>
      -- Blanks in front of the name are put together with those found behind them.
      rcases ih h.2 hps with ⟨⟨b, hqs, -⟩, rest⟩
      refine ⟨⟨⟨w ++ b.chars, fun c hc => ?_⟩, ?_, fun _ => ?_⟩, rest⟩
      · exact (List.mem_append.mp hc).elim (h.1.2.1 c) (b.blank c)
      · exact (spelling_cons _ _).trans
          ((congrArg (w ++ ·) hqs).trans (List.append_assoc _ _ _).symm)
      · exact List.append_ne_nil_of_left_ne_nil h.1.1 _
    | some t =>
      cases (List.cons.inj hps).1
      rcases h.1 with ⟨same, present, word, stop⟩
      rw [show w = v.toList from same] at present word
      refine ⟨⟨Space.empty, ?_, fun apart => Bool.noConfusion apart⟩, (List.cons.inj hps).2, h.2,
        present, word, stop⟩
      rw [spelling_cons]
      exact congrArg (· ++ spelling qs) same

/-- A name that is apart has blanks in front of its word. -/
theorem Reads.exists_gapWord {v : String} {ts : List Token} (h : Reads ps after)
    (apart : startsApart ps = true) (hps : spoken ps = .name v :: ts) :
    ∃ (g : Gap) (qs : List Spelled), spelling ps = g.chars ++ (v.toList ++ spelling qs) ∧
      spoken qs = ts ∧ Reads qs after ∧ v.toList ≠ [] ∧
      (∀ c ∈ v.toList, continuesWord c = true) ∧
      ∀ c ∈ (spelling qs ++ after).head?, continuesWord c = false := by
  rcases h.exists_word hps with ⟨⟨b, spelled, gap⟩, rest⟩
  exact ⟨⟨b, gap apart⟩, behind ps, spelled, rest⟩

end Tokens

end Template

end Stencil
