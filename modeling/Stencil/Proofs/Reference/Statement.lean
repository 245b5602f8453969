import Stencil.Proofs.Reference.Modifier
import Stencil.Proofs.Reference.Segment
import Stencil.Proofs.Template.Ending

/-!
# Statements as References

How the scanner of references reads the tag of one statement.

The scanner looks at the first word of the tag, at the blank behind it, and at
its argument up to the first end of a tag. The tokens of the same tag say which
reference it makes. `IsStatement` collects what is known of a tag that was
parsed, and asks of a tag with the word of a reference that it does not seem to
close early and has no escapes. The scanner then finds the reference of the tag
just if the target stands apart from the words around it, which `isSpaced`
tells, and else it finds none.

A line break in a name is read as it stands by the scanner, and as a line feed
by the parser. So names are compared with their line breaks unified.

## Main definitions

* `Directive.unified`: What a directive says, with unified line breaks.
* `refers`, `isSpaced`: The word of a reference, and the blanks that it needs.
* `IsStatement`: The tag of a statement, and what follows it.

## Theorems

* `argument?_unsigned`: The argument of a tag but for blanks at its end.
* `IsStatement.bareTag?_raw`: No raw block starts at a statement.
* `IsStatement.tagAt?_cases`: What is read where a statement stands.
-/

namespace Stencil

/-- The tag and the target of a directive, with unified line breaks. -/
def Directive.unified (d : Directive) : Tag × String :=
  (d.tag, String.ofList (Text.unifyBreaks d.name.toList))

namespace Template

open Text Reference

/-- The first word is that of a reference. -/
def refers : List Token → Bool
  | .name word :: _ => (tagOf? word).isSome
  | _ => false

/-- There are blanks in front of the target, and behind it if anything follows,
and a name that macros get is made of word characters. -/
def isSpaced (ps : List Spelled) : Bool :=
  match behind ps with
  | ⟨none, _⟩ :: ⟨some (.string _), _⟩ :: qs => startsApart qs && givesWord (spoken qs)
  | _ => false

/-- The pieces of a statement that can be parsed, the sign in front of its close
and what follows it. If it starts with the word of a reference, it holds neither
an end of a tag nor a backslash. -/
structure IsStatement (ps : List Spelled) (s : Sign) (rest : List Char) : Prop where
  /-- The pieces are what the characters are read as. -/
  reads : Reads ps (s.chars ++ '%' :: '}' :: rest)
  /-- A sign at the end would belong to the close. -/
  unsigned : s.chars = [] → EndsUnsigned (spelling ps)
  /-- Texts without a backslash stand for what is between their quotes. -/
  plain : ∀ p ∈ ps, p.IsPlain
  /-- Parsing the tokens succeeds. -/
  legal : IsLegal (spoken ps)
  /-- A reference is not cut short, and has no escapes. -/
  whole : refers (spoken ps) = true → ¬ ['%', '}'] <:+: spelling ps ∧ '\\' ∉ spelling ps

theorem exists_blank_of_isSpaced {ps : List Spelled} (h : isSpaced ps = true) :
    ∃ w qs, behind ps = ⟨none, w⟩ :: qs := by
  unfold isSpaced at h
  split at h
  · next w n v qs hps => exact ⟨w, _, hps⟩
  · exact Bool.noConfusion h

theorem isSolid_of_continuesWord {c : Char} (h : continuesWord c = true) : IsSolid c := by
  refine ⟨isBlank_of_continuesWord h, ?_, ?_⟩
  · rintro rfl
    exact absurd h (by decide)
  · rintro rfl
    exact absurd h (by decide)

theorem eq_of_tagOf? {word : String} {tag : Tag} (h : tagOf? word = some tag) :
    word = tag.keyword :=
  (eq_of_beq (List.find?_some (p := fun t : Tag => t.keyword == word) h)).symm

theorem tagReference_of_tagOf? {word : String} (h : tagOf? word = none) (ts : List Token) :
    tagReference (.name word :: ts) = [] := by
  cases ts with
  | nil => rfl
  | cons t ts =>
    cases t with
    | string s => rw [tagReference, h]
    | _ => rfl

/-- No word goes on at the end of a tag. -/
theorem continuesWord_of_tagEnd? {cs rest : List Char} (h : tagEnd? cs = some rest) :
    ∀ c ∈ cs.head?, continuesWord c = false := by
  intro c hc
  rcases head_of_tagEnd? h c hc with blank | rfl | rfl | rfl
  · exact continuesWord_of_isBlank blank
  · decide
  · decide
  · decide

theorem tagEnd?_sign (s : Sign) (rest : List Char) :
    tagEnd? (s.chars ++ '%' :: '}' :: rest) = some rest :=
  tagEnd?_eq_some_iff.mpr ⟨Space.empty, s, rfl⟩

section Argument

/-- What stands in front of a sign is told by it, if it is known whether there is
one. -/
theorem append_sign_inj {xs ys : List Char} {s s' : Sign} (h : xs ++ s.chars = ys ++ s'.chars)
    (signs : s.chars = [] ↔ s'.chars = []) : xs = ys := by
  refine (List.append_inj' h ?_).1
  -- A sign is a single character, so both sides end with as many of them.
  revert signs
  cases s <;> cases s' <;> decide

theorem EndsUnsigned.sign_eq_nil {s : Sign} (h : EndsUnsigned s.chars) : s.chars = [] := by
  cases s with
  | none => rfl
  | minus => exact absurd rfl (h '-' rfl).1
  | plus => exact absurd rfl (h '+' rfl).2

/-- A sign in front of the close belongs to it: it is neither the end of the
argument, where the close would be found earlier, nor that of the blanks behind
it. -/
theorem sign_eq_nil_of_passes {xs arg rest : List Char} {b : Space} {s : Sign}
    (same : xs ++ s.chars = arg ++ b.chars)
    (passes : Reference.Passes tagEnd? arg (b.chars ++ '%' :: '}' :: rest)) : s.chars = [] := by
  by_contra present
  rcases List.exists_cons_of_ne_nil present with ⟨e, es, he⟩
  rcases Sign.eq_of_mem (s := s) (c := e) (by rw [he]; exact List.mem_cons_self) with ⟨one, sign⟩
  cases hb : b.chars.getLast? with
  | some d =>
    have last := congrArg List.getLast? same
    rw [one, List.getLast?_concat, List.getLast?_append, hb] at last
    -- The last character would be a blank and a sign at once.
    have blank := b.blank d (List.mem_of_getLast? hb)
    rw [← Option.some.inj last] at blank
    rcases sign with rfl | rfl <;> exact absurd blank (by decide)
  | none =>
    rw [List.getLast?_eq_none_iff.mp hb, List.append_nil] at same
    rw [List.getLast?_eq_none_iff.mp hb, List.nil_append] at passes
    -- The close would be found at the sign already, inside of the argument.
    have early := passes s.chars ⟨xs, same⟩ present
    rw [tagEnd?_sign] at early
    exact Option.some_ne_none _ early

/-- The argument of a tag is all that stands in front of the sign of its close,
but for blanks. -/
theorem argument?_unsigned {xs : List Char} {s : Sign} (hclose : ¬ ['%', '}'] <:+: xs)
    (unsigned : s.chars = [] → EndsUnsigned xs) (rest : List Char) :
    ∃ (arg : List Char) (b : Space), xs = arg ++ b.chars ∧
      argument? [] (xs ++ (s.chars ++ '%' :: '}' :: rest)) = some (arg, rest) := by
  have closed : ¬ ['%', '}'] <:+: xs ++ s.chars := by
    have none : '}' ∉ s.chars := fun mem =>
      IsSolid.notMem (by decide) Space.empty s (List.mem_append_right _ mem)
    exact notInfix_append hclose (fun found => none (found.subset (by decide)))
      (.inr fun head => none (List.mem_of_head? head))
  rcases exists_argument? closed rest with ⟨arg, b, s', same, passes, found⟩
  rw [List.append_assoc] at found
  -- A sign at the end of what is read is the sign of the close.
  have signs : s.chars = [] ↔ s'.chars = [] := by
    constructor
    · intro none
      have all := unsigned none
      rw [none, List.append_nil] at same
      rw [same, ← List.append_assoc] at all
      exact (all.of_suffix (List.suffix_append _ _)).sign_eq_nil
    · intro none
      rw [none, List.append_nil] at same passes
      exact sign_eq_nil_of_passes same passes
  exact ⟨arg, b, append_sign_inj (same.trans (List.append_assoc _ _ _).symm) signs, found⟩

end Argument

section Directives

variable {ps : List Spelled} {after : List Char}

/-- What starts with a quote is a text. -/
theorem Spelled.Reads.exists_string {p : Spelled} (h : p.Reads after) {q : Quote}
    (hq : q.char ∈ p.chars.head?) : ∃ n, p.token = some (.string n) := by
  have quote : isBlank q.char = false ∧ continuesWord q.char = false ∧
      (q.char = '"' ∨ q.char = '\'') := by
    cases q <;> decide
  rcases p with ⟨t, w⟩
  cases t with
  | none =>
    have blank := h.2.1 _ (List.mem_of_head? hq)
    rw [quote.1] at blank
    exact Bool.noConfusion blank
  | some t =>
    cases t with
    | string n => exact ⟨n, rfl⟩
    | name s =>
      have word := h.2.2.1 _ (List.mem_of_head? hq)
      rw [quote.2.1] at word
      exact Bool.noConfusion word
    | _ =>
      rcases h.2 with ⟨c, cs, hw, -, double, single, -⟩
      rw [hw] at hq
      rw [← Option.some.inj hq] at quote
      exact absurd quote.2.2 (not_or.mpr ⟨double, single⟩)

/-- A text without escapes is a name in quotes. -/
theorem Spelled.Reads.exists_quote {n : String} {w : List Char}
    (h : Spelled.Reads ⟨some (.string n), w⟩ after) (plain : Spelled.IsPlain ⟨some (.string n), w⟩)
    (slash : '\\' ∉ w) : ∃ (q : Quote) (body : List Char), w = q.char :: body ++ [q.char] ∧
      q.char ∉ body ∧ n = String.ofList (unifyBreaks body) := by
  rcases h with ⟨c, body, quote, hw, first⟩
  rcases plain n rfl with ⟨c', body', hw', same⟩
  -- Both descriptions of the text are about the same characters.
  have inner : body' = body := by
    have all := hw.symm.trans hw'
    rw [List.cons_append, List.cons_append, List.cons.injEq] at all
    exact (List.append_inj' all.2 rfl).1.symm
  dsimp only at hw
  have none : '\\' ∉ body := fun mem => slash (by
    rw [hw]
    exact List.mem_append_left _ (List.mem_cons_of_mem _ mem))
  have which : ∃ q : Quote, q.char = c := by
    rcases quote with rfl | rfl
    · exact ⟨.double, rfl⟩
    · exact ⟨.single, rfl⟩
  rcases which with ⟨q, rfl⟩
  exact ⟨q, body, hw, first none, inner ▸ same (inner ▸ none)⟩

/-- What follows a target is read as it should be. -/
theorem IsLegal.asksName {tag : Tag} {n : String} {ts : List Token}
    (h : IsLegal (.name tag.keyword :: .string n :: ts)) : AsksName tag ts := by
  intro v us same words
  refine h.named tag.keyword n v us (by rw [same]) ?_
  rcases words with ⟨rfl, rfl⟩ | ⟨rfl, rfl⟩
  · exact .inl ⟨rfl, rfl⟩
  · exact .inr ⟨rfl, rfl⟩

/-- The reference that an argument makes is that of its target, if the words
behind the target are apart from it and fit. -/
theorem directive?_target {tag : Tag} {n : String} {w arg : List Char} {b : Space}
    (h : Reads (⟨some (.string n), w⟩ :: ps) after)
    (plain : Spelled.IsPlain ⟨some (.string n), w⟩) (slash : '\\' ∉ w)
    (hps : w ++ spelling ps = arg ++ b.chars)
    (legal : IsLegal (.name tag.keyword :: .string n :: spoken ps)) (line : Nat) :
    (directive? tag line arg).toList.map Directive.unified =
      if startsApart ps && givesWord (spoken ps) then
        tagReference (.name tag.keyword :: .string n :: spoken ps) else [] := by
  rcases h.1.exists_quote plain slash with ⟨q, body, rfl, quote, rfl⟩
  have solid : isBlank q.char = false := q.isSolid.1
  -- The argument lacks only blanks at the end, so the literal is all in it.
  rcases prefix_of_append_space b ⟨spelling ps, hps⟩ (fun c hc => by
    rw [List.getLast?_concat, Option.mem_some_iff] at hc
    exact hc ▸ solid) with ⟨tail, rfl⟩
  have rest := List.append_cancel_left (hps.trans (List.append_assoc _ _ _))
  -- What follows the literal is judged with the blanks that the argument lacks.
  have fits : tailFits tag tail = true ↔ startsApart ps = true ∧
      fits tag (spoken ps) = true ∧ givesWord (spoken ps) = true := by
    rw [← tailFits_append_space tag tail b, ← rest]
    exact tailFits_spelling_iff h.2 legal.asksName
  have literal : literal? (q.char :: body ++ [q.char] ++ tail) = some (body, tail) := by
    rw [List.cons_append, List.cons_append, List.append_assoc, List.singleton_append]
    exact literal?_quoted quote tail
  rw [directive?, literal, tagReference_keyword]
  dsimp only
  by_cases hfits : tailFits tag tail = true
  · rcases fits.mp hfits with ⟨apart, hfits', word⟩
    rw [if_pos hfits, if_pos (by rw [apart, word]; rfl), if_pos hfits']
    simp only [Option.toList_some, List.map_cons, List.map_nil, Directive.unified,
      String.toList_ofList]
  · rw [if_neg hfits]
    by_cases apart : (startsApart ps && givesWord (spoken ps)) = true
    · rw [Bool.and_eq_true] at apart
      rw [if_pos (by rw [apart.1, apart.2]; rfl),
        if_neg fun hfits' => hfits (fits.mpr ⟨apart.1, hfits', apart.2⟩)]
      rfl
    · rw [if_neg apart]
      rfl

/-- Where no text stands behind the word, there is no target. -/
theorem directive?_of_not_string {arg : List Char} {b : Space} (h : Reads ps after)
    (hps : spelling ps = arg ++ b.chars)
    (other : ∀ n w qs, ps ≠ ⟨some (.string n), w⟩ :: qs) (tag : Tag) (line : Nat) :
    directive? tag line arg = none := by
  cases literal : literal? arg with
  | none => rw [directive?, literal]
  | some read =>
    rcases read with ⟨name, rest⟩
    rcases eq_of_literal? literal with ⟨q, rfl, -⟩
    cases ps with
    | nil => exact absurd hps.symm (List.cons_ne_nil _ _)
    | cons p qs =>
      -- The argument starts where the pieces do, and only a text starts with a quote.
      have first : q.char ∈ p.chars.head? := by
        rw [← head?_spelling h.1 [], List.append_nil, hps]
        rfl
      rcases h.1.exists_string first with ⟨n, hn⟩
      rcases p with ⟨t, w⟩
      cases (show t = some (.string n) from hn)
      exact absurd rfl (other n w qs)

end Directives

namespace IsStatement

variable {ps : List Spelled} {s : Sign} {rest : List Char}

/-- What follows a statement is no matter. -/
theorem of_rest (h : IsStatement ps s rest) (rest' : List Char) : IsStatement ps s rest' where
  reads := h.reads.of_head? (by cases s <;> rfl)
  unsigned := h.unsigned
  plain := h.plain
  legal := h.legal
  whole := h.whole

/-- The characters of the statement, from its opening delimiter on. -/
theorem exists_start (h : IsStatement ps s rest) (s₀ : Sign) :
    ∃ (f : Frame) (word : String), spoken ps = .name word :: spoken (behind ps) ∧ word ≠ "raw" ∧
      Reads (behind ps) (s.chars ++ '%' :: '}' :: rest) ∧
      '{' :: '%' :: (s₀.chars ++ (spelling ps ++ (s.chars ++ '%' :: '}' :: rest))) =
        f.start ++ (word.toList ++ (spelling (behind ps) ++ (s.chars ++ '%' :: '}' :: rest))) ∧
      ∀ {keyword : String} {inner : List Char}, IsWord keyword →
        tagStart? keyword ('{' :: '%' :: (s₀.chars ++
          (spelling ps ++ (s.chars ++ '%' :: '}' :: rest)))) = some inner →
        (∀ c ∈ inner.head?, continuesWord c = false) →
        word = keyword ∧ inner = spelling (behind ps) ++ (s.chars ++ '%' :: '}' :: rest) := by
  -- Parsing has found a word, so the first token is a name.
  rcases h.legal.word with ⟨word, us, hps, not_raw⟩
  rcases h.reads.exists_word hps with ⟨⟨b, spelled, -⟩, hus, reads, present, continues, stop⟩
  have all : '{' :: '%' :: (s₀.chars ++ (spelling ps ++ (s.chars ++ '%' :: '}' :: rest))) =
      (Frame.mk s₀ b Space.empty .none).start ++
        (word.toList ++ (spelling (behind ps) ++ (s.chars ++ '%' :: '}' :: rest))) := by
    rw [spelled]
    simp only [Frame.start, List.append_assoc, List.cons_append]
  refine ⟨_, word, hps.trans (by rw [hus]), not_raw, reads, all, fun hkeyword start ends => ?_⟩
  rw [all, tagStart?_start] at start
  -- Both words go on as far as they can, so they are the same.
  · have runs := eq_of_runs (eq_append_of_dropPrefix? start) continues
      (fun c hc => continuesWord_of_isWordChar (hkeyword.isWordChar c hc)) stop ends
    exact ⟨String.toList_inj.mp runs.1, runs.2.symm⟩
  · intro c hc
    rw [List.head?_append_of_ne_nil _ present] at hc
    exact isSolid_of_continuesWord (continues c (List.mem_of_head? hc))

/-- No raw block starts at a statement. -/
theorem bareTag?_raw (h : IsStatement ps s rest) (s₀ : Sign) :
    bareTag? "raw" ('{' :: '%' :: (s₀.chars ++
      (spelling ps ++ (s.chars ++ '%' :: '}' :: rest)))) = none := by
  rcases h.exists_start s₀ with ⟨f, word, -, not_raw, -, -, start⟩
  rw [Option.eq_none_iff_forall_ne_some]
  intro more found
  rcases Option.bind_eq_some_iff.mp found with ⟨inner, opens, closes⟩
  -- The tag would start with that word, and no statement does.
  exact not_raw (start (by decide) opens (continuesWord_of_tagEnd? closes)).1

/-- Where the word of a tag has no blank behind it, or is not that of a reference,
no reference is read. -/
theorem tagAt?_eq_none (h : IsStatement ps s rest) (s₀ : Sign)
    (other : refers (spoken ps) = false ∨ ∀ w qs, behind ps ≠ ⟨none, w⟩ :: qs) :
    tagAt? ('{' :: '%' :: (s₀.chars ++ (spelling ps ++ (s.chars ++ '%' :: '}' :: rest)))) =
      none := by
  rcases h.exists_start s₀ with ⟨f, word, hps, -, reads, -, start⟩
  rw [Option.eq_none_iff_forall_ne_some]
  rintro ⟨tag, arg, more⟩ found
  rcases tagAt?_eq_some found with ⟨inner, opens, blank, -⟩
  have head : ∀ c ∈ inner.head?, isBlank c = true := fun c hc => by
    rw [Option.mem_def.mp hc] at blank
    exact blank
  -- What the scanner takes for the keyword is the whole first word.
  rcases start (isWord_keyword tag) opens (fun c hc => continuesWord_of_isBlank (head c hc)) with
    ⟨rfl, rfl⟩
  rcases other with other | other
  · rw [hps, refers, tagOf?_keyword] at other
    exact Bool.noConfusion other
  · cases hqs : behind ps with
    | nil =>
      -- The tag ends there, and not with a blank.
      rw [hqs] at head
      cases s with
      | none => exact absurd (head '%' rfl) (by decide)
      | minus => exact absurd (head '-' rfl) (by decide)
      | plus => exact absurd (head '+' rfl) (by decide)
    | cons p qs =>
      rw [hqs] at reads head
      rcases List.exists_cons_of_ne_nil reads.1.ne_nil with ⟨c, cs, hc⟩
      have none := reads.1.token_of_isBlank (c := c) (by rw [hc]; rfl)
        (head c (by rw [head?_spelling reads.1, hc]; rfl))
      rcases p with ⟨t, w⟩
      cases (show t = Option.none from none)
      exact other w qs hqs

section Blank

variable {tag : Tag} {w : List Char} {qs : List Spelled}

/-- Behind the word of a reference and a blank, the argument is read up to the
end of the statement. -/
theorem exists_argument (h : IsStatement ps s rest) (s₀ : Sign)
    (word : ∃ us, spoken ps = .name tag.keyword :: us) (hqs : behind ps = ⟨none, w⟩ :: qs) :
    ∃ (arg : List Char) (b : Space), spelling qs = arg ++ b.chars ∧
      tagAt? ('{' :: '%' :: (s₀.chars ++ (spelling ps ++ (s.chars ++ '%' :: '}' :: rest)))) =
        some (tag, arg, rest) := by
  rcases word with ⟨us, hword⟩
  rcases h.exists_start s₀ with ⟨f, keyword, hps, -, reads, all, -⟩
  injection hword.symm.trans hps with same
  injection same with same
  have inside : qs <:+ ps := (List.suffix_cons _ _).trans (hqs ▸ behind_suffix ps)
  have refs : refers (spoken ps) = true := by
    rw [hword, refers, tagOf?_keyword]
    rfl
  -- The statement has no end of a tag in it, so the argument reaches up to its close.
  have closed : ¬ ['%', '}'] <:+: spelling qs :=
    fun found => (h.whole refs).1 (found.trans (spelling_suffix inside).isInfix)
  rcases argument?_unsigned closed
    (fun none => (h.unsigned none).of_suffix (spelling_suffix inside)) rest with
    ⟨arg, b, split, found⟩
  refine ⟨arg, b, split, ?_⟩
  rw [hqs] at reads all
  rw [spelling_cons, List.append_assoc, ← same] at all
  rw [all, tagAt?_start tag f ⟨⟨w, reads.1.2.1⟩, reads.1.1⟩ reads.1.2.2, found, Option.map_some]

/-- The argument of a statement gives the reference of its tokens, if they are
apart from each other, and else none. -/
theorem directive?_argument (h : IsStatement ps s rest)
    (word : spoken ps = .name tag.keyword :: spoken (behind ps)) (hqs : behind ps = ⟨none, w⟩ :: qs)
    {arg : List Char} {b : Space} (split : spelling qs = arg ++ b.chars) (line : Nat) :
    (directive? tag line arg).toList.map Directive.unified =
      if isSpaced ps then tagReference (spoken ps) else [] := by
  have inside : qs <:+ ps := (List.suffix_cons _ _).trans (hqs ▸ behind_suffix ps)
  have reads := h.reads.of_suffix inside
  have legal := h.legal
  have refs : refers (spoken ps) = true := by
    rw [word, refers, tagOf?_keyword]
    rfl
  rw [hqs] at word
  rw [word] at legal ⊢
  rw [isSpaced, hqs]
  -- Without a text behind the blank, neither of the two finds a target.
  have other (no_text : ∀ n v rs, qs ≠ ⟨some (.string n), v⟩ :: rs) :
      (directive? tag line arg).toList.map Directive.unified = [] := by
    rw [directive?_of_not_string reads split no_text]
    rfl
  cases qs with
  | nil => exact other fun n v rs => (List.cons_ne_nil _ _).symm
  | cons p rs =>
    rcases p with ⟨t, v⟩
    cases t with
    | none => exact other fun n v rs same => by injection same with first; cases first
    | some t =>
      cases t with
      | string n =>
        have mem : ⟨some (.string n), v⟩ ∈ ps := inside.mem List.mem_cons_self
        refine directive?_target reads (h.plain _ mem) (fun found => (h.whole refs).2 ?_)
          ((spelling_cons _ _).symm.trans split) legal line
        exact List.mem_flatMap.mpr ⟨_, mem, found⟩
      | _ => exact other fun n v rs same => by injection same with first; cases first

end Blank

/-- Where a statement stands, no reference is read, or one is read up to the end
of the statement. It is that of the tokens if they are apart from each other,
and else there is none. -/
theorem tagAt?_cases (h : IsStatement ps s rest) (s₀ : Sign) :
    (tagAt? ('{' :: '%' :: (s₀.chars ++ (spelling ps ++ (s.chars ++ '%' :: '}' :: rest)))) = none ∧
      (isSpaced ps = true → tagReference (spoken ps) = [])) ∨
    ∃ tag arg, tagAt? ('{' :: '%' :: (s₀.chars ++
        (spelling ps ++ (s.chars ++ '%' :: '}' :: rest)))) = some (tag, arg, rest) ∧
      ∀ line, (directive? tag line arg).toList.map Directive.unified =
        if isSpaced ps then tagReference (spoken ps) else [] := by
  rcases h.exists_start s₀ with ⟨f, word, hps, -⟩
  cases hword : tagOf? word with
  | none =>
    refine .inl ⟨h.tagAt?_eq_none s₀ (.inl ?_), fun _ => ?_⟩
    · rw [hps, refers, hword]
      rfl
    · rw [hps, tagReference_of_tagOf? hword]
  | some tag =>
    cases (eq_of_tagOf? hword)
    -- Only a blank behind the word lets the scanner read on.
    by_cases blank : ∃ w qs, behind ps = ⟨none, w⟩ :: qs
    · rcases blank with ⟨w, qs, hqs⟩
      rcases h.exists_argument s₀ ⟨_, hps⟩ hqs with ⟨arg, b, split, found⟩
      exact .inr ⟨tag, arg, found, h.directive?_argument hps hqs split⟩
    · refine .inl ⟨h.tagAt?_eq_none s₀ (.inr fun w qs hqs => blank ⟨w, qs, hqs⟩), fun spaced => ?_⟩
      exact absurd (exists_blank_of_isSpaced spaced) blank

end IsStatement

end Template

end Stencil
