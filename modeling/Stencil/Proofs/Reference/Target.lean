import Stencil.Proofs.Reference.Tail

/-!
# Tags with a Literal Target

A tag that refers to another template by a name in quotes, and how it is read.

`ReferenceTag` is such a tag as it may be written: a frame, the keyword, the
name in one kind of quotes, and what may follow it. Nothing in it opens or
closes a tag, which is what keeps the reader from stopping early.

The reader does not find the argument exactly as it was written. Where the
argument ends with blanks or a sign they are taken for the end of the tag, and
only the names that are imported can end so. A character that is neither, or
that has others behind it, is never lost (`exists_argument?_eq`), and this is
enough for the name and for the words behind it.

## Main definitions

* `ReferenceTag`, `ReferenceTag.chars`: A tag with a literal target.

## Theorems

* `tagAt?_start`: A tag with a keyword is read by its argument.
* `exists_argument?_eq`: The argument is found up to its last character.
* `tailFits_append_space`: Blanks at the end are no matter to what fits.
* `ReferenceTag.close_notInfix_argument`: The tag closes at its end only.
* `ReferenceTag.exists_directive?`: The tag is read, and refers to its name.
-/

namespace Stencil

namespace Reference

open Text

/-- A tag that refers to another template by a name in quotes. -/
structure ReferenceTag where
  /-- What stands around the words. -/
  frame : Frame
  /-- The blanks behind the keyword. -/
  gap : Gap
  /-- The quotes. -/
  quote : Quote
  /-- The name. -/
  name : List Char
  /-- What follows the name, which tells the keyword. -/
  tail : Tail
  /-- No tag opens in the name. -/
  open_notMem : '{' ∉ name
  /-- No tag closes in the name. -/
  close_notInfix : ¬ ['%', '}'] <:+: name
  /-- The name does not end early. -/
  quote_notMem : quote.char ∉ name

/-- The name in its quotes and what follows it. -/
def ReferenceTag.argument (r : ReferenceTag) : List Char :=
  r.quote.char :: (r.name ++ r.quote.char :: r.tail.chars)

/-- The characters of the tag. -/
def ReferenceTag.chars (r : ReferenceTag) : List Char :=
  r.frame.around (r.tail.tag.keyword.toList ++ (r.gap.chars ++ r.argument))

theorem Quote.isSolid (q : Quote) : IsSolid q.char := by
  cases q <;> decide

/-- A character that is no blank is in front of blanks and a sign, unless it is
    the sign. -/
theorem append_cons_ne {c : Char} {post : List Char} (hblank : isBlank c = false)
    (hsign : c = '-' ∨ c = '+' → post ≠ []) (pre : List Char) (b : Space) (s : Sign) :
    pre ++ c :: post ≠ b.chars ++ s.chars := by
  intro heq
  have hb : c ∉ b.chars := fun hmem =>
    absurd (b.blank c hmem) (by rw [hblank]; exact Bool.false_ne_true)
  -- So the character is in the sign, which is one character.
  have hs : c :: post <:+ s.chars := by
    rcases List.append_eq_append_iff.mp heq with ⟨more, hmore, htail⟩ | ⟨more, _, htail⟩
    · cases more with
      | nil =>
          rw [List.nil_append] at htail
          exact ⟨[], htail⟩
      | cons d more =>
          rw [List.cons_append, List.cons.injEq] at htail
          rw [hmore, htail.1] at hb
          exact absurd (List.mem_append_right _ List.mem_cons_self) hb
    · exact ⟨more, htail.symm⟩
  rcases Sign.eq_of_mem (hs.subset List.mem_cons_self) with ⟨hone, hc⟩
  rw [hone, List.suffix_cons_iff, List.cons.injEq] at hs
  rcases hs with ⟨_, hpost⟩ | hnil
  · exact hsign hc hpost
  · exact absurd (List.suffix_nil.mp hnil) (List.cons_ne_nil _ _)

/-- The argument of a tag is found up to a character that is no blank and no
    sign at its end. Blanks and a sign behind it are no part of it. -/
theorem exists_argument?_eq {pre post : List Char} {c : Char} (hblank : isBlank c = false)
    (hsign : c = '-' ∨ c = '+' → post ≠ []) (hclose : ¬ ['%', '}'] <:+: pre ++ c :: post)
    (rest : List Char) :
    ∃ more, argument? [] ((pre ++ c :: post) ++ '%' :: '}' :: rest) =
        some (pre ++ c :: more, rest) ∧
      ∀ (b : Space) (s : Sign), post = b.chars ++ s.chars → more = [] := by
  rcases exists_argument? hclose rest with ⟨arg, b, s, heq, hpasses, harg⟩
  have hmore : ∃ more, arg = pre ++ c :: more ∧ post = more ++ (b.chars ++ s.chars) := by
    rcases List.append_eq_append_iff.mp heq with ⟨more, hmore, htail⟩ | ⟨more, _, htail⟩
    · cases more with
      | nil => exact absurd htail (append_cons_ne hblank hsign [] b s)
      | cons d more =>
          rw [List.cons_append, List.cons.injEq] at htail
          exact ⟨more, by rw [hmore, htail.1], htail.2⟩
    · exact absurd htail.symm (append_cons_ne hblank hsign more b s)
  rcases hmore with ⟨more, rfl, hpost⟩
  refine ⟨more, harg, fun b' s' hends => ?_⟩
  -- If the end of the tag could be read earlier, it would have been.
  have hearly : tagEnd? (more ++ ((b.chars ++ s.chars) ++ '%' :: '}' :: rest)) = some rest :=
    tagEnd?_eq_some_iff.mpr ⟨b', s', by rw [← List.append_assoc, ← hpost, hends]⟩
  by_contra hne
  have hnone := hpasses more ((List.suffix_cons c more).trans (List.suffix_append pre _)) hne
  rw [hearly] at hnone
  exact Option.some_ne_none _ hnone

/-- No keyword starts with another. -/
theorem dropPrefix?_keyword {tag other : Tag} (h : other ≠ tag) (rest : List Char) :
    dropPrefix? other.keyword.toList (tag.keyword.toList ++ rest) = none := by
  cases other <;> cases tag <;> first | exact absurd rfl h | rfl

theorem isWord_keyword (tag : Tag) : IsWord tag.keyword := by
  cases tag <;> decide

/-- A tag with a keyword is read by its argument. -/
theorem tagAt?_start (tag : Tag) (f : Frame) (g : Gap) {rest : List Char}
    (h : ∀ c ∈ rest.head?, isBlank c = false) :
    tagAt? (f.start ++ (tag.keyword.toList ++ (g.chars ++ rest))) =
      (argument? [] rest).map fun r => (tag, r.1, r.2) := by
  have hown : tagStart? tag.keyword (f.start ++ (tag.keyword.toList ++ (g.chars ++ rest))) =
      some (g.chars ++ rest) := by
    rw [tagStart?_start _ f ((isWord_keyword tag).isSolid_head _), dropPrefix?_append]
  have hother (other : Tag) (hne : other ≠ tag) :
      tagStart? other.keyword (f.start ++ (tag.keyword.toList ++ (g.chars ++ rest))) = none := by
    rw [tagStart?_start _ f ((isWord_keyword tag).isSolid_head _), dropPrefix?_keyword hne]
  -- Of all keywords that are tried only its own is there.
  have hread : tagAt? (f.start ++ (tag.keyword.toList ++ (g.chars ++ rest))) =
      allTags.findSome? fun other => if other = tag then
        (argument? [] rest).map fun r => (tag, r.1, r.2) else none := by
    refine congrArg (allTags.findSome? ·) (funext fun other => ?_)
    by_cases hne : other = tag
    · subst hne
      rw [if_pos rfl, hown]
      simp only [g.any_head?, if_true, g.toSpace.dropBlanks_append h]
    · rw [if_neg hne, hother other hne]
  rw [hread]
  cases argument? [] rest with
  | none => cases tag <;> rfl
  | some r => cases tag <;> rfl

/-- Where nothing is imported by name, the words end neither with a blank nor
    with a sign. -/
theorem Tail.isSolid_getLast {tail : Tail} (h : tail.names = []) :
    ∀ c ∈ tail.words.getLast?, IsSolid c := by
  have hcontext (context : Option ContextWords) :
      ∀ c ∈ (contextChars context).getLast?, IsSolid c := by
    intro c hc
    cases context with
    | none => exact absurd hc (Option.not_mem_none c)
    | some w =>
        simp only [contextChars, ContextWords.chars, List.getLast?_append] at hc
        rw [← Option.some.inj hc]
        decide
  intro c hc
  cases tail with
  | inherits => exact absurd hc (Option.not_mem_none c)
  | importsFrom gap inner names => exact absurd h (List.cons_ne_nil _ _)
  | includes missing context =>
      rw [words, List.getLast?_append, Option.mem_def, Option.or_eq_some_iff] at hc
      rcases hc with hc | ⟨_, hc⟩
      · exact hcontext context c hc
      · cases missing with
        | none => exact absurd hc (Option.not_mem_none c)
        | some gaps =>
            simp only [missingChars, List.getLast?_append] at hc
            rw [← Option.some.inj hc]
            decide
  | imports gap inner name context =>
      have hne : name.chars ++ contextChars context ≠ [] := fun hnil =>
        name.ne_nil (List.append_eq_nil_iff.mp hnil).1
      have hlast : (words (.imports gap inner name context)).getLast? =
          (name.chars ++ contextChars context).getLast? := by
        rw [words, List.getLast?_append_of_ne_nil, List.getLast?_append_of_ne_nil,
          List.getLast?_append_of_ne_nil _ hne]
        · exact List.append_ne_nil_of_right_ne_nil _ hne
        · exact List.append_ne_nil_of_right_ne_nil _ (List.append_ne_nil_of_right_ne_nil _ hne)
      rw [hlast, List.getLast?_append, Option.mem_def, Option.or_eq_some_iff] at hc
      rcases hc with hc | ⟨_, hc⟩
      · exact hcontext context c hc
      · exact isSolid_of_isWordChar (name.word c (List.mem_of_getLast? hc))

/-- What does not end with a blank reaches into no blanks behind a text. -/
theorem prefix_of_append_space {xs cs : List Char} (b : Space) (h : xs <+: cs ++ b.chars)
    (hlast : ∀ c ∈ xs.getLast?, isBlank c = false) : xs <+: cs := by
  rcases h with ⟨more, heq⟩
  rcases List.append_eq_append_iff.mp heq with ⟨rest, hcs, -⟩ | ⟨rest, hxs, hb⟩
  · exact ⟨rest, hcs.symm⟩
  · cases hrest : rest.getLast? with
    | none =>
        rw [List.getLast?_eq_none_iff.mp hrest, List.append_nil] at hxs
        exact hxs ▸ List.prefix_refl _
    | some c =>
        -- The last character would be one of the blanks.
        have hblank := b.blank c (by
          rw [hb]
          exact List.mem_append_left _ (List.mem_of_getLast? hrest))
        rw [hlast c (by rw [hxs, List.getLast?_append, hrest]; rfl)] at hblank
        exact absurd hblank Bool.false_ne_true

/-- Where no names are imported, what fits are the words of the tag and blanks. -/
theorem tailFits_iff_words {tag : Tag} (h : tag ≠ .importsFrom) {cs : List Char} :
    tailFits tag cs = true ↔
      ∃ (tail : Tail) (b : Space),
        tail.tag = tag ∧ tail.names = [] ∧ cs = tail.words ++ b.chars := by
  constructor
  · intro hfits
    cases tag with
    | includes =>
        rcases tailFits_includes_iff.mp hfits with ⟨missing, context, b, rfl⟩
        exact ⟨.includes missing context, b, rfl, rfl, (List.append_assoc _ _ _).symm⟩
    | inherits =>
        rcases tailFits_inherits_iff.mp hfits with ⟨b, rfl⟩
        exact ⟨.inherits, b, rfl, rfl, rfl⟩
    | imports =>
        rcases tailFits_imports_iff.mp hfits with ⟨gap, inner, name, context, b, rfl⟩
        refine ⟨.imports gap inner name context, b, rfl, rfl, ?_⟩
        simp only [Tail.words, List.append_assoc]
    | importsFrom => exact absurd rfl h
  · rintro ⟨tail, b, rfl, -, rfl⟩
    cases tail with
    | includes missing context =>
        exact tailFits_includes_iff.mpr ⟨missing, context, b, List.append_assoc _ _ _⟩
    | inherits => exact tailFits_inherits_iff.mpr ⟨b, rfl⟩
    | imports gap inner name context =>
        refine tailFits_imports_iff.mpr ⟨gap, inner, name, context, b, ?_⟩
        simp only [Tail.words, List.append_assoc]
    | importsFrom gap inner names => exact absurd rfl h

/-- Blanks behind what follows a name are no matter. -/
theorem tailFits_append_space (tag : Tag) (cs : List Char) (b : Space) :
    tailFits tag (cs ++ b.chars) = tailFits tag cs := by
  rw [Bool.eq_iff_iff]
  by_cases htag : tag = .importsFrom
  · subst htag
    rw [tailFits_importsFrom_iff, tailFits_importsFrom_iff]
    constructor
    · rintro ⟨gap, inner, c, rest, hblank, heq⟩
      have hstart : gap.chars ++ ("import".toList ++ (inner.chars ++ [c])) <+: cs ++ b.chars :=
        ⟨rest, by rw [heq]; simp only [List.append_assoc, List.singleton_append]⟩
      rcases prefix_of_append_space b hstart (fun d hd => by
        simp only [← List.append_assoc, List.getLast?_concat, Option.mem_some_iff] at hd
        exact hd ▸ hblank) with ⟨more, hmore⟩
      refine ⟨gap, inner, c, more, hblank, ?_⟩
      rw [← hmore]
      simp only [List.append_assoc, List.singleton_append]
    · rintro ⟨gap, inner, c, rest, hblank, rfl⟩
      refine ⟨gap, inner, c, rest ++ b.chars, hblank, ?_⟩
      simp only [List.append_assoc, List.cons_append]
  · rw [tailFits_iff_words htag, tailFits_iff_words htag]
    constructor
    · rintro ⟨tail, b', htail, hnames, heq⟩
      rcases prefix_of_append_space b ⟨b'.chars, heq.symm⟩
        (fun c hc => (Tail.isSolid_getLast hnames c hc).1) with ⟨more, hmore⟩
      refine ⟨tail, ⟨more, fun c hc => b'.blank c ?_⟩, htail, hnames, hmore.symm⟩
      rw [← hmore, List.append_assoc] at heq
      exact List.append_cancel_left heq ▸ List.mem_append_left _ hc
    · rintro ⟨tail, b', htail, hnames, rfl⟩
      refine ⟨tail, ⟨b'.chars ++ b.chars, fun c hc => ?_⟩, htail, hnames, List.append_assoc _ _ _⟩
      exact (List.mem_append.mp hc).elim (b'.blank c) (b.blank c)

/-- No tag opens in what follows a name. -/
theorem Tail.open_notMem (tail : Tail) : '{' ∉ tail.chars := by
  intro h
  rcases List.mem_append.mp h with hwords | hnames
  · exact absurd (mem_words hwords) (by decide)
  · cases tail with
    | importsFrom gap inner names => exact names.open_notMem hnames
    | includes missing context => exact absurd hnames List.not_mem_nil
    | inherits => exact absurd hnames List.not_mem_nil
    | imports gap inner name context => exact absurd hnames List.not_mem_nil

/-- No tag closes in what follows a name. -/
theorem Tail.close_notInfix (tail : Tail) : ¬ ['%', '}'] <:+: tail.chars := by
  have hwords : '%' ∉ tail.words := fun h => absurd (mem_words h) (by decide)
  refine notInfix_append (fun h => hwords (h.subset List.mem_cons_self)) ?_
    (Or.inl fun h => hwords (List.mem_of_getLast? h))
  cases tail with
  | importsFrom gap inner names => exact names.close_notInfix
  | includes missing context => exact fun h => absurd (h.subset List.mem_cons_self) List.not_mem_nil
  | inherits => exact fun h => absurd (h.subset List.mem_cons_self) List.not_mem_nil
  | imports gap inner name context =>
      exact fun h => absurd (h.subset List.mem_cons_self) List.not_mem_nil

/-- No tag closes in the argument, nor in the blanks and the sign behind it. -/
theorem ReferenceTag.close_notInfix_argument (r : ReferenceTag) :
    ¬ ['%', '}'] <:+: r.argument ++ (r.frame.trail.chars ++ r.frame.after.chars) := by
  have hclose : '}' ∉ r.frame.trail.chars ++ r.frame.after.chars :=
    IsSolid.notMem (by decide) r.frame.trail r.frame.after
  have hsingle (c : Char) : ¬ ['%', '}'] <:+: [c] := fun h =>
    absurd h.length_le (by simp only [List.length_cons, List.length_nil]; omega)
  have hquote : r.quote.char ≠ '%' ∧ r.quote.char ≠ '}' := by cases r.quote <;> decide
  have htail : ¬ ['%', '}'] <:+: [r.quote.char] ++ r.tail.chars := by
    refine notInfix_append (hsingle _) r.tail.close_notInfix (Or.inl ?_)
    rw [List.getLast?_singleton, ne_eq, Option.some.injEq]
    exact hquote.1
  have hname : ¬ ['%', '}'] <:+: r.name ++ ([r.quote.char] ++ r.tail.chars) := by
    refine notInfix_append r.close_notInfix htail (Or.inr ?_)
    rw [List.singleton_append, List.head?_cons, ne_eq, Option.some.injEq]
    exact hquote.2
  -- The delimiter is in none of the pieces, and not across the end of one of them.
  refine notInfix_append ?_ (fun h => hclose (h.subset (List.mem_cons_of_mem _ List.mem_cons_self)))
    (Or.inr fun h => hclose (List.mem_of_head? h))
  refine notInfix_append (hsingle r.quote.char) hname (Or.inl ?_)
  rw [List.getLast?_singleton, ne_eq, Option.some.injEq]
  exact hquote.1

/-- A name in quotes is referred to if what follows it fits. -/
theorem exists_directive?_quoted {tag : Tag} {q : Quote} {name rest : List Char}
    (hname : q.char ∉ name) (hfits : tailFits tag rest = true) (line : Nat) :
    ∃ optional, directive? tag line (q.char :: (name ++ q.char :: rest)) =
      some ⟨String.ofList name, tag, line, optional⟩ := by
  rw [directive?, literal?_quoted hname]
  simp only [hfits, if_true]
  exact ⟨_, rfl⟩

/-- Where nothing is imported by name, the argument is found as it was
    written. -/
theorem ReferenceTag.argument?_eq {r : ReferenceTag} (h : r.tail.names = [])
    (rest : List Char) :
    argument? [] ((r.argument ++ (r.frame.trail.chars ++ r.frame.after.chars)) ++
      '%' :: '}' :: rest) = some (r.argument, rest) := by
  have hlast : ∃ pre c, r.argument = pre ++ [c] ∧ IsSolid c := by
    rw [argument, Tail.chars, h, List.append_nil]
    cases hwords : r.tail.words.getLast? with
    | none =>
        rw [List.getLast?_eq_none_iff.mp hwords]
        exact ⟨r.quote.char :: r.name, r.quote.char, rfl, r.quote.isSolid⟩
    | some c =>
        refine ⟨r.quote.char :: (r.name ++ r.quote.char :: r.tail.words.dropLast), c, ?_,
          Tail.isSolid_getLast h c hwords⟩
        rw [List.cons_append, List.append_assoc, List.cons_append,
          List.dropLast_append_getLast? c hwords]
  have hclose := r.close_notInfix_argument
  rcases hlast with ⟨pre, c, harg, hsolid⟩
  have hends : r.argument ++ (r.frame.trail.chars ++ r.frame.after.chars) =
      pre ++ c :: (r.frame.trail.chars ++ r.frame.after.chars) := by
    rw [harg, List.append_assoc, List.singleton_append]
  rw [hends] at hclose ⊢
  rcases exists_argument?_eq hsolid.1 (fun hsign => absurd hsign (by
    rw [not_or]; exact hsolid.2)) hclose rest with ⟨more, hread, hmore⟩
  rw [hread, hmore _ _ rfl, harg]

/-- Where names are imported, it is found up to the first of them. -/
theorem ReferenceTag.exists_argument?_names {r : ReferenceTag} {gap inner : Gap} {names : Names}
    (h : r.tail = .importsFrom gap inner names) (rest : List Char) :
    ∃ more, argument? [] ((r.argument ++ (r.frame.trail.chars ++ r.frame.after.chars)) ++
      '%' :: '}' :: rest) =
        some (r.quote.char :: (r.name ++ r.quote.char ::
          (gap.chars ++ ("import".toList ++ (inner.chars ++ names.first :: more)))), rest) := by
  have hclose := r.close_notInfix_argument
  have harg : r.argument ++ (r.frame.trail.chars ++ r.frame.after.chars) =
      (r.quote.char :: (r.name ++ r.quote.char ::
        (gap.chars ++ ("import".toList ++ inner.chars)))) ++
        names.first :: (names.others ++ (r.frame.trail.chars ++ r.frame.after.chars)) := by
    simp only [argument, h, Tail.chars, Tail.words, Tail.names, List.append_assoc,
      List.cons_append]
  rw [harg] at hclose ⊢
  rcases exists_argument?_eq names.notBlank (fun hsign => List.append_ne_nil_of_left_ne_nil
    (names.notSign hsign) _) hclose rest with ⟨more, hread, _⟩
  refine ⟨more, ?_⟩
  rw [hread]
  simp only [List.append_assoc, List.cons_append]

/-- The tag is read, its argument starts with the name, and what follows fits. -/
theorem ReferenceTag.exists_directive? (r : ReferenceTag) (rest : List Char) :
    ∃ arg, tagAt? (r.chars ++ rest) = some (r.tail.tag, arg, rest) ∧
      ∀ line, ∃ optional, directive? r.tail.tag line arg =
        some ⟨String.ofList r.name, r.tail.tag, line, optional⟩ := by
  have hread : tagAt? (r.chars ++ rest) =
      (argument? [] ((r.argument ++ (r.frame.trail.chars ++ r.frame.after.chars)) ++
        '%' :: '}' :: rest)).map fun read => (r.tail.tag, read.1, read.2) := by
    rw [← tagAt?_start r.tail.tag r.frame r.gap]
    · simp only [chars, Frame.around, Frame.stop, List.append_assoc, List.cons_append,
        List.nil_append]
    · exact fun c hc => by rw [← Option.some.inj hc]; exact r.quote.isSolid.1
  -- Three of the tags import no names, and are read alike.
  have hwhole (h : r.tail.names = []) : ∃ arg,
      tagAt? (r.chars ++ rest) = some (r.tail.tag, arg, rest) ∧ ∀ line, ∃ optional,
        directive? r.tail.tag line arg =
          some ⟨String.ofList r.name, r.tail.tag, line, optional⟩ := by
    refine ⟨r.argument, ?_, exists_directive?_quoted r.quote_notMem (tailFits_chars r.tail)⟩
    rw [hread, argument?_eq h, Option.map_some]
  cases htail : r.tail with
  | includes missing context => rw [← htail]; exact hwhole (by rw [htail, Tail.names])
  | inherits => rw [← htail]; exact hwhole (by rw [htail, Tail.names])
  | imports gap inner name context => rw [← htail]; exact hwhole (by rw [htail, Tail.names])
  | importsFrom gap inner names =>
      rcases exists_argument?_names htail rest with ⟨more, harg⟩
      rw [hread, harg, htail, Option.map_some]
      exact ⟨_, rfl, exists_directive?_quoted r.quote_notMem
        (tailFits_importsFrom_iff.mpr ⟨gap, inner, _, more, names.notBlank, rfl⟩)⟩

end Reference

end Stencil
