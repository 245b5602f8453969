import Stencil.Proofs.Reference.Frame

/-!
# What Follows a Target

The words that may follow the name of another template, and how they are read.

A name in quotes is the whole target of a tag if nothing but the modifiers of
that tag follows it. `Tail` is what may be written there, with any blanks
between the words. For each tag reading is exact. Behind an included template,
say, the words fit just if they are an optional pair about a missing target, an
optional pair about the context, and blanks.

What is imported from a template is not looked into. So `Names` is any text
that is no part of the tag's own end: it starts behind the blanks, and it is not
a sign of white-space control alone, which would be read as that of the tag.

## Main definitions

* `ContextWords`, `contextChars`, `missingChars`: The modifiers.
* `Tail`, `Tail.tag`, `Tail.words`, `Tail.names`: What may follow the name in
  each tag.
* `Quote`: The two kinds of quotes.

## Theorems

* `tailFits_includes_iff`, `tailFits_inherits_iff`, `tailFits_imports_iff`,
  `tailFits_importsFrom_iff`: What may follow the name of a template.
* `tailFits_chars`: What is written fits.
* `Tail.mem_words`: The words are blanks and word characters.
* `literal?_quoted`, `eq_of_literal?`: The name in quotes.
-/

namespace Stencil

namespace Reference

open Text

theorem Gap.any_head? (g : Gap) (rest : List Char) :
    (g.chars ++ rest).head?.any isBlank = true := by
  rcases List.exists_cons_of_ne_nil g.ne_nil with ⟨c, cs, hg⟩
  rw [hg, List.cons_append, List.head?_cons, Option.any_some]
  exact g.blank c (by rw [hg]; exact List.mem_cons_self)

theorem exists_gap {cs : List Char} (h : cs.head?.any isBlank = true) :
    ∃ g : Gap, cs = g.chars ++ dropBlanks cs := by
  rcases exists_space cs with ⟨b, hb⟩
  refine ⟨⟨b, fun hnil => ?_⟩, hb⟩
  rw [hnil, List.nil_append] at hb
  cases cs with
  | nil => exact Bool.false_ne_true h
  | cons c cs =>
      have hc := head?_dropWhile isBlank (c :: cs) c (by
        rw [show (c :: cs).dropWhile isBlank = c :: cs from hb.symm]
        rfl)
      rw [List.head?_cons, Option.any_some, hc] at h
      exact Bool.false_ne_true h

/-- Behind a gap a word is looked for. -/
theorem blankWord?_gap (word : String) (g : Gap) {rest : List Char}
    (h : ∀ c ∈ rest.head?, isBlank c = false) :
    blankWord? word (g.chars ++ rest) = dropPrefix? word.toList rest := by
  rw [blankWord?, if_pos (g.any_head? rest), g.toSpace.dropBlanks_append h]

/-- Behind a gap a word is found. -/
theorem blankWord?_append {word : String} (h : IsWord word) (g : Gap) (rest : List Char) :
    blankWord? word (g.chars ++ (word.toList ++ rest)) = some rest := by
  rw [blankWord?_gap word g (fun c hc => (h.isSolid_head _ c hc).1), dropPrefix?_append]

/-- Blanks hold no word. -/
theorem blankWord?_space {word : String} (h : IsWord word) (b : Space) :
    blankWord? word b.chars = none := by
  have hdrop : dropBlanks b.chars = [] := by
    rw [dropBlanks, List.dropWhile_eq_nil_iff]
    exact b.blank
  rcases List.exists_cons_of_ne_nil h.ne_nil with ⟨c, cs, hword⟩
  rw [blankWord?, hdrop, hword]
  split <;> rfl

theorem eq_of_blankWord? {word : String} {cs rest : List Char}
    (h : blankWord? word cs = some rest) :
    ∃ g : Gap, cs = g.chars ++ (word.toList ++ rest) := by
  rw [blankWord?] at h
  split at h
  · next hblank =>
      rcases exists_gap hblank with ⟨g, hg⟩
      exact ⟨g, by rw [← eq_append_of_dropPrefix? h]; exact hg⟩
  · exact absurd h (Option.some_ne_none _).symm

theorem eq_of_blankWords? {a b : String} {cs rest : List Char}
    (h : blankWords? [a, b] cs = some rest) :
    ∃ g g' : Gap, cs = g.chars ++ (a.toList ++ (g'.chars ++ (b.toList ++ rest))) := by
  rcases Option.bind_eq_some_iff.mp h with ⟨inner, ha, hrest⟩
  rcases Option.bind_eq_some_iff.mp hrest with ⟨rest', hb, heq⟩
  rcases eq_of_blankWord? ha with ⟨g, rfl⟩
  rcases eq_of_blankWord? hb with ⟨g', rfl⟩
  exact ⟨g, g', by rw [Option.some.inj heq]⟩

/-- The words about the context, with their gaps. -/
structure ContextWords where
  /-- The blanks in front. -/
  gap : Gap
  /-- The context is passed on. -/
  isWith : Bool
  /-- The blanks between the words. -/
  inner : Gap

/-- The characters of the words about the context. -/
def ContextWords.chars (w : ContextWords) : List Char :=
  w.gap.chars ++ ((if w.isWith then "with" else "without").toList ++
    (w.inner.chars ++ "context".toList))

/-- The words about the context, or nothing. -/
def contextChars : Option ContextWords → List Char
  | none => []
  | some w => w.chars

/-- The words about a missing target with the blanks in front of each, or
    nothing. -/
def missingChars : Option (Gap × Gap) → List Char
  | none => []
  | some (g, g') => g.chars ++ ("ignore".toList ++ (g'.chars ++ "missing".toList))

/-- Words in which the first character is no blank are looked for behind a gap. -/
theorem ContextWords.blankWord?_chars (word : String) (w : ContextWords) (rest : List Char) :
    blankWord? word (w.chars ++ rest) =
      dropPrefix? word.toList ((if w.isWith then "with" else "without").toList ++
        (w.inner.chars ++ ("context".toList ++ rest))) := by
  rw [ContextWords.chars, List.append_assoc, List.append_assoc, List.append_assoc, blankWord?_gap]
  cases w.isWith with
  | false => exact fun c hc => by rw [← Option.some.inj hc]; decide
  | true => exact fun c hc => by rw [← Option.some.inj hc]; decide

theorem dropContextWords_chars (w : ContextWords) (rest : List Char) :
    dropContextWords (w.chars ++ rest) = rest := by
  have hcontext := blankWord?_append (show IsWord "context" by decide) w.inner rest
  have hword := w.blankWord?_chars (if w.isWith then "with" else "without") rest
  rw [dropPrefix?_append] at hword
  rcases hw : w.isWith with _ | _
  · -- The longer word starts with the shorter one, but the rest of it is no gap.
    have hwith : blankWords? ["with", "context"] (w.chars ++ rest) = none := by
      rw [blankWords?, w.blankWord?_chars, hw]
      rfl
    rw [hw, if_neg Bool.false_ne_true] at hword
    rw [dropContextWords, hwith]
    simp only [optionalWords, blankWords?, hword, Option.bind_some, hcontext, Option.getD_some]
  · rw [hw, if_pos rfl] at hword
    rw [dropContextWords]
    simp only [blankWords?, hword, Option.bind_some, hcontext]

theorem blankWords?_space {a b : String} (h : IsWord a) (s : Space) :
    blankWords? [a, b] s.chars = none := by
  rw [blankWords?, blankWord?_space h, Option.bind_none]

theorem dropContextWords_space (b : Space) : dropContextWords b.chars = b.chars := by
  simp only [dropContextWords, optionalWords,
    blankWords?_space (show IsWord "with" by decide) b,
    blankWords?_space (show IsWord "without" by decide) b, Option.getD_none]

theorem isRestBlank_iff {cs : List Char} : isRestBlank cs = true ↔ ∃ b : Space, cs = b.chars := by
  rw [isRestBlank, List.all_eq_true]
  constructor
  · exact fun h => ⟨⟨cs, h⟩, rfl⟩
  · rintro ⟨b, rfl⟩
    exact b.blank

/-- Words about the context fit with blanks behind them, and so do blanks. -/
theorem isRestBlank_dropContextWords_iff {cs : List Char} :
    isRestBlank (dropContextWords cs) = true ↔
      ∃ (context : Option ContextWords) (b : Space), cs = contextChars context ++ b.chars := by
  rw [isRestBlank_iff]
  constructor
  · rintro ⟨b, hb⟩
    rw [dropContextWords] at hb
    cases hwith : blankWords? ["with", "context"] cs with
    | some rest =>
        rcases eq_of_blankWords? hwith with ⟨g, g', heq⟩
        simp only [hwith] at hb
        refine ⟨some ⟨g, true, g'⟩, b, ?_⟩
        simp only [heq, hb, contextChars, ContextWords.chars, if_true, List.append_assoc]
    | none =>
        simp only [hwith, optionalWords] at hb
        cases hwithout : blankWords? ["without", "context"] cs with
        | some rest =>
            rcases eq_of_blankWords? hwithout with ⟨g, g', heq⟩
            rw [hwithout, Option.getD_some] at hb
            refine ⟨some ⟨g, false, g'⟩, b, ?_⟩
            simp only [heq, hb, contextChars, ContextWords.chars, Bool.false_eq_true, if_false,
              List.append_assoc]
        | none =>
            rw [hwithout, Option.getD_none] at hb
            exact ⟨none, b, hb⟩
  · rintro ⟨context, b, rfl⟩
    cases context with
    | none => exact ⟨b, dropContextWords_space b⟩
    | some w => exact ⟨b, dropContextWords_chars w b.chars⟩

/-- Words about the context are no words about a missing target. -/
theorem blankWords?_ignore_context (context : Option ContextWords) (b : Space) :
    blankWords? ["ignore", "missing"] (contextChars context ++ b.chars) = none := by
  cases context with
  | none => exact blankWords?_space (by decide) b
  | some w =>
      rw [contextChars, blankWords?, w.blankWord?_chars]
      cases w.isWith <;> rfl

/-- What may follow the name of an included template. -/
theorem tailFits_includes_iff {cs : List Char} :
    tailFits .includes cs = true ↔
      ∃ (missing : Option (Gap × Gap)) (context : Option ContextWords) (b : Space),
        cs = missingChars missing ++ (contextChars context ++ b.chars) := by
  rw [tailFits, isRestBlank_dropContextWords_iff]
  constructor
  · rintro ⟨context, b, heq⟩
    cases hmissing : blankWords? ["ignore", "missing"] cs with
    | some rest =>
        rcases eq_of_blankWords? hmissing with ⟨g, g', hcs⟩
        rw [optionalWords, hmissing, Option.getD_some] at heq
        refine ⟨some (g, g'), context, b, ?_⟩
        simp only [hcs, heq, missingChars, List.append_assoc]
    | none =>
        rw [optionalWords, hmissing, Option.getD_none] at heq
        exact ⟨none, context, b, heq⟩
  · rintro ⟨missing, context, b, rfl⟩
    refine ⟨context, b, ?_⟩
    -- Without the first pair nothing is taken off, so the second is not lost.
    cases missing with
    | none => rw [missingChars, List.nil_append, optionalWords, blankWords?_ignore_context,
        Option.getD_none]
    | some gaps =>
        rcases gaps with ⟨g, g'⟩
        have hignore := blankWord?_append (show IsWord "ignore" by decide) g
          (g'.chars ++ ("missing".toList ++ (contextChars context ++ b.chars)))
        have hmissing := blankWord?_append (show IsWord "missing" by decide) g'
          (contextChars context ++ b.chars)
        simp only [missingChars, optionalWords, blankWords?, List.append_assoc, hignore,
          Option.bind_some, hmissing, Option.getD_some]

/-- A word that can be the name of an imported template. -/
structure Alias where
  /-- Its characters. -/
  chars : List Char
  /-- There are some. -/
  ne_nil : chars ≠ []
  /-- They are word characters. -/
  word : ∀ c ∈ chars, isWordChar c = true

/-- What is imported from a template, in whatever form. -/
structure Names where
  /-- The first character. -/
  first : Char
  /-- The other characters. -/
  others : List Char
  /-- The blanks in front are no part of it. -/
  notBlank : isBlank first = false
  /-- It is no sign alone, as that would be the sign of the tag. -/
  notSign : first = '-' ∨ first = '+' → others ≠ []
  /-- No tag opens in it. -/
  open_notMem : '{' ∉ first :: others
  /-- No tag closes in it. -/
  close_notInfix : ¬ ['%', '}'] <:+: first :: others

/-- What may follow the name of another template, with the blanks in front of
    each word. -/
inductive Tail where
  /-- Behind an included template. -/
  | includes (missing : Option (Gap × Gap)) (context : Option ContextWords)
  /-- Behind the frame of a template. -/
  | inherits
  /-- Behind a template whose macros get a name. -/
  | imports (gap inner : Gap) (name : Alias) (context : Option ContextWords)
  /-- Behind a template some of whose macros get names. -/
  | importsFrom (gap inner : Gap) (names : Names)

/-- The tag that the words belong to. -/
def Tail.tag : Tail → Tag
  | .includes _ _ => .includes
  | .inherits => .inherits
  | .imports _ _ _ _ => .imports
  | .importsFrom _ _ _ => .importsFrom

/-- The words themselves, up to what is imported. -/
def Tail.words : Tail → List Char
  | .includes missing context => missingChars missing ++ contextChars context
  | .inherits => []
  | .imports gap inner name context =>
    gap.chars ++ ("as".toList ++ (inner.chars ++ (name.chars ++ contextChars context)))
  | .importsFrom gap inner _ => gap.chars ++ ("import".toList ++ inner.chars)

/-- What is imported, if that is written out. -/
def Tail.names : Tail → List Char
  | .includes _ _ => []
  | .inherits => []
  | .imports _ _ _ _ => []
  | .importsFrom _ _ names => names.first :: names.others

/-- The characters of the words. -/
def Tail.chars (tail : Tail) : List Char :=
  tail.words ++ tail.names

/-- The words about the context start with a blank, and so do blanks. -/
theorem isBlank_context (context : Option ContextWords) (b : Space) :
    ∀ c ∈ (contextChars context ++ b.chars).head?, isBlank c = true := by
  intro c hc
  cases context with
  | none => exact b.blank c (List.mem_of_head? hc)
  | some w =>
      rw [contextChars, ContextWords.chars, List.append_assoc,
        List.head?_append_of_ne_nil _ w.gap.ne_nil] at hc
      exact w.gap.blank c (List.mem_of_head? hc)

theorem Alias.notBlank (name : Alias) (rest : List Char) :
    ∀ c ∈ (name.chars ++ rest).head?, isBlank c = false := by
  intro c hc
  rw [List.head?_append_of_ne_nil _ name.ne_nil] at hc
  cases hblank : isBlank c with
  | false => rfl
  | true =>
      have hword := name.word c (List.mem_of_head? hc)
      rw [isWordChar_of_isBlank hblank] at hword
      exact absurd hword Bool.false_ne_true

/-- What may follow the name of a template that is the frame of another. -/
theorem tailFits_inherits_iff {cs : List Char} :
    tailFits .inherits cs = true ↔ ∃ b : Space, cs = b.chars :=
  isRestBlank_iff

/-- What may follow the name of a template whose macros get a name. -/
theorem tailFits_imports_iff {cs : List Char} :
    tailFits .imports cs = true ↔
      ∃ (gap inner : Gap) (name : Alias) (context : Option ContextWords) (b : Space),
        cs = gap.chars ++ ("as".toList ++ (inner.chars ++ (name.chars ++
          (contextChars context ++ b.chars)))) := by
  constructor
  · intro h
    rw [tailFits] at h
    cases has : blankWord? "as" cs with
    | none =>
        rw [has] at h
        exact Bool.noConfusion h
    | some rest =>
        simp only [has, Bool.and_eq_true, Bool.not_eq_true', List.isEmpty_eq_false_iff] at h
        rcases h with ⟨⟨hinner, hname⟩, hcontext⟩
        rcases eq_of_blankWord? has with ⟨gap, rfl⟩
        rcases exists_gap hinner with ⟨inner, hrest⟩
        rcases isRestBlank_dropContextWords_iff.mp hcontext with ⟨context, b, hwords⟩
        have hword : ∀ c ∈ (dropBlanks rest).takeWhile isWordChar, isWordChar c = true :=
          fun c hc => List.all_eq_true.mp List.all_takeWhile c hc
        refine ⟨gap, inner, ⟨_, hname, hword⟩, context, b, ?_⟩
        rw [← hwords, ← List.prefix_append_drop (List.takeWhile_prefix isWordChar), ← hrest]
  · rintro ⟨gap, inner, name, context, b, rfl⟩
    have has := blankWord?_append (show IsWord "as" by decide) gap
      (inner.chars ++ (name.chars ++ (contextChars context ++ b.chars)))
    -- A name starts with no blank, so blanks before it end there.
    have hdrop : dropBlanks (inner.chars ++ (name.chars ++ (contextChars context ++ b.chars))) =
        name.chars ++ (contextChars context ++ b.chars) :=
      inner.toSpace.dropBlanks_append (name.notBlank _)
    have hblank := isRestBlank_dropContextWords_iff.mpr ⟨context, b, rfl⟩
    have hname : name.chars.isEmpty = false := by
      rw [List.isEmpty_eq_false_iff]
      exact name.ne_nil
    have htake := takeWhile_append_stop name.word
      (fun c hc => isWordChar_of_isBlank (isBlank_context context b c hc))
    simp only [tailFits, has, hdrop, htake, List.drop_left, inner.any_head?, hblank, hname,
      Bool.not_false, Bool.and_self]

/-- What may follow the name of a template some of whose macros get names. -/
theorem tailFits_importsFrom_iff {cs : List Char} :
    tailFits .importsFrom cs = true ↔
      ∃ (gap inner : Gap) (c : Char) (rest : List Char), isBlank c = false ∧
        cs = gap.chars ++ ("import".toList ++ (inner.chars ++ c :: rest)) := by
  constructor
  · intro h
    rw [tailFits] at h
    cases himport : blankWord? "import" cs with
    | none =>
        rw [himport] at h
        exact Bool.noConfusion h
    | some rest =>
        simp only [himport, Bool.and_eq_true, Bool.not_eq_true', List.isEmpty_eq_false_iff] at h
        rcases eq_of_blankWord? himport with ⟨gap, rfl⟩
        rcases exists_gap h.1 with ⟨inner, hrest⟩
        rcases List.exists_cons_of_ne_nil h.2 with ⟨c, names, hnames⟩
        refine ⟨gap, inner, c, names, head?_dropWhile isBlank rest c ?_, ?_⟩
        · rw [← dropBlanks, hnames]
          rfl
        · rw [← hnames, ← hrest]
  · rintro ⟨gap, inner, c, rest, hblank, rfl⟩
    have himport := blankWord?_append (show IsWord "import" by decide) gap
      (inner.chars ++ c :: rest)
    have hdrop : dropBlanks (inner.chars ++ c :: rest) = c :: rest :=
      inner.toSpace.dropBlanks_append (fun d hd => by rw [← Option.some.inj hd]; exact hblank)
    simp only [tailFits, himport, inner.any_head?, hdrop, List.isEmpty_cons, Bool.not_false,
      Bool.and_self]

/-- What may be written behind a name fits. -/
theorem tailFits_chars (tail : Tail) : tailFits tail.tag tail.chars = true := by
  have hnil (context : Option ContextWords) :
      contextChars context = contextChars context ++ Space.empty.chars :=
    (List.append_nil _).symm
  cases tail with
  | includes missing context =>
      refine tailFits_includes_iff.mpr ⟨missing, context, Space.empty, ?_⟩
      rw [← hnil, Tail.chars, Tail.names, List.append_nil, Tail.words]
  | inherits => rfl
  | importsFrom gap inner names =>
      refine tailFits_importsFrom_iff.mpr
        ⟨gap, inner, names.first, names.others, names.notBlank, ?_⟩
      rw [Tail.chars, Tail.words, Tail.names, List.append_assoc, List.append_assoc]
  | imports gap inner name context =>
      refine tailFits_imports_iff.mpr ⟨gap, inner, name, context, Space.empty, ?_⟩
      rw [← hnil, Tail.chars, Tail.names, List.append_nil, Tail.words]

/-- The words are made of blanks and word characters. -/
theorem Tail.mem_words {tail : Tail} {c : Char} (h : c ∈ tail.words) :
    isBlank c = true ∨ isWordChar c = true := by
  have hword (w : String) (hw : IsWord w) (hc : c ∈ w.toList) : isWordChar c = true :=
    hw.isWordChar c hc
  have hcontext (context : Option ContextWords) (hc : c ∈ contextChars context) :
      isBlank c = true ∨ isWordChar c = true := by
    cases context with
    | none => exact absurd hc List.not_mem_nil
    | some w =>
        simp only [contextChars, ContextWords.chars, List.mem_append] at hc
        rcases hc with hc | hc | hc | hc
        · exact Or.inl (w.gap.blank c hc)
        · exact Or.inr (hword _ (by cases w.isWith <;> decide) hc)
        · exact Or.inl (w.inner.blank c hc)
        · exact Or.inr (hword _ (by decide) hc)
  cases tail with
  | inherits => exact absurd h List.not_mem_nil
  | includes missing context =>
      rcases List.mem_append.mp h with hmissing | hc
      · cases missing with
        | none => exact absurd hmissing List.not_mem_nil
        | some gaps =>
            simp only [missingChars, List.mem_append] at hmissing
            rcases hmissing with hc | hc | hc | hc
            · exact Or.inl (gaps.1.blank c hc)
            · exact Or.inr (hword _ (by decide) hc)
            · exact Or.inl (gaps.2.blank c hc)
            · exact Or.inr (hword _ (by decide) hc)
      · exact hcontext context hc
  | imports gap inner name context =>
      simp only [Tail.words, List.mem_append] at h
      rcases h with hc | hc | hc | hc | hc
      · exact Or.inl (gap.blank c hc)
      · exact Or.inr (hword _ (by decide) hc)
      · exact Or.inl (inner.blank c hc)
      · exact Or.inr (name.word c hc)
      · exact hcontext context hc
  | importsFrom gap inner names =>
      simp only [Tail.words, List.mem_append] at h
      rcases h with hc | hc | hc
      · exact Or.inl (gap.blank c hc)
      · exact Or.inr (hword _ (by decide) hc)
      · exact Or.inl (inner.blank c hc)

/-- The kinds of quotes. -/
inductive Quote where
  /-- An apostrophe. -/
  | single
  /-- A quotation mark. -/
  | double

/-- The character of a quote. -/
def Quote.char : Quote → Char
  | .single => '\''
  | .double => '"'

/-- A name in quotes is read up to its own quote. -/
theorem literal?_quoted {q : Quote} {name : List Char} (h : q.char ∉ name) (rest : List Char) :
    literal? (q.char :: (name ++ q.char :: rest)) = some (name, rest) := by
  have hquote : (q.char == '"' || q.char == '\'') = true := by cases q <;> decide
  have htake : (name ++ q.char :: rest).takeWhile (· != q.char) = name := by
    refine takeWhile_append_stop (fun c hc => bne_iff_ne.mpr fun heq => h (by rwa [← heq])) ?_
    intro c hc
    rw [← Option.some.inj hc, bne_self_eq_false]
  rw [literal?, if_pos hquote]
  simp only [htake, List.drop_left]

/-- What starts with a name in quotes. -/
theorem eq_of_literal? {cs name rest : List Char} (h : literal? cs = some (name, rest)) :
    ∃ q : Quote, cs = q.char :: (name ++ q.char :: rest) ∧ q.char ∉ name := by
  cases cs with
  | nil => exact absurd h (Option.some_ne_none _).symm
  | cons c cs =>
      rw [literal?] at h
      split at h
      · next hquote =>
          have hq : ∃ q : Quote, q.char = c := by
            rcases Bool.or_eq_true_iff.mp hquote with hc | hc
            · exact ⟨.double, (eq_of_beq hc).symm⟩
            · exact ⟨.single, (eq_of_beq hc).symm⟩
          rcases hq with ⟨q, rfl⟩
          have hnotMem : q.char ∉ cs.takeWhile (· != q.char) := fun hmem =>
            absurd (List.all_eq_true.mp List.all_takeWhile _ hmem) (by
              rw [bne_self_eq_false]; exact Bool.false_ne_true)
          -- The name is what stands before the next quote of the same kind.
          have hsplit : cs.takeWhile (· != q.char) ++ cs.dropWhile (· != q.char) = cs :=
            List.takeWhile_append_dropWhile
          have hdrop : cs.drop (cs.takeWhile (· != q.char)).length =
              cs.dropWhile (· != q.char) :=
            calc cs.drop (cs.takeWhile (· != q.char)).length
                = (cs.takeWhile (· != q.char) ++ cs.dropWhile (· != q.char)).drop
                    (cs.takeWhile (· != q.char)).length := by rw [hsplit]
              _ = cs.dropWhile (· != q.char) := List.drop_left
          simp only [hdrop] at h
          split at h
          · exact absurd h (Option.some_ne_none _).symm
          · next d after hafter =>
              have hd := head?_dropWhile (· != q.char) cs d (by rw [hafter]; rfl)
              rcases Prod.mk.inj (Option.some.inj h) with ⟨rfl, rfl⟩
              refine ⟨q, ?_, hnotMem⟩
              rw [bne_eq_false_iff_eq] at hd
              rw [hd] at hafter
              rw [← hafter, hsplit]
      · exact absurd h (Option.some_ne_none _).symm

end Reference

end Stencil
