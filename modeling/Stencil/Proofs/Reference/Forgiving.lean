import Stencil.Proofs.Reference.Collect
import Stencil.Proofs.Reference.Tail

/-!
# Targets That May Be Missing

When a tag is taken to allow that its target is missing, and when it says so.

A template says so with two words behind the name of an included template.
They are looked for twice. What may follow a name is matched word by word, with
any blanks between the words, and decides whether there is a reference at all.
The flag of the reference is set by a search for the two words, with one space
between them, in the whole argument. The two do not agree: a tag with two spaces
between the words is a reference whose target must be there, and a name that
holds the words is taken for the words.

`Mention.Modified` is what a tag says, and `Mention.Forgiven` is what it is
taken to say. `optional_iff` has the exact condition for the flag, from where a
search can succeed: the quotes around the name are no part of the words, so they
are found in the name or behind it, and behind it only in their own place,
because no other modifier has the letter `g`.

## Main definitions

* `Mention`, `mentions`: The tags that are read in a text, with their arguments.
* `Mention.Modified`: The tag says that its target may be missing.
* `Mention.Forgiven`: The tag is taken to say so.

## Theorems

* `Text.contains_iff`: A search finds what is part of a text.
* `scan_eq`: The references of a text are those that its tags make.
* `Mention.optional_iff`: When the flag is set.
* `not_optional_iff_modified`: The flag is not what the tag says.
* `failures_forgiven`: Which references of a catalog fail.
-/

namespace Stencil

namespace Text

/-- A search finds what is part of a text. -/
theorem contains_iff {needle cs : List Char} : contains needle cs = true ↔ needle <:+: cs := by
  have hfrom (n : Nat) : (findFrom needle n cs).isSome = true ↔ needle <:+: cs := by
    induction cs generalizing n with
    | nil =>
        rw [findFrom, List.infix_nil, ← List.isEmpty_iff]
        cases needle.isEmpty with
        | true => exact ⟨fun _ => rfl, fun _ => rfl⟩
        | false =>
            exact ⟨fun h => absurd h Bool.false_ne_true, fun h => absurd h Bool.false_ne_true⟩
    | cons c cs ih =>
        rw [findFrom, List.infix_cons_iff, ← startsWith_iff, ← ih (n + 1)]
        cases startsWith needle (c :: cs) with
        | true => exact ⟨fun _ => Or.inl rfl, fun _ => rfl⟩
        | false => exact ⟨Or.inr, fun h => h.resolve_left Bool.false_ne_true⟩
  exact hfrom 0

/-- What does not hold a character is found on one side of it. -/
theorem infix_append_cons_iff {sep : Char} {needle xs ys : List Char} (h : sep ∉ needle) :
    needle <:+: xs ++ sep :: ys ↔ needle <:+: xs ∨ needle <:+: ys := by
  constructor
  · intro hin
    rcases List.infix_append_iff.mp hin with hin | hin | ⟨us, vs, rfl, hus, ⟨after, hvs⟩⟩
    · exact Or.inl hin
    · rcases List.infix_cons_iff.mp hin with ⟨after, hpre⟩ | hin
      · cases needle with
        | nil => exact Or.inr (List.nil_infix)
        | cons c needle =>
            rw [List.cons_append, List.cons.injEq] at hpre
            exact absurd (by rw [hpre.1]; exact List.mem_cons_self) h
      · exact Or.inr hin
    · cases vs with
      | nil =>
          rw [List.append_nil]
          exact Or.inl hus.isInfix
      | cons v vs =>
          rw [List.cons_append, List.cons.injEq] at hvs
          rw [hvs.1] at h
          exact absurd (List.mem_append_right _ List.mem_cons_self) h
  · rintro (hin | hin)
    · exact hin.trans (List.prefix_append _ _).isInfix
    · exact hin.trans ((List.suffix_cons _ _).trans (List.suffix_append _ _)).isInfix

/-- Two texts that are cut at the first place of a character are cut alike. -/
theorem append_cons_inj {sep : Char} {xs ys us vs : List Char} (hxs : sep ∉ xs) (hus : sep ∉ us)
    (h : xs ++ sep :: ys = us ++ sep :: vs) : xs = us ∧ ys = vs := by
  rcases List.append_eq_append_iff.mp h with ⟨as, hmore, htail⟩ | ⟨as, hmore, htail⟩
  · cases as with
    | nil =>
        rw [List.append_nil] at hmore
        exact ⟨hmore.symm, (List.cons.inj htail).2⟩
    | cons a as =>
        rw [hmore, ← (List.cons.inj htail).1] at hus
        exact absurd (List.mem_append_right _ List.mem_cons_self) hus
  · cases as with
    | nil =>
        rw [List.append_nil] at hmore
        exact ⟨hmore, (List.cons.inj htail).2.symm⟩
    | cons a as =>
        rw [hmore, ← (List.cons.inj htail).1] at hxs
        exact absurd (List.mem_append_right _ List.mem_cons_self) hxs

end Text

namespace Reference

open Text

/-- A tag that is read in a text. -/
structure Mention where
  /-- The line of the tag. -/
  line : Nat
  /-- The tag. -/
  tag : Tag
  /-- What stands between the keyword and the end of the tag. -/
  argument : List Char
  deriving DecidableEq, Repr

/-- The reference that the tag makes, if its target is a literal. -/
def Mention.directive? (m : Mention) : Option Directive :=
  Reference.directive? m.tag m.line m.argument

/-- The tags of a text whose first character is on a given line, where `skip`
    characters belong to a tag that was read. -/
def mentionsFrom (line skip : Nat) : List Char → List Mention
  | [] => []
  | c :: cs =>
    let next := if c == '\n' then line + 1 else line
    match skip with
    | k + 1 => mentionsFrom next k cs
    | 0 =>
      match tagAt? (c :: cs) with
      | none => mentionsFrom next 0 cs
      | some (tag, arg, rest) =>
        ⟨line, tag, arg⟩ :: mentionsFrom next (cs.length - rest.length) cs

/-- The tags that are read in a text, in order. -/
def mentions (text : String) : List Mention :=
  mentionsFrom 1 0 (blanked text.toList)

theorem scanTags_eq (line skip : Nat) (cs : List Char) :
    scanTags line skip cs = (mentionsFrom line skip cs).filterMap Mention.directive? := by
  induction cs generalizing line skip with
  | nil => rfl
  | cons c cs ih =>
      cases skip with
      | succ k => exact ih _ k
      | zero =>
          rw [scanTags, mentionsFrom]
          rcases tagAt? (c :: cs) with _ | ⟨tag, arg, rest⟩
          · exact ih _ 0
          · simp only [ih]
            change (Mention.directive? ⟨line, tag, arg⟩).toList ++ _ = _
            cases hd : Mention.directive? ⟨line, tag, arg⟩ with
            | none => rw [List.filterMap_cons_none hd]; rfl
            | some d => rw [List.filterMap_cons_some hd]; rfl

/-- The references of a text are those that its tags make. -/
theorem scan_eq (text : String) : scan text = (mentions text).filterMap Mention.directive? :=
  scanTags_eq 1 0 _

/-- The words that are searched for. -/
def forgivingWords : List Char :=
  "ignore missing".toList

/-- One space. -/
def oneSpace : Gap :=
  ⟨⟨[' '], List.forall_mem_singleton.mpr rfl⟩, List.cons_ne_nil _ _⟩

/-- The tag says that its target may be missing, with some blanks between the
    two words. -/
def Mention.Modified (m : Mention) (inner : Gap) : Prop :=
  m.tag = .includes ∧ ∃ (q : Quote) (name : List Char) (gap : Gap) (context : Option ContextWords)
    (b : Space), q.char ∉ name ∧ m.argument = q.char :: (name ++ q.char ::
      (missingChars (some (gap, inner)) ++ (contextChars context ++ b.chars)))

/-- The tag is taken to say that its target may be missing: it says so with one
    space between the words, or the words are in the name. -/
def Mention.Forgiven (m : Mention) : Prop :=
  m.Modified oneSpace ∨ m.tag = .includes ∧ ∃ (q : Quote) (name rest : List Char),
    q.char ∉ name ∧ m.argument = q.char :: (name ++ q.char :: rest) ∧ forgivingWords <:+: name

/-- Among the modifiers only the two words have this letter. -/
theorem notMem_contextChars (context : Option ContextWords) (b : Space) :
    'g' ∉ contextChars context ++ b.chars := by
  have hspace (b : Space) : 'g' ∉ b.chars := fun h => absurd (b.blank _ h) (by decide)
  rw [List.mem_append, not_or]
  refine ⟨?_, hspace b⟩
  cases context with
  | none => exact List.not_mem_nil
  | some w =>
      simp only [contextChars, ContextWords.chars, List.mem_append, hspace, false_or, not_or]
      exact ⟨by cases w.isWith <;> decide, by decide⟩

/-- The two words and nothing else are found where they stand: the text has the
    letter `g` twice, and so have the words that are searched for. -/
theorem eq_space_of_infix {gap inner : Gap} {more : List Char} (hmore : 'g' ∉ more)
    (h : forgivingWords <:+: missingChars (some (gap, inner)) ++ more) : inner.chars = [' '] := by
  have hgap (g : Gap) : 'g' ∉ g.chars := fun h => absurd (g.blank _ h) (by decide)
  rcases h with ⟨before, after, heq⟩
  -- Both letters are used up, so there is none in front of what was found.
  have hcount := congrArg (List.count 'g') heq
  simp only [missingChars, List.count_append, List.count_eq_zero_of_not_mem (hgap gap),
    List.count_eq_zero_of_not_mem (hgap inner), List.count_eq_zero_of_not_mem hmore,
    show forgivingWords.count 'g' = 2 by decide, show "ignore".toList.count 'g' = 1 by decide,
    show "missing".toList.count 'g' = 1 by decide] at hcount
  have hbefore : 'g' ∉ before ++ ['i'] := by
    rw [← List.count_eq_zero, List.count_append, show ['i'].count 'g' = 0 by decide]
    omega
  have hgi : 'g' ∉ gap.chars ++ ['i'] := by
    rw [List.mem_append, not_or]
    exact ⟨hgap gap, by decide⟩
  have hsearched : 'g' ∉ "nore".toList ++ ' ' :: "missin".toList := by decide
  have hwritten : 'g' ∉ "nore".toList ++ (inner.chars ++ "missin".toList) := by
    simp only [List.mem_append, hgap inner, false_or, not_or]
    exact ⟨by decide, by decide⟩
  -- Both texts, cut at their two letters.
  have hwords : forgivingWords =
      ['i'] ++ 'g' :: (("nore".toList ++ ' ' :: "missin".toList) ++ ['g']) := rfl
  have hignore : "ignore".toList = ['i'] ++ 'g' :: "nore".toList := rfl
  have hmissing : "missing".toList = "missin".toList ++ ['g'] := rfl
  have hsplit : (before ++ ['i']) ++ 'g' :: (("nore".toList ++ ' ' :: "missin".toList) ++
        'g' :: after) =
      (gap.chars ++ ['i']) ++ 'g' :: (("nore".toList ++ (inner.chars ++ "missin".toList)) ++
        'g' :: more) := by
    rw [hwords, missingChars, hignore, hmissing] at heq
    simpa only [List.append_assoc, List.cons_append, List.nil_append] using heq
  have hfirst := (append_cons_inj hbefore hgi hsplit).2
  have hsecond := (append_cons_inj hsearched hwritten hfirst).1
  have hblanks : [' '] ++ "missin".toList = inner.chars ++ "missin".toList :=
    List.append_cancel_left hsecond
  exact (List.append_cancel_right hblanks).symm

/-- Behind a name the words are found just if they are there, with one space. -/
theorem infix_modifiers_iff {missing : Option (Gap × Gap)} {context : Option ContextWords}
    {b : Space} :
    forgivingWords <:+: missingChars missing ++ (contextChars context ++ b.chars) ↔
      ∃ gap, missingChars missing = missingChars (some (gap, oneSpace)) := by
  have hmore := notMem_contextChars context b
  constructor
  · intro h
    cases missing with
    | none => exact absurd (h.subset (show 'g' ∈ forgivingWords by decide)) hmore
    | some gaps =>
        rcases gaps with ⟨gap, inner⟩
        exact ⟨gap, by rw [missingChars, missingChars, eq_space_of_infix hmore h, oneSpace]⟩
  · rintro ⟨gap, hgap⟩
    rw [hgap]
    exact ⟨gap.chars, contextChars context ++ b.chars, by
      simp only [missingChars, oneSpace, List.append_assoc]
      rfl⟩

/-- In a name in quotes and what follows it, the words are found on one side of
    the quote. -/
theorem infix_quoted_iff {q : Quote} {name rest : List Char} :
    forgivingWords <:+: q.char :: (name ++ q.char :: rest) ↔
      forgivingWords <:+: name ∨ forgivingWords <:+: rest := by
  have hquote : q.char ∉ forgivingWords := by cases q <;> decide
  have hnil : ¬ forgivingWords <:+: [] := by rw [List.infix_nil]; decide
  rw [← infix_append_cons_iff hquote, ← List.nil_append (q.char :: (name ++ q.char :: rest)),
    infix_append_cons_iff hquote, or_iff_right hnil]

/-- A tag that makes a reference has a name in quotes and what may follow it, and
    its flag is set if the words are anywhere in it. -/
theorem Mention.exists_quoted {m : Mention} {d : Directive} (h : m.directive? = some d) :
    ∃ (q : Quote) (name rest : List Char), q.char ∉ name ∧
      m.argument = q.char :: (name ++ q.char :: rest) ∧ tailFits m.tag rest = true ∧
      (d.optional = true ↔ m.tag = .includes ∧ forgivingWords <:+: m.argument) := by
  rw [directive?, Reference.directive?] at h
  cases hliteral : literal? m.argument with
  | none => simp only [hliteral, reduceCtorEq] at h
  | some read =>
      rcases read with ⟨name, rest⟩
      rcases eq_of_literal? hliteral with ⟨q, harg, hname⟩
      simp only [hliteral] at h
      split at h
      · next hfits =>
          refine ⟨q, name, rest, hname, harg, hfits, ?_⟩
          rw [← Option.some.inj h, ← contains_iff, Bool.and_eq_true, beq_iff_eq]
          exact Iff.rfl
      · exact absurd h (Option.some_ne_none _).symm

/-- When the flag of a reference is set. -/
theorem Mention.optional_iff {m : Mention} {d : Directive} (h : m.directive? = some d) :
    d.optional = true ↔ m.Forgiven := by
  rcases exists_quoted h with ⟨q, name, rest, hname, harg, hfits, hoptional⟩
  rw [hoptional]
  constructor
  · rintro ⟨htag, hin⟩
    rw [htag] at hfits
    rcases tailFits_includes_iff.mp hfits with ⟨missing, context, b, rfl⟩
    rw [harg, infix_quoted_iff, infix_modifiers_iff] at hin
    rcases hin with hin | ⟨gap, hgap⟩
    · exact Or.inr ⟨htag, q, name, _, hname, harg, hin⟩
    · -- They are behind the name, so the tag says what it is taken to say.
      rw [hgap] at harg
      exact Or.inl ⟨htag, q, name, gap, context, b, hname, harg⟩
  · rintro (⟨htag, q', name', gap, context, b, _, harg'⟩ | ⟨htag, q', name', rest', _, harg', hin⟩)
    · refine ⟨htag, ?_⟩
      rw [harg', infix_quoted_iff, infix_modifiers_iff]
      exact Or.inr ⟨gap, rfl⟩
    · refine ⟨htag, ?_⟩
      rw [harg', infix_quoted_iff]
      exact Or.inl hin

/-- A tag with two spaces between the words. -/
def spaced : Mention :=
  ⟨1, .includes, "'x' ignore  missing".toList⟩

/-- The flag is not set where the words have two spaces between them, though the
    tag says that its target may be missing. -/
theorem not_optional_iff_modified : ¬ ∀ text, ∀ m ∈ mentions text, ∀ d, m.directive? = some d →
    (d.optional = true ↔ ∃ inner, m.Modified inner) := by
  intro h
  have hread : spaced ∈ mentions "\x7b% include 'x' ignore  missing %\x7d" := by decide +kernel
  have hspaced := h _ spaced hread ⟨"x", .includes, 1, false⟩ (by decide +kernel)
  refine absurd (hspaced.mpr ⟨⟨⟨[' ', ' '], List.all_eq_true.mp rfl⟩, List.cons_ne_nil _ _⟩,
    rfl, ?_⟩) Bool.false_ne_true
  exact ⟨.single, ['x'], oneSpace, none, Space.empty, by decide, rfl⟩

end Reference

open Reference

/-- The tags that are read in a catalog, with the paths of their templates. -/
def Catalog.mentions (c : Catalog) : List (String × Mention) :=
  c.sources.flatMap fun s => (Reference.mentions s.content).map fun m => (s.path, m)

theorem Catalog.occurrences_eq (c : Catalog) :
    c.occurrences = c.mentions.filterMap fun p => p.2.directive?.map fun d => (p.1, d) := by
  rw [occurrences, mentions, List.filterMap_flatMap]
  refine congrArg (c.sources.flatMap ·) (funext fun s => ?_)
  rw [Source.occurrences, scan_eq, List.map_filterMap, List.filterMap_map]
  rfl

/-- Which references of a catalog fail. The references are made by tags, in order,
    and the flag of a reference is set just if its tag is taken to say that its
    target may be missing. The failures are those of the tags, in order, and a
    reference fails just if it is ambiguous, or found nowhere without that. -/
theorem failures_forgiven (c : Catalog) (partialsDir : Option String) :
    (∀ text, scan text = (Reference.mentions text).filterMap Mention.directive?) ∧
    (∀ (m : Mention) (d : Directive), m.directive? = some d →
      (d.optional = true ↔ m.Forgiven)) ∧
    (collectEdges c (Resolver.ofCatalog c partialsDir)).failures =
      c.mentions.filterMap (fun p => p.2.directive?.bind fun d =>
        (Resolver.ofCatalog c partialsDir).failure? (p.1, d)) ∧
    ∀ (path : String) (m : Mention) (d : Directive), m.directive? = some d →
      (((Resolver.ofCatalog c partialsDir).failure? (path, d)).isSome = true ↔
        1 < ((Resolver.ofCatalog c partialsDir).candidates (path, d)).length ∨
          (Resolver.ofCatalog c partialsDir).candidates (path, d) = [] ∧ ¬ m.Forgiven) := by
  refine ⟨scan_eq, fun m d h => Mention.optional_iff h, ?_, fun path m d h => ?_⟩
  · rw [collectEdges_eq, Resolver.failures_foldl_record, Catalog.occurrences_eq,
      List.filterMap_filterMap]
    refine (List.nil_append _).trans (List.filterMap_congr fun p _ => ?_)
    cases p.2.directive? with
    | none => rfl
    | some d => rfl
  · rw [Resolver.isSome_failure?, Resolver.Fails, ← Mention.optional_iff h,
      Bool.not_eq_true]

/-- A tag with the words in the name of its target. -/
def named : Mention :=
  ⟨1, .includes, "'ignore missing'".toList⟩

/-- Words in a name are enough, whatever is behind it: the target is found nowhere,
    and that is no failure. -/
theorem failures_forgiven_named :
    named.directive? = some ⟨"ignore missing", .includes, 1, true⟩ ∧ named.Forgiven ∧
      ((Resolver.ofCatalog ⟨⟨"/", []⟩, []⟩ none).failure?
        ("a", ⟨"ignore missing", .includes, 1, true⟩)).isSome = false := by
  have hall := failures_forgiven ⟨⟨"/", []⟩, []⟩ none
  have hread : named.directive? = some ⟨"ignore missing", .includes, 1, true⟩ := by
    decide +kernel
  have hforgiven : named.Forgiven := (hall.2.1 _ _ hread).mp rfl
  refine ⟨hread, hforgiven, Bool.eq_false_iff.mpr fun hfails => ?_⟩
  rcases (hall.2.2.2 "a" _ _ hread).mp hfails with hlong | ⟨_, hnot⟩
  · exact absurd hlong (by decide +kernel)
  · exact hnot hforgiven

end Stencil
