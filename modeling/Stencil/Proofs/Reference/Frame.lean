import Stencil.Proofs.Reference.Passing
import Stencil.Proofs.Text.Split
import Stencil.Proofs.Text.Trim

/-!
# The Frame of a Tag

How a tag is written around its words, and where the reader of tags finds the
words again.

A tag opens with its delimiter, a sign of white-space control and blanks, and
closes with blanks, a sign and its delimiter. The sign and the blanks may be
missing. `Space`, `Sign` and `Frame` are the ways to write them, so a tag that
is read is one of these frames with something in it, and the reader takes any
of them off.

Where an argument ends is less plain, because it is cut off at the first place
from which nothing but the end of the tag can be read. A sign or blanks at the
end of an argument are read as part of the frame, so `exists_argument?` says
what the argument and the frame are together.

## Main definitions

* `Space`, `Gap`, `Sign`: Blanks, blanks that have to be there, and signs.
* `IsWord`: One word, as the keywords and the modifiers are.
* `Frame.around`: A tag that is written around its words.

## Theorems

* `Text.isWordChar_of_isBlank`: A blank is no word character.
* `tagStart?_start`, `eq_of_tagStart?`: The start of a tag is taken off.
* `tagEnd?_eq_some_iff`: The end of a tag is blanks, a sign and the delimiter.
* `bareTag?_around`, `eq_of_bareTag?`: A tag that is only a keyword.
* `exists_argument?`: The argument of a tag is what stands before its end.
-/

namespace Stencil

namespace Text

/-- The code points of blanks. -/
def blankCodes : List Nat :=
  [9, 10, 11, 12, 13, 28, 29, 30, 31, 32, 0x85, 0xA0, 0x1680, 0x2000, 0x2001, 0x2002, 0x2003,
    0x2004, 0x2005, 0x2006, 0x2007, 0x2008, 0x2009, 0x200A, 0x2028, 0x2029, 0x202F, 0x205F, 0x3000]

theorem mem_blankCodes {c : Char} (h : isBlank c = true) : c.toNat ∈ blankCodes := by
  simp only [isBlank, Bool.or_eq_true, Bool.and_eq_true, decide_eq_true_eq, beq_iff_eq] at h
  simp only [blankCodes, List.mem_cons, List.not_mem_nil, or_false]
  omega

/-- A blank is no word character. -/
theorem isWordChar_of_isBlank {c : Char} (h : isBlank c = true) : isWordChar c = false := by
  -- There are few blanks, and each of them is looked up.
  have hall : ∀ n ∈ blankCodes, isWordChar (Char.ofNat n) = false := by decide +kernel
  rw [← Char.ofNat_toNat c]
  exact hall _ (mem_blankCodes h)

end Text

namespace Reference

open Text

/-- Blanks, any number of them. -/
structure Space where
  /-- The blanks. -/
  chars : List Char
  /-- They are blanks. -/
  blank : ∀ c ∈ chars, isBlank c = true

/-- No blanks. -/
def Space.empty : Space :=
  ⟨[], fun _ h => absurd h List.not_mem_nil⟩

/-- Blanks, at least one. -/
structure Gap extends Space where
  /-- There are some. -/
  ne_nil : chars ≠ []

/-- A sign of white-space control, if there is one. -/
inductive Sign where
  /-- No sign. -/
  | none
  /-- A minus sign. -/
  | minus
  /-- A plus sign. -/
  | plus

/-- The characters of a sign. -/
def Sign.chars : Sign → List Char
  | .none => []
  | .minus => ['-']
  | .plus => ['+']

/-- What stands around the words of a tag. -/
structure Frame where
  /-- The sign behind the delimiter that opens the tag. -/
  before : Sign
  /-- The blanks in front of the words. -/
  lead : Space
  /-- The blanks behind the words. -/
  trail : Space
  /-- The sign in front of the delimiter that closes the tag. -/
  after : Sign

/-- How the tag starts. -/
def Frame.start (f : Frame) : List Char :=
  '{' :: '%' :: (f.before.chars ++ f.lead.chars)

/-- How the tag stops. -/
def Frame.stop (f : Frame) : List Char :=
  f.trail.chars ++ (f.after.chars ++ ['%', '}'])

/-- The tag with its words. -/
def Frame.around (f : Frame) (words : List Char) : List Char :=
  f.start ++ (words ++ f.stop)

/-- The character is neither a blank nor a sign. -/
def IsSolid (c : Char) : Prop :=
  isBlank c = false ∧ c ≠ '-' ∧ c ≠ '+'

instance (c : Char) : Decidable (IsSolid c) :=
  inferInstanceAs (Decidable (_ ∧ _))

theorem isSolid_of_isWordChar {c : Char} (h : isWordChar c = true) : IsSolid c := by
  refine ⟨?_, ?_, ?_⟩
  · cases hblank : isBlank c with
    | false => rfl
    | true =>
        rw [isWordChar_of_isBlank hblank] at h
        exact absurd h Bool.false_ne_true
  · rintro rfl; exact absurd h (by decide)
  · rintro rfl; exact absurd h (by decide)

/-- The text is one word. -/
def IsWord (word : String) : Prop :=
  word.toList.isEmpty = false ∧ word.toList.all isWordChar = true

instance (word : String) : Decidable (IsWord word) :=
  inferInstanceAs (Decidable (_ ∧ _))

theorem IsWord.ne_nil {word : String} (h : IsWord word) : word.toList ≠ [] :=
  List.isEmpty_eq_false_iff.mp h.1

theorem IsWord.isWordChar {word : String} (h : IsWord word) :
    ∀ c ∈ word.toList, isWordChar c = true :=
  List.all_eq_true.mp h.2

/-- A word starts with a solid character. -/
theorem IsWord.isSolid_head {word : String} (h : IsWord word) (rest : List Char) :
    ∀ c ∈ (word.toList ++ rest).head?, IsSolid c := by
  intro c hc
  rw [List.head?_append_of_ne_nil _ h.ne_nil] at hc
  exact isSolid_of_isWordChar (h.isWordChar c (List.mem_of_head? hc))

theorem Space.dropBlanks_append (b : Space) {rest : List Char}
    (h : ∀ c ∈ rest.head?, isBlank c = false) : dropBlanks (b.chars ++ rest) = rest := by
  rw [dropBlanks, List.dropWhile_append_of_pos b.blank]
  exact dropWhile_eq_self h

theorem exists_space (cs : List Char) : ∃ b : Space, cs = b.chars ++ dropBlanks cs :=
  ⟨⟨cs.takeWhile isBlank, fun c hc => List.all_eq_true.mp List.all_takeWhile c hc⟩,
    List.takeWhile_append_dropWhile.symm⟩

theorem Sign.dropSign_append (s : Sign) {rest : List Char}
    (h : ∀ c ∈ rest.head?, c ≠ '-' ∧ c ≠ '+') : dropSign (s.chars ++ rest) = rest := by
  cases s with
  | minus => rfl
  | plus => rfl
  | none =>
      rw [chars, List.nil_append]
      cases rest with
      | nil => rfl
      | cons c rest =>
          rcases h c rfl with ⟨hminus, hplus⟩
          rw [dropSign]
          · exact fun _ heq => hminus (List.cons.inj heq).1
          · exact fun _ heq => hplus (List.cons.inj heq).1

theorem exists_sign (cs : List Char) : ∃ s : Sign, cs = s.chars ++ dropSign cs := by
  unfold dropSign
  split
  · exact ⟨.minus, rfl⟩
  · exact ⟨.plus, rfl⟩
  · exact ⟨.none, rfl⟩

theorem Sign.eq_of_mem {s : Sign} {c : Char} (h : c ∈ s.chars) :
    s.chars = [c] ∧ (c = '-' ∨ c = '+') := by
  cases s with
  | none => exact absurd h List.not_mem_nil
  | minus => rw [List.mem_singleton.mp h]; exact ⟨rfl, Or.inl rfl⟩
  | plus => rw [List.mem_singleton.mp h]; exact ⟨rfl, Or.inr rfl⟩

/-- Neither blanks nor a sign have a solid character. -/
theorem IsSolid.notMem {c : Char} (h : IsSolid c) (b : Space) (s : Sign) :
    c ∉ b.chars ++ s.chars := by
  intro hmem
  rcases List.mem_append.mp hmem with hb | hs
  · exact absurd (b.blank c hb) (by rw [h.1]; exact Bool.false_ne_true)
  · rcases (Sign.eq_of_mem hs).2 with rfl | rfl
    · exact h.2.1 rfl
    · exact h.2.2 rfl

theorem isSolid_percent : IsSolid '%' := by decide

/-- The start of a tag is taken off: what is left is compared with a keyword. -/
theorem tagStart?_start (keyword : String) (f : Frame) {rest : List Char}
    (h : ∀ c ∈ rest.head?, IsSolid c) :
    tagStart? keyword (f.start ++ rest) = dropPrefix? keyword.toList rest := by
  -- Behind the sign there is a blank or what is not part of the frame, so no other sign.
  have hsign : ∀ c ∈ (f.lead.chars ++ rest).head?, c ≠ '-' ∧ c ≠ '+' := by
    intro c hc
    cases hlead : f.lead.chars with
    | nil =>
        rw [hlead, List.nil_append] at hc
        exact (h c hc).2
    | cons b bs =>
        have hblank := f.lead.blank b (by rw [hlead]; exact List.mem_cons_self)
        rw [hlead, List.cons_append, List.head?_cons, Option.mem_some_iff] at hc
        rw [← hc]
        constructor
        · rintro rfl; exact absurd hblank (by decide)
        · rintro rfl; exact absurd hblank (by decide)
  have hopen : dropPrefix? ['{', '%'] (f.start ++ rest) =
      some (f.before.chars ++ (f.lead.chars ++ rest)) := by
    rw [← List.append_assoc]
    exact dropPrefix?_append ['{', '%'] _
  simp only [tagStart?, hopen]
  rw [Sign.dropSign_append _ hsign, Space.dropBlanks_append _ (fun c hc => (h c hc).1)]

/-- What starts with a keyword is the start of a tag and the keyword. -/
theorem eq_of_tagStart? {keyword : String} {cs rest : List Char}
    (h : tagStart? keyword cs = some rest) :
    ∃ (s : Sign) (b : Space), cs =
      '{' :: '%' :: (s.chars ++ (b.chars ++ (keyword.toList ++ rest))) := by
  rw [tagStart?] at h
  cases hopen : dropPrefix? ['{', '%'] cs with
  | none => simp only [hopen, reduceCtorEq] at h
  | some inner =>
      simp only [hopen] at h
      rcases exists_sign inner with ⟨s, hs⟩
      rcases exists_space (dropSign inner) with ⟨b, hb⟩
      refine ⟨s, b, ?_⟩
      rw [← eq_append_of_dropPrefix? h, ← hb, ← hs]
      exact eq_append_of_dropPrefix? hopen

/-- The end of a tag is blanks, a sign and the delimiter. -/
theorem tagEnd?_eq_some_iff {cs rest : List Char} :
    tagEnd? cs = some rest ↔
      ∃ (b : Space) (s : Sign), cs = (b.chars ++ s.chars) ++ '%' :: '}' :: rest := by
  constructor
  · intro h
    rcases exists_space cs with ⟨b, hb⟩
    rcases exists_sign (dropBlanks cs) with ⟨s, hs⟩
    refine ⟨b, s, ?_⟩
    rw [List.append_assoc, show '%' :: '}' :: rest = ['%', '}'] ++ rest from rfl,
      ← eq_append_of_dropPrefix? h, ← hs, ← hb]
  · rintro ⟨b, s, rfl⟩
    have hhead : ∀ c ∈ (s.chars ++ '%' :: '}' :: rest).head?, isBlank c = false := by
      intro c hc
      cases s with
      | none => rw [← Option.some.inj hc]; decide
      | minus => rw [← Option.some.inj hc]; decide
      | plus => rw [← Option.some.inj hc]; decide
    rw [tagEnd?, List.append_assoc, b.dropBlanks_append hhead,
      s.dropSign_append (fun c hc => by rw [← Option.some.inj hc]; decide)]
    exact dropPrefix?_append ['%', '}'] rest

theorem tagEnd?_stop (f : Frame) (rest : List Char) : tagEnd? (f.stop ++ rest) = some rest := by
  refine tagEnd?_eq_some_iff.mpr ⟨f.trail, f.after, ?_⟩
  rw [Frame.stop, List.append_assoc, List.append_assoc, List.append_assoc]
  rfl

/-- A tag around nothing but its keyword. -/
theorem bareTag?_around {keyword : String} (h : IsWord keyword) (f : Frame) (rest : List Char) :
    bareTag? keyword (f.around keyword.toList ++ rest) = some rest := by
  have hstart : tagStart? keyword (f.start ++ (keyword.toList ++ (f.stop ++ rest))) =
      some (f.stop ++ rest) := by
    rw [tagStart?_start keyword f (h.isSolid_head _), dropPrefix?_append]
  rw [bareTag?, Frame.around, List.append_assoc, List.append_assoc, hstart, Option.bind_some,
    tagEnd?_stop]

theorem eq_of_bareTag? {keyword : String} {cs rest : List Char}
    (h : bareTag? keyword cs = some rest) :
    ∃ f : Frame, cs = f.around keyword.toList ++ rest := by
  rcases Option.bind_eq_some_iff.mp h with ⟨inner, hstart, hend⟩
  rcases eq_of_tagStart? hstart with ⟨s, b, rfl⟩
  rcases tagEnd?_eq_some_iff.mp hend with ⟨b', s', rfl⟩
  refine ⟨⟨s, b, b', s'⟩, ?_⟩
  simp only [Frame.around, Frame.start, Frame.stop, List.cons_append, List.append_assoc,
    List.nil_append]

/-- Blanks and a sign have no delimiter, so two ends of a tag that stand at one
    place are the same. -/
theorem tagEnd?_append {us rest rest' : List Char} (h : ¬ ['%', '}'] <:+: us)
    (hend : tagEnd? (us ++ '%' :: '}' :: rest) = some rest') :
    (∃ (b : Space) (s : Sign), us = b.chars ++ s.chars) ∧ rest' = rest := by
  rcases tagEnd?_eq_some_iff.mp hend with ⟨b, s, heq⟩
  have hpercent := isSolid_percent.notMem b s
  rcases List.append_eq_append_iff.mp heq with ⟨more, hmore, htail⟩ | ⟨more, hmore, htail⟩
  · -- The delimiter that is read would begin behind the one that is there.
    cases more with
    | nil =>
        rw [List.append_nil] at hmore
        refine ⟨⟨b, s, hmore.symm⟩, ?_⟩
        rw [List.nil_append] at htail
        exact ((List.cons.inj (List.cons.inj htail).2).2).symm
    | cons c more =>
        rw [List.cons_append, List.cons.injEq] at htail
        rw [hmore, htail.1] at hpercent
        exact absurd (List.mem_append_right _ List.mem_cons_self) hpercent
  · -- The delimiter that is read would begin inside of `us`.
    cases more with
    | nil =>
        rw [List.append_nil] at hmore
        rw [List.nil_append] at htail
        exact ⟨⟨b, s, hmore⟩, (List.cons.inj (List.cons.inj htail).2).2⟩
    | cons c more =>
        rw [List.cons_append, List.cons.injEq] at htail
        cases more with
        | nil => exact absurd (List.cons.inj htail.2).1 (by decide)
        | cons d more =>
            rw [List.cons_append, List.cons.injEq] at htail
            refine absurd ⟨b.chars ++ s.chars, more, ?_⟩ h
            rw [hmore, ← htail.1, ← htail.2.1, List.append_assoc]
            rfl

section

-- What the end of a tag looks like is no matter here, and unfolding it takes long.
attribute [local irreducible] tagEnd?

theorem argument?_nil (acc : List Char) :
    argument? acc [] = (tagEnd? []).map fun rest => (acc.reverse, rest) :=
  rfl

theorem argument?_cons (acc : List Char) (c : Char) (cs : List Char) :
    argument? acc (c :: cs) =
      match tagEnd? (c :: cs) with
      | some rest => some (acc.reverse, rest)
      | none => argument? (c :: acc) cs :=
  rfl

end

/-- An argument ends where the end of the tag can be read. -/
theorem argument?_of_some {cs rest : List Char} (h : tagEnd? cs = some rest) (acc : List Char) :
    argument? acc cs = some (acc.reverse, rest) := by
  cases cs with
  | nil => rw [argument?_nil, h, Option.map_some]
  | cons c cs => rw [argument?_cons, h]

/-- It goes on where the end cannot be read. -/
theorem argument?_append {xs ys : List Char} (h : Passes tagEnd? xs ys) (acc : List Char) :
    argument? acc (xs ++ ys) = argument? (xs.reverse ++ acc) ys := by
  induction xs generalizing acc with
  | nil => rfl
  | cons x xs ih =>
      rw [List.cons_append, argument?_cons, h.head, ih h.tail, List.reverse_cons,
        List.append_assoc, List.singleton_append]

/-- The argument of a tag without another delimiter in it: what stands before
    the end of the tag falls into the argument, and into blanks and a sign, and
    from no earlier place does the end follow. -/
theorem exists_argument? {us : List Char} (h : ¬ ['%', '}'] <:+: us) (rest : List Char) :
    ∃ (arg : List Char) (b : Space) (s : Sign), us = arg ++ (b.chars ++ s.chars) ∧
      Passes tagEnd? arg ((b.chars ++ s.chars) ++ '%' :: '}' :: rest) ∧
      argument? [] (us ++ '%' :: '}' :: rest) = some (arg, rest) := by
  have hclose : tagEnd? ('%' :: '}' :: rest) = some rest :=
    tagEnd?_eq_some_iff.mpr ⟨Space.empty, .none, rfl⟩
  -- The delimiter can be read at the latest where it stands, so there is a first place.
  rcases exists_passes (Option.isSome_iff_exists.mpr ⟨rest, hclose⟩) us with
    ⟨arg, after, rfl, hpasses, hfound⟩
  rcases Option.isSome_iff_exists.mp hfound with ⟨rest', hend⟩
  rcases tagEnd?_append (fun hin => h (hin.trans (List.suffix_append arg after).isInfix)) hend with
    ⟨⟨b, s, rfl⟩, rfl⟩
  refine ⟨arg, b, s, rfl, hpasses, ?_⟩
  rw [List.append_assoc, argument?_append hpasses, argument?_of_some hend, List.append_nil,
    List.reverse_reverse]

end Reference

end Stencil
