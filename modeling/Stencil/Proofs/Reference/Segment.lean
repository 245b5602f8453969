import Stencil.Proofs.Reference.Target

/-!
# The References of a Text That Is Put Together

What the scanner lists for a text that is made of known pieces.

A template is text with comments, raw blocks, printed expressions, blocks and
references in it. `Segment` has one constructor for each, with what its body
must not hold so that the piece ends where it is meant to end. Nothing is asked
of the pieces around it: `scan_printed` is about every sequence of segments.

The scanner goes over the text three times, and for each time there is one
lemma about one segment and any text behind it: comments are blanked out and all
else is kept, raw blocks are blanked out and all else is kept, and of what is
left the tags with a target are listed. All three look for something that opens
with a brace and one certain character, which `OpensWith` says. Text has no
brace, and in the other segments only the first characters are looked at. What
a segment holds is therefore never mistaken for another segment.

## Main definitions

* `firstWord`: The word that tells what a block is.
* `Segment`, `printed`: The pieces of a text, and the text.
* `Listing`, `listed`: What is to be listed for the pieces.

## Theorems

* `blankMatches_comments`, `blankMatches_raws`: What blanking leaves.
* `listings_scanTags`: What is listed for one segment.
* `scan_printed`: The references of a text are those it was put together from.
-/

namespace Stencil

namespace Reference

open Text

/-- The word that a tag starts with, behind a sign and blanks. -/
def firstWord (body : List Char) : List Char :=
  (dropBlanks (dropSign body)).takeWhile isWordChar

/-- A piece of a template. -/
inductive Segment where
  /-- Text outside of all tags. -/
  | text (chars : List Char) (open_notMem : '{' ∉ chars)
  /-- A comment. -/
  | comment (body : List Char) (end_notInfix : ¬ ['#', '}'] <:+: body)
  /-- A block that is not looked into, with the tags around it. -/
  | raw (opening closing : Frame) (body : List Char) (comment_notInfix : ¬ ['{', '#'] <:+: body)
    (end_notInfix : ¬ "endraw".toList <:+: body)
  /-- An expression that is printed. -/
  | output (expression : List Char) (open_notMem : '{' ∉ expression)
  /-- A tag that is neither a reference nor the start of a raw block. -/
  | block (body : List Char) (open_notMem : '{' ∉ body) (close_notInfix : ¬ ['%', '}'] <:+: body)
    (not_raw : firstWord body ≠ "raw".toList)
    (not_reference : ∀ tag : Tag, firstWord body ≠ tag.keyword.toList)
  /-- A reference to another template. -/
  | reference (tag : ReferenceTag)

/-- How the piece is written. -/
def Segment.chars : Segment → List Char
  | .text chars _ => chars
  | .comment body _ => '{' :: '#' :: (body ++ ['#', '}'])
  | .raw opening closing body _ _ =>
    opening.around "raw".toList ++ (body ++ closing.around "endraw".toList)
  | .output expression _ => '{' :: '{' :: ' ' :: (expression ++ ['}', '}'])
  | .block body _ _ _ _ => '{' :: '%' :: (body ++ ['%', '}'])
  | .reference tag => tag.chars

/-- The piece is a comment. -/
def Segment.isComment : Segment → Bool
  | .comment _ _ => true
  | .text _ _ | .raw _ _ _ _ _ | .output _ _ | .block _ _ _ _ _ | .reference _ => false

/-- The piece is a raw block. -/
def Segment.isRaw : Segment → Bool
  | .raw _ _ _ _ _ => true
  | .text _ _ | .comment _ _ | .output _ _ | .block _ _ _ _ _ | .reference _ => false

/-- The text that is put together from the pieces. -/
def printed (segments : List Segment) : List Char :=
  segments.flatMap Segment.chars

/-- What is listed of a reference, but for whether its target may be missing. -/
structure Listing where
  /-- The tag. -/
  tag : Tag
  /-- Why the target is needed. -/
  kind : EdgeKind
  /-- The name of the target. -/
  name : String
  /-- The line of the tag. -/
  line : Nat
  deriving DecidableEq, Repr

/-- What a reference that was read says. -/
def listing (d : Directive) : Listing :=
  ⟨d.tag, d.tag.kind, d.name, d.line⟩

/-- Why a target is needed that is followed by these words. -/
def Tail.kind : Tail → EdgeKind
  | .includes _ _ | .inherits => .output
  | .imports _ _ _ _ | .importsFrom _ _ _ => .macros

theorem Tail.kind_tag (tail : Tail) : tail.tag.kind = tail.kind := by
  cases tail <;> rfl

/-- What is to be listed for a piece on a line. -/
def Segment.listings (line : Nat) : Segment → List Listing
  | .reference tag => [⟨tag.tail.tag, tag.tail.kind, String.ofList tag.name, line⟩]
  | .text _ _ | .comment _ _ | .raw _ _ _ _ _ | .output _ _ | .block _ _ _ _ _ => []

/-- What is to be listed for pieces with a text in front of them: for each
    reference its line is one more than the line feeds before it. -/
def listed (before : List Char) : List Segment → List Listing
  | [] => []
  | s :: segments =>
    s.listings (1 + before.count '\n') ++ listed (before ++ s.chars) segments

/-- Two characters that do not follow one another are not found. -/
theorem passes_pair {a b : Char} {xs ys : List Char} (h : ¬ [a, b] <:+: xs)
    (hys : xs.getLast? ≠ some a ∨ ys.head? ≠ some b) : Passes (dropPrefix? [a, b]) xs ys := by
  intro v hv hne
  rw [Option.eq_none_iff_forall_ne_some]
  intro rest hrest
  have heq := eq_append_of_dropPrefix? hrest
  rcases List.exists_cons_of_ne_nil hne with ⟨c, v, rfl⟩
  rw [List.cons_append, List.cons_append, List.cons.injEq] at heq
  rcases heq with ⟨rfl, htail⟩
  cases v with
  | nil =>
      rcases hys with hlast | hhead
      · rcases hv with ⟨before, rfl⟩
        exact hlast (List.getLast?_concat ..)
      · exact hhead (by rw [show ys = b :: rest from htail]; rfl)
  | cons d v =>
      rw [List.cons_append, List.cons_append, List.cons.injEq] at htail
      rw [htail.1] at hv
      exact h ((List.prefix_append [c, b] v).isInfix.trans hv.isInfix)

section Opening

variable {α : Type} {find? : List Char → Option α} {second : Char} {xs ys : List Char}

/-- What is found opens with a brace and a certain character. -/
def OpensWith (find? : List Char → Option α) (second : Char) : Prop :=
  ∀ cs a, find? cs = some a → ∃ rest, cs = '{' :: second :: rest

theorem OpensWith.eq_none {c d : Char} (h : OpensWith find? second)
    (hne : c ≠ '{' ∨ d ≠ second) (cs : List Char) : find? (c :: d :: cs) = none := by
  rw [Option.eq_none_iff_forall_ne_some]
  intro a ha
  rcases h _ a ha with ⟨rest, heq⟩
  rw [List.cons.injEq, List.cons.injEq] at heq
  exact hne.elim (fun hc => hc heq.1) (fun hd => hd heq.2.1)

/-- Nothing is found where the two characters do not follow one another. -/
theorem OpensWith.passes_notInfix (h : OpensWith find? second) (hxs : ¬ ['{', second] <:+: xs)
    (hys : xs.getLast? ≠ some '{' ∨ ys.head? ≠ some second) : Passes find? xs ys := by
  intro v hv hne
  rw [Option.eq_none_iff_forall_ne_some]
  intro a ha
  rcases h _ a ha with ⟨rest, heq⟩
  have hpair := passes_pair hxs hys v hv hne
  rw [heq, show '{' :: second :: rest = ['{', second] ++ rest from rfl, dropPrefix?_append] at hpair
  exact Option.some_ne_none _ hpair

/-- In a stretch without a brace nothing is found. -/
theorem OpensWith.passes_text (h : OpensWith find? second) (hxs : '{' ∉ xs) (ys : List Char) :
    Passes find? xs ys := by
  refine passes_of_notMem (fun c cs hc => ?_) hxs ys
  rw [Option.eq_none_iff_forall_ne_some]
  intro a ha
  rcases h _ a ha with ⟨rest, heq⟩
  exact hc (List.cons.inj heq).1

/-- Behind the brace of a tag nothing is found. -/
theorem OpensWith.passes_tag (h : OpensWith find? second) (hxs : '{' ∉ xs)
    (hhead : find? ('{' :: (xs ++ ys)) = none) : Passes find? ('{' :: xs) ys :=
  Passes.cons hhead (h.passes_text hxs ys)

/-- In an expression that is printed nothing is found. -/
theorem OpensWith.passes_output (h : OpensWith find? second) (hsecond : second ∈ ['#', '%'])
    (hxs : '{' ∉ xs) (ys : List Char) :
    Passes find? ('{' :: '{' :: ' ' :: (xs ++ ['}', '}'])) ys := by
  have hinner : '{' ∉ ' ' :: (xs ++ ['}', '}']) := by
    simp only [List.mem_cons, List.mem_append, hxs, List.not_mem_nil, or_false, false_or]
    decide
  refine Passes.cons (h.eq_none (Or.inr ?_) _) (h.passes_tag hinner (h.eq_none (Or.inr ?_) _))
  · rintro rfl; exact absurd hsecond (by decide)
  · rintro rfl; exact absurd hsecond (by decide)

end Opening

/-- A tag is a brace and characters that are none. -/
theorem Frame.exists_around (f : Frame) {words : List Char} (h : '{' ∉ words) :
    ∃ inner, f.around words = '{' :: '%' :: inner ∧ '{' ∉ '%' :: inner := by
  have hlead : '{' ∉ f.lead.chars ++ f.before.chars := IsSolid.notMem (by decide) _ _
  have htrail : '{' ∉ f.trail.chars ++ f.after.chars := IsSolid.notMem (by decide) _ _
  rw [List.mem_append, not_or] at hlead htrail
  refine ⟨f.before.chars ++ f.lead.chars ++ (words ++ f.stop), rfl, ?_⟩
  simp only [Frame.stop, List.mem_cons, List.mem_append, hlead, htrail, h, List.not_mem_nil,
    or_false, false_or]
  decide

/-- What opens with another character than a tag is not found in one. -/
theorem OpensWith.passes_around {α : Type} {find? : List Char → Option α} {second : Char}
    (h : OpensWith find? second) (hsecond : second ≠ '%') (f : Frame) {words : List Char}
    (hwords : '{' ∉ words) (ys : List Char) : Passes find? (f.around words) ys := by
  rcases f.exists_around hwords with ⟨inner, heq, hinner⟩
  rw [heq]
  exact h.passes_tag hinner (h.eq_none (Or.inr (Ne.symm hsecond)) _)

theorem ReferenceTag.exists_chars (r : ReferenceTag) :
    ∃ inner, r.chars = '{' :: '%' :: inner ∧ '{' ∉ '%' :: inner := by
  refine r.frame.exists_around ?_
  have hgap : '{' ∉ r.gap.chars := fun h => absurd (r.gap.blank _ h) (by decide)
  have hkeyword : '{' ∉ r.tail.tag.keyword.toList := by cases r.tail.tag <;> decide
  have hquote : '{' ≠ r.quote.char := by cases r.quote <;> decide
  simp only [argument, List.mem_cons, List.mem_append, hgap, hkeyword, hquote, r.open_notMem,
    r.tail.open_notMem, or_false, not_false_eq_true]

theorem open_notMem_block {body : List Char} (h : '{' ∉ body) :
    '{' ∉ '%' :: (body ++ ['%', '}']) := by
  simp only [List.mem_cons, List.mem_append, h, List.not_mem_nil, or_false, false_or]
  decide

section Comments

theorem commentTaken?_opensWith : OpensWith commentTaken? '#' := by
  intro cs n h
  rw [commentTaken?] at h
  cases hopen : dropPrefix? ['{', '#'] cs with
  | none => simp only [hopen, reduceCtorEq] at h
  | some rest => exact ⟨rest, eq_append_of_dropPrefix? hopen⟩

/-- A comment is found as a whole. -/
theorem commentTaken?_chars {body : List Char} (h : ¬ ['#', '}'] <:+: body) (ys : List Char) :
    commentTaken? ('{' :: '#' :: (body ++ ['#', '}']) ++ ys) =
      some ('{' :: '#' :: (body ++ ['#', '}'])).length := by
  have hend : seek (dropPrefix? ['#', '}']) (body ++ (['#', '}'] ++ ys)) = some ys := by
    -- The body may end with the first character of the delimiter, which is no start of it.
    rw [seek_append (passes_pair h (.inr (by
      rw [List.cons_append, List.head?_cons, ne_eq, Option.some.injEq]; decide)))]
    exact seek_of_some (dropPrefix?_append _ ys)
  have hopen : dropPrefix? ['{', '#'] ('{' :: '#' :: (body ++ ['#', '}']) ++ ys) =
      some (body ++ (['#', '}'] ++ ys)) := by
    rw [← List.append_assoc]
    exact dropPrefix?_append ['{', '#'] _
  simp only [commentTaken?, hopen, hend, Option.map_some]
  rw [List.length_append, Nat.add_sub_cancel]

/-- No comment starts outside of the comments. -/
theorem passes_commentTaken? {s : Segment} (h : s.isComment = false) (ys : List Char) :
    Passes commentTaken? s.chars ys := by
  have hopens := commentTaken?_opensWith
  cases s with
  | comment body hbody => exact Bool.noConfusion h
  | text chars hopen => exact hopens.passes_text hopen ys
  | output expression hopen => exact hopens.passes_output (by decide) hopen ys
  | block body hopen hclose hraw href =>
      exact hopens.passes_tag (open_notMem_block hopen) (hopens.eq_none (Or.inr (by decide)) _)
  | reference r =>
      rcases r.exists_chars with ⟨inner, heq, hinner⟩
      rw [Segment.chars, heq]
      exact hopens.passes_tag hinner (hopens.eq_none (Or.inr (by decide)) _)
  | raw opening closing body hcomment hend =>
      refine (hopens.passes_around (by decide) opening (by decide) _).append
        (Passes.append ?_ (hopens.passes_around (by decide) closing (by decide) _))
      -- The body may end with a brace, and another stands behind it.
      refine hopens.passes_notInfix hcomment (.inr ?_)
      rw [Frame.around, Frame.start, List.cons_append, List.cons_append, List.head?_cons, ne_eq,
        Option.some.injEq]
      decide

end Comments

section Raws

theorem bareTag?_opensWith {keyword : String} (hopen : '{' ∉ keyword.toList) :
    OpensWith (bareTag? keyword) '%' := by
  intro cs rest h
  rcases eq_of_bareTag? h with ⟨f, heq⟩
  rcases f.exists_around hopen with ⟨inner, hf, _⟩
  exact ⟨inner ++ rest, by rw [heq, hf]; rfl⟩

theorem rawTaken?_opensWith : OpensWith rawTaken? '%' := by
  intro cs n h
  rw [rawTaken?] at h
  cases hopen : bareTag? "raw" cs with
  | none => simp only [hopen, reduceCtorEq] at h
  | some rest => exact bareTag?_opensWith (by decide) cs rest hopen

/-- A text without its keyword holds no tag. -/
theorem passes_of_keyword {keyword : String} {body : List Char}
    (h : ¬ keyword.toList <:+: body) : Passes (bareTag? keyword) body [] := by
  intro v hv _
  rw [List.append_nil, Option.eq_none_iff_forall_ne_some]
  intro rest hrest
  rcases eq_of_bareTag? hrest with ⟨f, rfl⟩
  have hkeyword : keyword.toList <:+: f.around keyword.toList :=
    ⟨f.start, f.stop, by rw [Frame.around, List.append_assoc]⟩
  exact h ((hkeyword.trans (List.prefix_append _ _).isInfix).trans hv.isInfix)

/-- A tag does not start in a text that holds none and end behind it, where
    another tag starts. -/
theorem passes_bareTag? {keyword : String} (hword : IsWord keyword) (hopen : '{' ∉ keyword.toList)
    {body : List Char} (h : Passes (bareTag? keyword) body []) (ys : List Char) :
    Passes (bareTag? keyword) body ('{' :: ys) := by
  intro v hv hne
  rw [Option.eq_none_iff_forall_ne_some]
  intro rest hrest
  rcases eq_of_bareTag? hrest with ⟨f, heq⟩
  rcases f.exists_around hopen with ⟨inner, hf, hinner⟩
  have hlong {more : List Char} (hmore : v = f.around keyword.toList ++ more) : False := by
    have hnone := h v hv hne
    rw [List.append_nil, hmore, bareTag?_around hword] at hnone
    exact Option.some_ne_none _ hnone
  rcases List.append_eq_append_iff.mp heq with ⟨more, hmore, htail⟩ | ⟨more, hmore, htail⟩
  · cases more with
    | nil =>
        rw [List.append_nil] at hmore
        exact hlong (show v = f.around keyword.toList ++ [] by rw [List.append_nil, hmore])
    | cons d more =>
        -- It would reach behind the text and hold the brace there.
        rw [List.cons_append, List.cons.injEq] at htail
        rcases List.exists_cons_of_ne_nil hne with ⟨c, v, rfl⟩
        rw [hf, List.cons_append, List.cons.injEq] at hmore
        rw [hmore.2, ← htail.1] at hinner
        exact hinner (List.mem_append_right _ List.mem_cons_self)
  · exact hlong hmore

/-- A raw block is found as a whole. -/
theorem rawTaken?_chars (opening closing : Frame) {body : List Char}
    (h : Passes (bareTag? "endraw") body []) (ys : List Char) :
    rawTaken? (opening.around "raw".toList ++ (body ++ closing.around "endraw".toList) ++ ys) =
      some (opening.around "raw".toList ++ (body ++ closing.around "endraw".toList)).length := by
  have hend : seek (bareTag? "endraw") (body ++ (closing.around "endraw".toList ++ ys)) =
      some ys := by
    rw [seek_append (by exact passes_bareTag? (by decide) (by decide) h _)]
    exact seek_of_some (bareTag?_around (by decide) closing ys)
  have hopen : bareTag? "raw" (opening.around "raw".toList ++
      (body ++ closing.around "endraw".toList) ++ ys) =
        some (body ++ (closing.around "endraw".toList ++ ys)) := by
    rw [List.append_assoc, List.append_assoc]
    exact bareTag?_around (by decide) opening _
  simp only [rawTaken?, hopen, hend, Option.map_some]
  rw [List.length_append, Nat.add_sub_cancel]

/-- Behind the first word of a tag there is its delimiter, if nothing else. -/
theorem dropSign_append_percent (body more : List Char) :
    dropSign (body ++ '%' :: more) = dropSign body ++ '%' :: more := by
  cases body with
  | nil => rfl
  | cons c body =>
      by_cases hminus : c = '-'
      · rw [hminus]; rfl
      by_cases hplus : c = '+'
      · rw [hplus]; rfl
      have hsame (cs : List Char) : dropSign (c :: cs) = c :: cs := by
        have hhead : ∀ d ∈ (c :: cs).head?, d ≠ '-' ∧ d ≠ '+' := fun d hd => by
          rw [← Option.some.inj hd]; exact ⟨hminus, hplus⟩
        exact Sign.none.dropSign_append hhead
      rw [List.cons_append, hsame, hsame, List.cons_append]

theorem dropBlanks_append_percent (cs more : List Char) :
    dropBlanks (cs ++ '%' :: more) = dropBlanks cs ++ '%' :: more := by
  rw [dropBlanks, dropBlanks, List.dropWhile_append]
  split
  · next hempty => rw [List.isEmpty_iff.mp hempty]; rfl
  · rfl

/-- The keyword of a tag is its first word, if the word ends there. -/
theorem firstWord_of_tagStart? {keyword : String} (hword : IsWord keyword)
    {body more rest : List Char}
    (h : tagStart? keyword ('{' :: '%' :: (body ++ '%' :: more)) = some rest)
    (hrest : ∀ c ∈ rest.head?, isWordChar c = false) : firstWord body = keyword.toList := by
  have hwords := eq_append_of_dropPrefix? (show dropPrefix? keyword.toList
    (dropBlanks (dropSign (body ++ '%' :: more))) = some rest from h)
  rw [dropSign_append_percent, dropBlanks_append_percent] at hwords
  have hkeyword := hword.isWordChar
  rw [firstWord]
  -- The keyword ends before the delimiter, which has no word character.
  rcases List.append_eq_append_iff.mp hwords with ⟨as, hmore, htail⟩ | ⟨as, hmore, htail⟩
  · cases as with
    | nil =>
        rw [List.append_nil] at hmore
        rw [← hmore, List.takeWhile_eq_self_iff]
        exact hkeyword
    | cons c as =>
        rw [List.cons_append, List.cons.injEq] at htail
        rw [hmore, ← htail.1] at hkeyword
        exact absurd (hkeyword '%' (List.mem_append_right _ List.mem_cons_self)) (by decide)
  · rw [hmore, List.takeWhile_append_of_pos hkeyword]
    cases as with
    | nil => rw [List.takeWhile_nil, List.append_nil]
    | cons c as =>
        have hc := hrest c (by rw [htail]; rfl)
        rw [List.takeWhile_cons_of_neg (by rw [hc]; exact Bool.false_ne_true), List.append_nil]

/-- The end of a tag starts with a blank, a sign or its delimiter. -/
theorem head_of_tagEnd? {cs rest : List Char} (h : tagEnd? cs = some rest) :
    ∀ c ∈ cs.head?, isBlank c = true ∨ c = '-' ∨ c = '+' ∨ c = '%' := by
  rcases tagEnd?_eq_some_iff.mp h with ⟨b, s, rfl⟩
  intro c hc
  cases hb : b.chars with
  | cons d ds =>
      rw [hb] at hc
      rw [← Option.some.inj hc]
      exact .inl (b.blank d (by rw [hb]; exact List.mem_cons_self))
  | nil =>
      rw [hb] at hc
      cases s <;> rw [← Option.some.inj hc] <;> decide

/-- At the end of a tag there is no word. -/
theorem isWordChar_of_tagEnd? {cs rest : List Char} (h : tagEnd? cs = some rest) :
    ∀ c ∈ cs.head?, isWordChar c = false := by
  intro c hc
  rcases head_of_tagEnd? h c hc with hblank | rfl | rfl | rfl
  · exact isWordChar_of_isBlank hblank
  · decide
  · decide
  · decide

theorem rawTaken?_of_bareTag? {cs : List Char} (h : bareTag? "raw" cs = none) :
    rawTaken? cs = none := by
  rw [rawTaken?, h]

/-- No raw block starts in a segment that is none. -/
theorem passes_rawTaken? {s : Segment} (hcomment : s.isComment = false) (hraw : s.isRaw = false)
    (ys : List Char) : Passes rawTaken? s.chars ys := by
  have hopens := rawTaken?_opensWith
  cases s with
  | comment body hbody => exact Bool.noConfusion hcomment
  | raw opening closing body hbody hend => exact Bool.noConfusion hraw
  | text chars hopen => exact hopens.passes_text hopen ys
  | output expression hopen => exact hopens.passes_output (by decide) hopen ys
  | block body hopen hclose hword href =>
      refine hopens.passes_tag (open_notMem_block hopen) (rawTaken?_of_bareTag? ?_)
      rw [Option.eq_none_iff_forall_ne_some]
      intro rest hrest
      rcases Option.bind_eq_some_iff.mp hrest with ⟨inner, hstart, hend⟩
      rw [List.cons_append, List.append_assoc] at hstart
      exact hword (firstWord_of_tagStart? (by decide) hstart (isWordChar_of_tagEnd? hend))
  | reference r =>
      rcases r.exists_chars with ⟨inner, heq, hinner⟩
      have hstart : tagStart? "raw" (r.chars ++ ys) = none := by
        rw [ReferenceTag.chars, Frame.around, List.append_assoc, List.append_assoc,
          List.append_assoc, tagStart?_start _ _ ((isWord_keyword r.tail.tag).isSolid_head _)]
        cases r.tail.tag <;> rfl
      rw [heq] at hstart
      rw [Segment.chars, heq]
      refine hopens.passes_tag hinner (rawTaken?_of_bareTag? ?_)
      rw [bareTag?, ← List.cons_append, hstart, Option.bind_none]

end Raws

section Tags

/-- A tag is its start, blanks, an argument and an end. -/
theorem tagAt?_eq_some {cs arg rest : List Char} {tag : Tag}
    (h : tagAt? cs = some (tag, arg, rest)) :
    ∃ inner, tagStart? tag.keyword cs = some inner ∧ inner.head?.any isBlank = true ∧
      argument? [] (dropBlanks inner) = some (arg, rest) := by
  rcases List.exists_of_findSome?_eq_some h with ⟨other, _, hother⟩
  cases hstart : tagStart? other.keyword cs with
  | none => simp only [hstart, reduceCtorEq] at hother
  | some inner =>
      simp only [hstart] at hother
      split at hother
      · next hblank =>
          rcases Option.map_eq_some_iff.mp hother with ⟨read, hread, heq⟩
          rcases Prod.mk.inj heq with ⟨rfl, hrest⟩
          exact ⟨inner, hstart, hblank, hread.trans (congrArg some hrest)⟩
      · exact absurd hother (Option.some_ne_none _).symm

theorem tagAt?_opensWith : OpensWith tagAt? '%' := by
  intro cs read h
  rcases tagAt?_eq_some h with ⟨inner, hstart, _⟩
  rcases eq_of_tagStart? hstart with ⟨s, b, heq⟩
  exact ⟨_, heq⟩

/-- No reference starts in a block. -/
theorem tagAt?_block {body : List Char} (h : ∀ tag : Tag, firstWord body ≠ tag.keyword.toList)
    (more : List Char) : tagAt? ('{' :: '%' :: (body ++ '%' :: more)) = none := by
  rw [Option.eq_none_iff_forall_ne_some]
  intro read hread
  rcases tagAt?_eq_some hread with ⟨inner, hstart, hblank, -⟩
  refine h read.1 (firstWord_of_tagStart? (isWord_keyword read.1) hstart (fun c hc => ?_))
  rw [Option.mem_def.mp hc] at hblank
  exact isWordChar_of_isBlank hblank

end Tags

/-- What is left of a piece when comments are blanked out. -/
def Segment.uncommented (s : Segment) : List Char :=
  if s.isComment then s.chars.map blank else s.chars

/-- What is left of a piece when raw blocks are blanked out too. -/
def Segment.plain (s : Segment) : List Char :=
  if s.isComment || s.isRaw then s.chars.map blank else s.chars

/-- Blanking a text is blanking its pieces, where one piece is blanked in front of
    any text. -/
theorem blankMatches_flatMap {taken? : List Char → Option Nat} {before after : Segment → List Char}
    (h : ∀ s ys, blankMatches taken? 0 (before s ++ ys) = after s ++ blankMatches taken? 0 ys)
    (segments : List Segment) :
    blankMatches taken? 0 (segments.flatMap before) = segments.flatMap after := by
  induction segments with
  | nil => rfl
  | cons s segments ih => rw [List.flatMap_cons, h, ih, List.flatMap_cons]

/-- Of the whole text the comments are blanked out. -/
theorem blankMatches_comments (segments : List Segment) :
    blankMatches commentTaken? 0 (printed segments) = segments.flatMap Segment.uncommented := by
  refine blankMatches_flatMap (fun s ys => ?_) segments
  cases hs : s.isComment with
  | false =>
      rw [Segment.uncommented, hs, if_neg Bool.false_ne_true,
        blankMatches_append (passes_commentTaken? hs ys)]
  | true =>
      rw [Segment.uncommented, hs, if_pos rfl]
      cases s with
      | comment body hbody =>
          exact blankMatches_match (List.cons_ne_nil _ _) (commentTaken?_chars hbody ys)
      | _ => exact Bool.noConfusion hs

/-- Of what is left the raw blocks are blanked out. -/
theorem blankMatches_raws (segments : List Segment) :
    blankMatches rawTaken? 0 (segments.flatMap Segment.uncommented) =
      segments.flatMap Segment.plain := by
  refine blankMatches_flatMap (fun s ys => ?_) segments
  have hblank (ys : List Char) :
      blankMatches rawTaken? 0 (s.chars.map blank ++ ys) =
        s.chars.map blank ++ blankMatches rawTaken? 0 ys :=
    blankMatches_append (rawTaken?_opensWith.passes_text (notMem_map_blank s.chars) ys)
  cases hcomment : s.isComment with
  | true => rw [Segment.uncommented, Segment.plain, hcomment, if_pos rfl, Bool.true_or, if_pos rfl,
      hblank]
  | false =>
      rw [Segment.uncommented, Segment.plain, hcomment, if_neg Bool.false_ne_true, Bool.false_or]
      cases hraw : s.isRaw with
      | false =>
          rw [if_neg Bool.false_ne_true, blankMatches_append (passes_rawTaken? hcomment hraw ys)]
      | true =>
          rw [if_pos rfl]
          cases s with
          | raw opening closing body hbody hend =>
              refine blankMatches_match ?_
                (rawTaken?_chars opening closing (passes_of_keyword hend) ys)
              exact List.append_ne_nil_of_left_ne_nil (List.cons_ne_nil _ _) _
          | _ => exact Bool.noConfusion hraw

/-- Blanking keeps the lines of a piece. -/
theorem count_plain (s : Segment) : s.plain.count '\n' = s.chars.count '\n' := by
  rw [Segment.plain]
  split
  · exact count_map_blank s.chars
  · rfl

/-- No reference starts in a segment that is none. -/
theorem passes_tagAt? {s : Segment} (h : ∀ tag, s ≠ .reference tag) (ys : List Char) :
    Passes tagAt? s.plain ys := by
  have hopens := tagAt?_opensWith
  have hblank : Passes tagAt? (s.chars.map blank) ys :=
    hopens.passes_text (notMem_map_blank s.chars) ys
  cases s with
  | comment body hbody => exact hblank
  | raw opening closing body hbody hend => exact hblank
  | reference tag => exact absurd rfl (h tag)
  | text chars hopen => exact hopens.passes_text hopen ys
  | output expression hopen => exact hopens.passes_output (by decide) hopen ys
  | block body hopen hclose hraw href =>
      refine hopens.passes_tag (open_notMem_block hopen) ?_
      rw [List.cons_append, List.append_assoc]
      exact tagAt?_block href _

/-- What is listed for a piece in front of any text. -/
theorem listings_scanTags (s : Segment) (ys : List Char) (line : Nat) :
    (scanTags line 0 (s.plain ++ ys)).map listing =
      s.listings line ++ (scanTags (line + s.chars.count '\n') 0 ys).map listing := by
  have hpass (h : ∀ tag, s ≠ .reference tag) : scanTags line 0 (s.plain ++ ys) =
      scanTags (line + s.chars.count '\n') 0 ys := by
    rw [scanTags_append (passes_tagAt? h ys), count_plain]
  cases s with
  | reference r =>
      rcases r.exists_directive? ys with ⟨arg, htag, hdirective⟩
      rcases hdirective line with ⟨optional, hdirective⟩
      rcases r.exists_chars with ⟨inner, heq, _⟩
      have hne : r.chars ≠ [] := by rw [heq]; exact List.cons_ne_nil _ _
      have hscan : scanTags line 0 (r.chars ++ ys) = _ := scanTags_match hne htag line
      rw [show (Segment.reference r).plain = r.chars from rfl, hscan, hdirective,
        Segment.listings, ← Tail.kind_tag]
      rfl
  | _ => rw [hpass (fun tag => Segment.noConfusion)]; rfl

/-- Scanning undoes printing: whatever pieces a text is put together from, what is
    listed are its references in order, each with its tag, its kind, its name and
    its line. What is imported under one name takes a name of one or more word
    characters. -/
theorem scan_printed (segments : List Segment) :
    (scan (String.ofList (printed segments))).map listing = listed [] segments := by
  -- The line is that of all pieces in front, so these vary along the induction.
  have hrun (before : List Char) :
      (scanTags (1 + before.count '\n') 0 (segments.flatMap Segment.plain)).map listing =
        listed before segments := by
    induction segments generalizing before with
    | nil => rfl
    | cons s segments ih =>
        rw [List.flatMap_cons, listings_scanTags, Nat.add_assoc, ← List.count_append, ih, listed]
  rw [scan, String.toList_ofList, blanked, blankMatches_comments, blankMatches_raws]
  exact hrun []

example :
    (scan "\x7b# \x7b% include 'a' %\x7d #\x7d\n\x7b% include 'b' with context -%\x7d").map
      listing = [⟨.includes, .output, "b", 2⟩] := by
  decide +kernel

end Reference

end Stencil
