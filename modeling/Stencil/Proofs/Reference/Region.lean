import Stencil.Proofs.Reference.Statement
import Stencil.Proofs.Template.Division

/-!
# The References of a Text That Falls into Regions

What the scanner of references finds in a text, one region after the other.

`Adds` says of the characters at the start of a text which references they add
to those of the rest. Text, comments and raw blocks add none, and a statement
adds its own. Each of the three passes over the text has to take the characters
for what they are, so nothing in a region may look like the start of a comment
or of a tag, and `Region.IsApart` asks for that. Nothing is asked of text and of
comments. Put together over the regions, the references of a text are those of
its statements that are spaced as the scanner needs it.

## Main definitions

* `Region.reference`, `Region.isSpaced`: The reference of a region.
* `Region.IsApart`: Nothing in the region looks like another one.
* `Adds`: The references of characters and of what follows them.

## Theorems

* `adds_text`, `adds_comment`, `adds_raw`, `adds_print`, `adds_statement`: What
  the parts of a text add.
* `FallsInto.lists`: The references of a text are those of its regions.
-/

namespace Stencil

namespace Template

open Text Reference

/-- The reference that a region makes by its tokens. -/
def Region.reference : Region → List (Tag × String)
  | .tag .block _ ps _ => tagReference (spoken ps)
  | _ => []

/-- The region is a statement with blanks around its target. -/
def Region.isSpaced : Region → Bool
  | .tag .block _ ps _ => Template.isSpaced ps
  | _ => false

/-- Nothing in the region looks like another one. No comment opens in a raw
block. In a tag neither a comment nor a statement opens, and if it has the word
of a reference, it does not close early and has no escapes. -/
def Region.IsApart : Region → Prop
  | .raw body => ¬ ['{', '#'] <:+: body
  | .tag kind opening ps closing =>
    (¬ ['{', '#'] <:+: (opening ++ (spelling ps ++ closing)).tail ∧
      ¬ ['{', '%'] <:+: (opening ++ (spelling ps ++ closing)).tail) ∧
      (kind = .block → refers (spoken ps) = true →
        ¬ ['%', '}'] <:+: spelling ps ∧ '\\' ∉ spelling ps)

instance (r : Region) : Decidable r.IsApart := by
  cases r with
  | raw body => exact inferInstanceAs (Decidable (¬ _))
  | tag kind opening ps closing => exact inferInstanceAs (Decidable (_ ∧ (_ → _ → _)))

/-- The characters at the start of a text add references to those of the rest. -/
def Adds (xs : List Char) (found : List (Tag × String)) (ys : List Char) : Prop :=
  ∀ line, ∃ line', (scanTags line 0 (blanked (xs ++ ys))).map Directive.unified =
    found ++ (scanTags line' 0 (blanked ys)).map Directive.unified

/-- The references of a text, from any line on. -/
def Lists (cs : List Char) (found : List (Tag × String)) : Prop :=
  ∀ line, (scanTags line 0 (blanked cs)).map Directive.unified = found

theorem Adds.lists {xs ys : List Char} {found more : List (Tag × String)} (h : Adds xs found ys)
    (hys : Lists ys more) : Lists (xs ++ ys) (found ++ more) := by
  intro line
  rcases h line with ⟨line', same⟩
  rw [same, hys line']

section Parts

variable {xs ys : List Char}

theorem blanked_append {left plain : List Char}
    (comments : blankMatches commentTaken? 0 (xs ++ ys) =
      left ++ blankMatches commentTaken? 0 ys)
    (raws : blankMatches rawTaken? 0 (left ++ blankMatches commentTaken? 0 ys) =
      plain ++ blanked ys) : blanked (xs ++ ys) = plain ++ blanked ys := by
  rw [blanked, comments, raws]

/-- Where nothing is read, nothing is added. -/
theorem adds_nil {plain : List Char} (left : blanked (xs ++ ys) = plain ++ blanked ys)
    (passes : Reference.Passes tagAt? plain (blanked ys)) : Adds xs [] ys := by
  intro line
  rw [left, scanTags_append passes]
  exact ⟨_, rfl⟩

/-- Characters without a brace add nothing. -/
theorem adds_of_notMem (h : '{' ∉ xs) (ys : List Char) : Adds xs [] ys :=
  adds_nil (blanked_append (blankMatches_append (commentTaken?_opensWith.passes_text h _))
    (blankMatches_append (rawTaken?_opensWith.passes_text h _)))
    (tagAt?_opensWith.passes_text h _)

theorem adds_space (b : Space) (ys : List Char) : Adds b.chars [] ys :=
  adds_of_notMem (fun mem => absurd (b.blank _ mem) (by decide)) ys

/-- Text can end in front of the characters: they do not start with the second
character of what opens a comment or a statement. -/
def EndsText (ys : List Char) : Prop :=
  ∀ c ∈ ys.head?, c ≠ '#' ∧ c ≠ '%'

theorem EndsText.ne (h : EndsText ys) : ys.head? ≠ some '#' ∧ ys.head? ≠ some '%' :=
  ⟨fun head => (h '#' head).1 rfl, fun head => (h '%' head).2 rfl⟩

theorem endsText_brace (ys : List Char) : EndsText ('{' :: ys) := by
  intro c hc
  rw [← Option.some.inj hc]
  decide

theorem endsText_nil : EndsText [] :=
  fun _ hc => absurd hc (Option.not_mem_none _)

/-- Blanking keeps the first character or leaves a blank. -/
theorem EndsText.blankMatches (h : EndsText ys) (taken? : List Char → Option Nat) :
    EndsText (blankMatches taken? 0 ys) := by
  cases ys with
  | nil => exact h
  | cons y ys =>
    intro c hc
    rw [Reference.blankMatches] at hc
    -- What is blanked out becomes a blank, and what is not stays.
    split at hc
    · rw [← Option.some.inj hc]
      rcases blank_eq_feed_or_space y with same | same <;> rw [same] <;> decide
    · exact h c hc

/-- Text adds nothing. -/
theorem adds_text (h : IsText xs) (hys : EndsText ys) : Adds xs [] ys :=
  adds_nil
    (blanked_append
      (blankMatches_append (commentTaken?_opensWith.passes_notInfix h.1 (.inr hys.ne.1)))
      (blankMatches_append (rawTaken?_opensWith.passes_notInfix h.2
        (.inr (hys.blankMatches commentTaken?).ne.2))))
    (tagAt?_opensWith.passes_notInfix h.2
      (.inr ((hys.blankMatches commentTaken?).blankMatches rawTaken?).ne.2))

/-- A comment adds nothing. -/
theorem adds_comment {body : List Char} (h : ¬ ['#', '}'] <:+: body) (ys : List Char) :
    Adds ('{' :: '#' :: (body ++ ['#', '}'])) [] ys :=
  adds_nil
    (blanked_append (blankMatches_match (List.cons_ne_nil _ _) (commentTaken?_chars h ys))
      (blankMatches_append (rawTaken?_opensWith.passes_text (notMem_map_blank _) _)))
    (tagAt?_opensWith.passes_text (notMem_map_blank _) _)

/-- A raw block adds nothing if no comment opens in it. -/
theorem adds_raw (f g : Frame) (b : Space) {body : List Char} (comment : ¬ ['{', '#'] <:+: body)
    (close : Reference.Passes (bareTag? "endraw") body []) (ys : List Char) :
    Adds (f.around "raw".toList ++ ((b.chars ++ body) ++ g.around "endraw".toList)) [] ys := by
  have space (find? : List Char → Option Nat) (zs : List Char) (opens : ∃ c, OpensWith find? c) :
      Reference.Passes find? b.chars zs := by
    rcases opens with ⟨c, opens⟩
    exact opens.passes_text (fun mem => absurd (b.blank _ mem) (by decide)) _
  have opens := commentTaken?_opensWith
  -- No comment can start at the edge of the body: a brace comes next, and no number sign.
  have next : (g.around "endraw".toList ++ ys).head? ≠ some '#' := by
    rw [Frame.around, Frame.start, List.cons_append, List.cons_append, List.head?_cons, ne_eq,
      Option.some.injEq]
    decide
  have inner : Reference.Passes (bareTag? "endraw") (b.chars ++ body) [] := by
    refine Reference.Passes.append ?_ close
    exact (bareTag?_opensWith (by decide)).passes_text
      (fun mem => absurd (b.blank _ mem) (by decide)) _
  -- All of the block is blanked out, so no statement is left in it.
  have none : Reference.Passes tagAt? ((f.around "raw".toList ++ ((b.chars ++ body) ++
      g.around "endraw".toList)).map blank) (blanked ys) :=
    tagAt?_opensWith.passes_text (notMem_map_blank _) _
  refine adds_nil (blanked_append (blankMatches_append ?_)
    (blankMatches_match ?_ (rawTaken?_chars f g inner _))) none
  · refine (opens.passes_around (by decide) f (by decide) _).append (Reference.Passes.append
      (Reference.Passes.append (space _ _ ⟨_, opens⟩) (opens.passes_notInfix comment (.inr next)))
      (opens.passes_around (by decide) g (by decide) _))
  · exact List.append_ne_nil_of_left_ne_nil (List.cons_ne_nil _ _) _

/-- A tag ends with a brace that opens nothing. -/
theorem getLast?_tag (inner : List Char) (kind : TagKind) (c : Char) :
    (c :: (inner ++ kind.closing)).getLast? ≠ some '{' := by
  rw [← List.cons_append, List.getLast?_append]
  cases kind <;> exact fun last => absurd (Option.some.inj last) (by decide)

/-- A value that is printed adds nothing. -/
theorem adds_print {inner : List Char}
    (comment : ¬ ['{', '#'] <:+: '{' :: (inner ++ TagKind.closing .print))
    (block : ¬ ['{', '%'] <:+: '{' :: (inner ++ TagKind.closing .print)) (ys : List Char) :
    Adds ('{' :: '{' :: (inner ++ TagKind.closing .print)) [] ys := by
  -- At the first brace another brace follows, and behind it nothing opens.
  have passes {α : Type} {find? : List Char → Option α} {second : Char}
      (opens : OpensWith find? second) (other : '{' ≠ second)
      (apart : ¬ ['{', second] <:+: '{' :: (inner ++ TagKind.closing .print)) (zs : List Char) :
      Reference.Passes find? ('{' :: '{' :: (inner ++ TagKind.closing .print)) zs :=
    Reference.Passes.cons (opens.eq_none (.inr other) _)
      (opens.passes_notInfix apart (.inl (getLast?_tag inner .print '{')))
  exact adds_nil
    (blanked_append (blankMatches_append (passes commentTaken?_opensWith (by decide) comment _))
      (blankMatches_append (passes rawTaken?_opensWith (by decide) block _)))
    (passes tagAt?_opensWith (by decide) block _)

/-- A statement adds its reference, if it is spaced. -/
theorem adds_statement {ps : List Spelled} {s' : Sign} (h : IsStatement ps s' ys) (s : Sign)
    (comment : ¬ ['{', '#'] <:+:
      '%' :: ((s.chars ++ (spelling ps ++ s'.chars)) ++ TagKind.closing .block))
    (block : ¬ ['{', '%'] <:+:
      '%' :: ((s.chars ++ (spelling ps ++ s'.chars)) ++ TagKind.closing .block)) :
    Adds ('{' :: '%' :: ((s.chars ++ (spelling ps ++ s'.chars)) ++ TagKind.closing .block))
      (if Template.isSpaced ps then tagReference (spoken ps) else []) ys := by
  have all (zs : List Char) :
      '{' :: '%' :: ((s.chars ++ (spelling ps ++ s'.chars)) ++ TagKind.closing .block) ++ zs =
        '{' :: '%' :: (s.chars ++ (spelling ps ++ (s'.chars ++ '%' :: '}' :: zs))) := by
    simp only [TagKind.closing, List.append_assoc, List.cons_append, List.nil_append]
  have last := getLast?_tag (s.chars ++ (spelling ps ++ s'.chars)) .block '%'
  -- The statement itself may look like the start of a raw block; its word says that it is none.
  have raws (zs : List Char) : Reference.Passes rawTaken?
      ('{' :: '%' :: ((s.chars ++ (spelling ps ++ s'.chars)) ++ TagKind.closing .block)) zs := by
    refine Reference.Passes.cons (rawTaken?_of_bareTag? ?_)
      (rawTaken?_opensWith.passes_notInfix block (.inl last))
    exact (congrArg (bareTag? "raw") (all zs)).trans ((h.of_rest zs).bareTag?_raw s)
  intro line
  rw [blanked_append (blankMatches_append (Reference.Passes.cons
    (commentTaken?_opensWith.eq_none (.inr (by decide)) _)
    (commentTaken?_opensWith.passes_notInfix comment (.inl last)))) (blankMatches_append (raws _))]
  -- Of the statement, the scanner takes nothing or all of it.
  rcases (h.of_rest (blanked ys)).tagAt?_cases s with ⟨none, found⟩ | ⟨tag, arg, read, found⟩
  · rw [scanTags_append (Reference.Passes.cons
      ((congrArg tagAt? (all (blanked ys))).trans none)
      (tagAt?_opensWith.passes_notInfix block (.inl last)))]
    have empty : (if Template.isSpaced ps then tagReference (spoken ps) else []) = [] := by
      split
      · next spaced => exact found spaced
      · rfl
    rw [empty]
    exact ⟨_, rfl⟩
  · rw [scanTags_match (List.cons_ne_nil _ _) ((congrArg tagAt? (all (blanked ys))).trans read),
      List.map_append, found]
    exact ⟨_, rfl⟩

/-- Where a comment or a raw block opens and the text ends, nothing is listed. -/
theorem lists_unclosed (h : IsUnclosed xs) : Lists xs [] := by
  cases h with
  | nil => exact fun line => rfl
  | comment s => cases s <;> exact fun line => rfl
  | raw f b =>
    have open_notMem : '{' ∉ b.chars := fun mem => absurd (b.blank _ mem) (by decide)
    rcases f.exists_around (show '{' ∉ "raw".toList by decide) with ⟨inner, hf, hinner⟩
    have passes {α : Type} {find? : List Char → Option α} {second : Char}
        (opens : OpensWith find? second)
        (head : find? (f.around "raw".toList ++ (b.chars ++ [])) = none) :
        Reference.Passes find? (f.around "raw".toList ++ b.chars) [] := by
      rw [hf] at head ⊢
      exact (opens.passes_tag hinner head).append (opens.passes_text open_notMem [])
    have comment : commentTaken? (f.around "raw".toList ++ (b.chars ++ [])) = none := by
      rw [hf]
      exact commentTaken?_opensWith.eq_none (.inr (by decide)) _
    have raw : rawTaken? (f.around "raw".toList ++ (b.chars ++ [])) = none := by
      -- The block has no end, so it is not blanked out, and its word makes no reference.
      have ends : seek (bareTag? "endraw") (b.chars ++ []) = none := by
        rw [seek_append ((bareTag?_opensWith (by decide)).passes_text open_notMem [])]
        rfl
      simp only [rawTaken?, bareTag?_around (show IsWord "raw" by decide), ends, Option.map_none]
    have tag : tagAt? (f.around "raw".toList ++ (b.chars ++ [])) = none := by
      rw [Option.eq_none_iff_forall_ne_some]
      rintro ⟨tag, arg, rest⟩ found
      rcases tagAt?_eq_some found with ⟨inner, opens, -⟩
      rw [Frame.around, List.append_assoc, List.append_assoc,
        tagStart?_start _ f ((show IsWord "raw" by decide).isSolid_head _)] at opens
      cases tag <;> exact absurd opens (Option.some_ne_none _).symm
    have adds : Adds (f.around "raw".toList ++ b.chars) [] [] :=
      adds_nil (blanked_append
        (blankMatches_append (passes commentTaken?_opensWith comment))
        (blankMatches_append (passes rawTaken?_opensWith raw)))
        (passes tagAt?_opensWith tag)
    have nothing : Lists [] [] := fun line => rfl
    have lists := adds.lists nothing
    rwa [List.append_nil] at lists

end Parts

/-- The reference of the first region comes first, if it is spaced. -/
theorem flatMap_filter_cons (r : Region) (rs : List Region) :
    ((r :: rs).filter Region.isSpaced).flatMap Region.reference =
      (if r.isSpaced then r.reference else []) ++
        (rs.filter Region.isSpaced).flatMap Region.reference := by
  rw [List.filter_cons]
  split
  · rw [List.flatMap_cons]
  · rw [List.nil_append]

/-- The references of a text that falls into regions are those of the regions
that are spaced. -/
theorem FallsInto.lists {cs : List Char} {rs : List Region} (h : FallsInto cs rs)
    (apart : ∀ r ∈ rs, r.IsApart) (legal : ∀ ts ∈ rs.filterMap Region.statement?, IsLegal ts) :
    Lists cs ((rs.filter Region.isSpaced).flatMap Region.reference) := by
  -- Each region adds its references to those of the rest, whose regions come next.
  induction h with
  | cut text tail =>
    refine (adds_text text ?_).lists (lists_unclosed tail)
    cases tail with
    | nil => exact endsText_nil
    | comment s => exact endsText_brace _
    | raw f b => exact endsText_brace _
  | @comment data body rest rs b text close _ ih =>
    have all : '{' :: '#' :: (body ++ '#' :: '}' :: (b.chars ++ rest)) =
        '{' :: '#' :: (body ++ ['#', '}']) ++ (b.chars ++ rest) := by
      simp only [List.append_assoc, List.cons_append, List.nil_append]
    rw [all]
    exact (adds_text text (endsText_brace _)).lists
      ((adds_comment close _).lists ((adds_space b rest).lists (ih apart legal)))
  | @raw data body rest rs f g b b' text close _ ih =>
    have all : f.around "raw".toList ++ (b.chars ++ (body ++
        (g.around "endraw".toList ++ (b'.chars ++ rest)))) =
        f.around "raw".toList ++ ((b.chars ++ body) ++ g.around "endraw".toList) ++
          (b'.chars ++ rest) := by
      simp only [List.append_assoc]
    rw [all, flatMap_filter_cons]
    exact (adds_text text (endsText_brace _)).lists
      ((adds_raw f g b (apart _ List.mem_cons_self) close _).lists
        ((adds_space b' rest).lists (ih (fun r hr => apart r (List.mem_cons_of_mem _ hr)) legal)))
  | @tag data rest rs kind s ps s' b text reads unsigned plain _ ih =>
    have all : '{' :: kind.mark :: (s.chars ++ (spelling ps ++
        (s'.chars ++ (kind.closing ++ (b.chars ++ rest))))) =
        '{' :: kind.mark :: ((s.chars ++ (spelling ps ++ s'.chars)) ++ kind.closing) ++
          (b.chars ++ rest) := by
      simp only [List.append_assoc, List.cons_append]
    rcases apart _ List.mem_cons_self with ⟨⟨comment, block⟩, whole⟩
    -- A tag with the blanks behind it is apart, and so is the tag alone.
    have inside : kind.mark :: ((s.chars ++ (spelling ps ++ s'.chars)) ++ kind.closing) <:+:
        ('{' :: kind.mark :: s.chars ++
          (spelling ps ++ (s'.chars ++ (kind.closing ++ b.chars)))).tail :=
      ⟨[], b.chars, by
        simp only [List.append_assoc, List.cons_append, List.nil_append, List.tail_cons]⟩
    have rest := (adds_space b rest).lists (ih
      (fun r hr => apart r (List.mem_cons_of_mem _ hr))
      (fun ts hts => legal ts (by
        rw [List.filterMap_cons]
        split
        · exact hts
        · exact List.mem_cons_of_mem _ hts)))
    rw [all, flatMap_filter_cons]
    refine (adds_text text (endsText_brace _)).lists ?_
    cases kind with
    | print =>
      exact (adds_print (fun found => comment (found.trans inside))
        (fun found => block (found.trans inside)) _).lists rest
    | block =>
      refine (adds_statement ⟨reads, unsigned rfl, plain, ?_, whole rfl⟩ s
        (fun found => comment (found.trans inside))
        (fun found => block (found.trans inside))).lists rest
      exact legal _ List.mem_cons_self

end Template

end Stencil
