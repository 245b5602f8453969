import Stencil.Proofs.Template.Region

/-!
# Dividing a Text

How a text falls into its raw blocks and tags.

The regions of a text are found by the scanner of tokens, and they leave out
what no statement comes from: the text around them, the comments, and the tags
at the ends of a raw block. `FallsInto` puts all of it side by side, so that the
text is what its parts are when they are written one after another. It says of
each part only what the characters show: nothing opens in text, the end of a
comment or of a raw block is the first one, and the pieces of a tag are what
its characters are read as.

A text whose tokens follow each other as tags do, and that holds no mistake,
falls into its regions. Such a text may still stop where a comment or a raw
block has just opened.

## Main definitions

* `IsText`, `IsUnclosed`: Text between tags, and what may stand at the end.
* `FallsInto`: A text and its raw blocks and tags.
* `Region.statement?`: The tokens of a statement.
* `Cursor.ScansAll`, `Cursor.IsDivided`: Scanning comes to the end, and the text
  from there on falls into its regions.

## Theorems

* `Cursor.ScansAll.passed`, `Cursor.ScansAll.tag`: One step from outside of
  tags, and the rest.
* `Cursor.ScansAll.isDivided`: Scanning to the end finds what the text falls into.
* `fallsInto_regions`: A text falls into its regions, and their statements are
  those of its tokens.
-/

namespace Stencil

namespace Template

open Text Reference

/-- Neither a comment nor a statement opens in the characters. -/
def IsText (cs : List Char) : Prop :=
  ¬ ['{', '#'] <:+: cs ∧ ¬ ['{', '%'] <:+: cs

/-- Nothing, or what opens a comment or a raw block and is not closed. -/
inductive IsUnclosed : List Char → Prop where
  /-- Nothing. -/
  | nil : IsUnclosed []
  /-- The start of a comment. -/
  | comment (s : Sign) : IsUnclosed ('{' :: '#' :: s.chars)
  /-- The tag that starts a raw block. -/
  | raw (f : Frame) (b : Space) : IsUnclosed (f.around "raw".toList ++ b.chars)

/-- The text falls into raw blocks and tags, with text and comments between
them. -/
inductive FallsInto : List Char → List Region → Prop where
  /-- Text up to the end. -/
  | cut {data tail : List Char} : IsText data → IsUnclosed tail → FallsInto (data ++ tail) []
  /-- Text and a comment. -/
  | comment {data body rest : List Char} {rs : List Region} (b : Space) : IsText data →
      ¬ ['#', '}'] <:+: body → FallsInto rest rs →
      FallsInto (data ++ '{' :: '#' :: (body ++ '#' :: '}' :: (b.chars ++ rest))) rs
  /-- Text and a raw block. -/
  | raw {data body rest : List Char} {rs : List Region} (f g : Frame) (b b' : Space) :
      IsText data → Reference.Passes (bareTag? "endraw") body [] → FallsInto rest rs →
      FallsInto (data ++ (f.around "raw".toList ++ (b.chars ++ (body ++
        (g.around "endraw".toList ++ (b'.chars ++ rest)))))) (.raw body :: rs)
  /-- Text and a tag. -/
  | tag {data rest : List Char} {rs : List Region} (kind : TagKind) (s : Sign)
      {ps : List Spelled} (s' : Sign) (b : Space) : IsText data →
      Reads ps (s'.chars ++ (kind.closing ++ (b.chars ++ rest))) →
      (kind = .block → s'.chars = [] → EndsUnsigned (spelling ps)) →
      (∀ p ∈ ps, p.IsPlain) → FallsInto rest rs →
      FallsInto (data ++ '{' :: kind.mark :: (s.chars ++ (spelling ps ++
        (s'.chars ++ (kind.closing ++ (b.chars ++ rest))))))
        (.tag kind ('{' :: kind.mark :: s.chars) ps (s'.chars ++ (kind.closing ++ b.chars)) :: rs)

/-- The tokens of a statement. -/
def Region.statement? : Region → Option (List Token)
  | .tag .block _ ps _ => some (spoken ps)
  | _ => none

section Opening

/-- Where nothing opens there is text. -/
theorem isText_of_opening? {data after : List Char}
    (h : ∀ t, t <:+ data → t ≠ [] → opening? (t ++ after) = none) : IsText data := by
  have free {c : Char} (hc : c = '#' ∨ c = '%') : ¬ ['{', c] <:+: data := by
    rintro ⟨before, rest, rfl⟩
    rw [List.append_assoc] at h
    exact opening?_ne_none hc (rest ++ after)
      (h ('{' :: c :: rest) (List.suffix_append _ _) (List.cons_ne_nil _ _))
  exact ⟨free (.inl rfl), free (.inr rfl)⟩

theorem isText_of_findLength? {cs : List Char}
    (h : findLength? (fun cs => (opening? cs).map Prod.snd) cs = none) : IsText cs := by
  have none : ∀ t, t <:+ cs → t ≠ [] → opening? (t ++ []) = none := fun t ht _ => by
    rw [List.append_nil]
    exact Option.map_eq_none_iff.mp (findLength?_eq_none h t ht)
  exact isText_of_opening? none

/-- What opens first has text in front of it. -/
theorem OpensAt.split {c : Cursor} {data : List Char} {o : Opening} {n : Nat}
    (h : OpensAt c data o n) :
    ∃ after, c.rest = data ++ after ∧ (c.advance data.length).rest = after ∧ IsText data ∧
      opening? after = some (o, n) := by
  rcases findLength?_eq_some h.found with ⟨after, all, -, before⟩
  have there : (c.advance data.length).rest = after := by
    rw [Cursor.advance_rest, all, List.drop_left]
  -- It is the first place, so nothing opens in the text in front of it.
  refine ⟨after, all, there, ?_, there ▸ h.here⟩
  exact isText_of_opening? fun t ht present => Option.map_eq_none_iff.mp (before t ht present)

/-- The place behind some characters. -/
theorem rest_advance {c : Cursor} (xs : List Char) {ys : List Char} (h : c.rest = xs ++ ys) :
    (c.advance xs.length).rest = ys := by
  rw [Cursor.advance_rest, h, List.drop_left]

end Opening

section Steps

variable {c : Cursor} {data : List Char} {n : Nat}

/-- What opens takes characters. -/
theorem OpensAt.length_lt {o : Opening} (h : OpensAt c data o n) :
    ((c.advance data.length).advance n).rest.length < c.rest.length := by
  rcases h.split with ⟨after, all, there, -, opens⟩
  have taken : 0 < n ∧ 0 < after.length := by
    cases o with
    | tag kind =>
      rcases opening?_spec opens with ⟨s, inner, rfl, rfl⟩
      exact ⟨Nat.succ_pos _, Nat.succ_pos _⟩
    | comment =>
      rcases opening?_spec opens with ⟨s, inner, rfl, rfl⟩
      exact ⟨Nat.succ_pos _, Nat.succ_pos _⟩
    | raw =>
      rcases opening?_spec opens with ⟨f, b, inner, rfl, rfl⟩
      exact ⟨Nat.succ_pos _, Nat.succ_pos _⟩
  rw [Cursor.advance_rest, there, List.length_drop, all, List.length_append]
  omega

theorem Cursor.regions_of_none
    (h : findLength? (fun cs => (opening? cs).map Prod.snd) c.rest = none) (m : Nat) :
    c.regions (m + 1) = [] := by
  rw [Cursor.regions, h]

theorem Cursor.regions_tag {kind : TagKind} (h : OpensAt c data (.tag kind) n) {m j : Nat}
    {ps : List Spelled} {stop : Cursor}
    (hps : ((c.advance data.length).advance n).pieces kind [] m = some (ps, stop, j)) :
    c.regions (m + 1) = .tag kind ((c.advance data.length).rest.take n) ps (stop.rest.take j) ::
      (stop.advance j).regions m := by
  rw [Cursor.regions, h.found]
  simp only [h.here, hps]

theorem Cursor.regions_comment (h : OpensAt c data .comment n) {m j : Nat} {body : List Char}
    (hf : findLength? commentCloseLength? ((c.advance data.length).advance n).rest =
      some (body, j)) :
    c.regions (m + 1) =
      (((c.advance data.length).advance n).advance (body.length + j)).regions m := by
  rw [Cursor.regions, h.found]
  simp only [h.here, hf]

theorem Cursor.regions_raw (h : OpensAt c data .raw n) {m j : Nat} {body : List Char}
    (hf : findLength? rawCloseLength? ((c.advance data.length).advance n).rest = some (body, j)) :
    c.regions (m + 1) = .raw body ::
      (((c.advance data.length).advance n).advance (body.length + j)).regions m := by
  rw [Cursor.regions, h.found]
  simp only [h.here, hf]

theorem Cursor.regions_unclosed {o : Opening} (h : OpensAt c data o n) (m : Nat)
    (ho : (o = .comment ∧
        findLength? commentCloseLength? ((c.advance data.length).advance n).rest = none) ∨
      (o = .raw ∧ findLength? rawCloseLength? ((c.advance data.length).advance n).rest = none)) :
    c.regions (m + 1) = [] := by
  rw [Cursor.regions, h.found]
  rcases ho with ⟨rfl, hf⟩ | ⟨rfl, hf⟩
  · simp only [h.here, hf]
  · simp only [h.here, hf]

end Steps

section Tokens

theorem Outside.of_texts {ts : List Token} {items : List Lexeme} (hitems : AreTexts items)
    (h : Outside [] (items.map (·.token) ++ ts)) : Outside [] ts := by
  induction items with
  | nil => exact h
  | cons l items ih =>
    rcases hitems l List.mem_cons_self with ⟨s, hs⟩
    rw [List.map_cons, hs, List.cons_append] at h
    refine ih (fun l' hl => hitems l' (List.mem_cons_of_mem _ hl)) ?_
    generalize hall : Token.data s :: (items.map (·.token) ++ ts) = all at h
    cases h with
    | done => exact absurd hall (List.cons_ne_nil _ _)
    | data s' rest =>
      injection hall with _ same
      exact same ▸ rest
    | tag kind inner rest =>
      injection hall with first _
      cases kind <;> exact Token.noConfusion first

theorem blockTags_texts {items : List Lexeme} (hitems : AreTexts items) (ts : List Token) :
    blockTags (items.map (·.token) ++ ts) = blockTags ts := by
  induction items with
  | nil => rfl
  | cons l items ih =>
    rcases hitems l List.mem_cons_self with ⟨s, hs⟩
    rw [List.map_cons, hs, List.cons_append, blockTags]
    · exact ih fun l' hl => hitems l' (List.mem_cons_of_mem _ hl)
    · exact Token.noConfusion

/-- A tag that opens is closed, where no tag is cut off. -/
theorem Outside.exists_close {kind : TagKind} {ts : List Token}
    (h : Outside [] (kind.open :: ts)) :
    ∃ inner us, ts = inner ++ kind.close :: us ∧ (∀ t ∈ inner, t.isInner = true) ∧
      Outside [] us := by
  generalize hall : kind.open :: ts = all at h
  cases h with
  | done => exact absurd hall (List.cons_ne_nil _ _)
  | data s rest =>
    injection hall with first _
    cases kind <;> exact Token.noConfusion first
  | tag kind' inner rest =>
    injection hall with first same
    rw [TagKind.open_injective first]
    exact ⟨_, _, same, inner, rest⟩

theorem blockTags_tag {kind : TagKind} {inner : List Token}
    (hinner : ∀ t ∈ inner, t.isInner = true) (us : List Token) (opening closing : List Char)
    {ps : List Spelled} (hps : spoken ps = inner) :
    blockTags (kind.open :: (inner ++ kind.close :: us)) =
      [Region.tag kind opening ps closing].filterMap Region.statement? ++ blockTags us := by
  cases kind with
  | print =>
    rw [TagKind.open, blockTags, blockTags_append hinner]
    · rfl
    · exact Token.noConfusion
  | block =>
    -- The tokens of the statement end with the close, since inner tokens do not close.
    rw [TagKind.open, blockTags, blockTags_append hinner, tagTokens_append hinner]
    simp only [TagKind.close, tagTokens, blockTags, bne_self_eq_false, Bool.false_eq_true,
      not_false_eq_true, List.takeWhile_cons_of_neg, List.append_nil, List.filterMap_cons,
      Region.statement?, hps, List.filterMap_nil, List.singleton_append]

end Tokens

section Parts

/-- No comment ends inside of its own characters, and its signs end none. -/
theorem notInfix_comment {body after : List Char} (s s' : Sign)
    (h : ∀ t, t <:+ body → t ≠ [] → commentCloseLength? (t ++ after) = none) :
    ¬ ['#', '}'] <:+: s.chars ++ (body ++ s'.chars) := by
  have sign (s : Sign) {c : Char} (hc : IsSolid c) : c ∉ s.chars := fun mem =>
    hc.notMem Space.empty s (List.mem_append_right _ mem)
  have none (s : Sign) : ¬ ['#', '}'] <:+: s.chars := fun found =>
    sign s (by decide) (found.subset List.mem_cons_self)
  have inner : ¬ ['#', '}'] <:+: body := by
    rintro ⟨before, rest, rfl⟩
    rw [List.append_assoc] at h
    have taken := h ('#' :: '}' :: rest) (List.suffix_append _ _) (List.cons_ne_nil _ _)
    rcases exists_commentCloseLength? (rest ++ after) with ⟨n, hn⟩
    exact Option.some_ne_none n (hn.symm.trans taken)
  -- The signs stand at the ends, and neither of the two characters is a sign.
  refine notInfix_append (none s) (notInfix_append inner (none s') (.inr ?_)) (.inl ?_)
  · exact fun head => sign s' (show IsSolid '}' by decide) (List.mem_of_head? head)
  · exact fun last => sign s (show IsSolid '#' by decide) (List.mem_of_getLast? last)

/-- Where no raw block ends, there is no tag around its last word, whatever
follows. -/
theorem passes_endraw {body after : List Char}
    (h : ∀ t, t <:+ body → t ≠ [] → rawCloseLength? (t ++ after) = none) :
    Reference.Passes (bareTag? "endraw") body [] := by
  intro t ht present
  rw [List.append_nil, Option.eq_none_iff_forall_ne_some]
  intro rest found
  rcases eq_of_bareTag? found with ⟨f, rfl⟩
  -- A tag around the word would be an end of the block, and there is none.
  have taken := bareTag?_of_rawCloseLength? (h _ ht present)
  rw [List.append_assoc, bareTag?_around (by decide)] at taken
  exact Option.some_ne_none _ taken

variable {c : Cursor} {data : List Char} {k m j : Nat} {rs : List Region}

theorem OpensAt.fallsInto_tag {kind : TagKind} {ps : List Spelled} {stop : Cursor}
    (h : OpensAt c data (.tag kind) k)
    (hps : ((c.advance data.length).advance k).pieces kind [] m = some (ps, stop, j))
    (unified : '\r' ∉ c.rest) (rest : FallsInto (stop.advance j).rest rs) :
    FallsInto c.rest
      (.tag kind ((c.advance data.length).rest.take k) ps (stop.rest.take j) :: rs) := by
  rcases h.split with ⟨after, all, there, text, opens⟩
  rcases opening?_spec opens with ⟨s, inner, rfl, rfl⟩
  rcases reads_pieces hps with ⟨inside, reads, close⟩
  rcases closeLength?_spec close with ⟨s', b, after', stopped, rfl⟩
  rw [rest_advance ('{' :: kind.mark :: s.chars) there] at inside
  have plain := isPlain_pieces hps fun found => by
    rw [Cursor.advance_rest, Cursor.advance_rest] at found
    exact unified (List.mem_of_mem_drop (List.mem_of_mem_drop found))
  -- In a statement without a sign at its close, no symbol at the end looks like one.
  have unsigned : kind = .block → s'.chars = [] → EndsUnsigned (spelling ps) := by
    rintro rfl no_sign
    rw [no_sign] at stopped
    exact ends_pieces hps stopped
  have closed : stop.rest = (s'.chars ++ (kind.closing ++ b.chars)) ++ after' := by
    rw [stopped, List.append_assoc, List.append_assoc]
  rw [rest_advance _ closed] at rest
  rw [stopped] at inside reads
  have opened : (c.advance data.length).rest.take ('{' :: kind.mark :: s.chars).length =
      '{' :: kind.mark :: s.chars := by
    rw [there]
    exact List.take_left
  -- The region keeps the characters that were counted, and these are the delimiters.
  rw [opened, closed, List.take_left, all, inside]
  exact .tag kind s s' b text reads unsigned plain rest

theorem OpensAt.fallsInto_comment {body : List Char} (h : OpensAt c data .comment k)
    (hf : findLength? commentCloseLength? ((c.advance data.length).advance k).rest =
      some (body, j))
    (rest : FallsInto (((c.advance data.length).advance k).advance (body.length + j)).rest rs) :
    FallsInto c.rest rs := by
  rcases h.split with ⟨after, all, there, text, opens⟩
  rcases opening?_spec opens with ⟨s, inner, rfl, rfl⟩
  rcases findLength?_eq_some hf with ⟨closing, inside, close, none⟩
  rcases commentCloseLength?_spec close with ⟨s', b, after', rfl, rfl⟩
  -- The signs are read as part of the comment, which falls into what stands between its delimiters.
  have closed : ((c.advance data.length).advance ('{' :: '#' :: s.chars).length).rest =
      (body ++ (s'.chars ++ '#' :: '}' :: b.chars)) ++ after' := by
    rw [inside, List.append_assoc, List.append_assoc, List.cons_append, List.cons_append]
  rw [← List.length_append, rest_advance _ closed] at rest
  rw [rest_advance ('{' :: '#' :: s.chars) there] at inside
  have whole := FallsInto.comment b text (notInfix_comment s s' none) rest
  rw [all, inside]
  rwa [List.append_assoc, List.append_assoc] at whole

theorem OpensAt.fallsInto_raw {body : List Char} (h : OpensAt c data .raw k)
    (hf : findLength? rawCloseLength? ((c.advance data.length).advance k).rest = some (body, j))
    (rest : FallsInto (((c.advance data.length).advance k).advance (body.length + j)).rest rs) :
    FallsInto c.rest (.raw body :: rs) := by
  rcases h.split with ⟨after, all, there, text, opens⟩
  rcases opening?_spec opens with ⟨f, b, inner, rfl, rfl⟩
  rcases findLength?_eq_some hf with ⟨closing, inside, close, none⟩
  rcases rawCloseLength?_spec close with ⟨g, b', after', rfl, rfl⟩
  have closed : ((c.advance data.length).advance (f.around "raw".toList ++ b.chars).length).rest =
      (body ++ (g.around "endraw".toList ++ b'.chars)) ++ after' := by
    rw [inside, List.append_assoc, List.append_assoc]
  rw [← List.length_append, rest_advance _ closed] at rest
  rw [← List.append_assoc] at there
  rw [rest_advance _ there] at inside
  rw [all, inside]
  exact .raw f g b b' text (passes_endraw none) rest

/-- A text may stop where a comment or a raw block has just opened. -/
theorem OpensAt.fallsInto_cut {o : Opening} (h : OpensAt c data o k)
    (ho : o = .comment ∨ o = .raw) (stops : ((c.advance data.length).advance k).rest = []) :
    FallsInto c.rest [] := by
  rcases h.split with ⟨after, all, there, text, opens⟩
  rw [all]
  refine .cut text ?_
  rcases ho with rfl | rfl
  · rcases opening?_spec opens with ⟨s, inner, rfl, rfl⟩
    rw [rest_advance ('{' :: '#' :: s.chars) there] at stops
    rw [stops, List.append_nil]
    exact .comment s
  · rcases opening?_spec opens with ⟨f, b, inner, rfl, rfl⟩
    rw [← List.append_assoc] at there
    rw [rest_advance _ there] at stops
    rw [stops, List.append_nil]
    exact .raw f b

end Parts

/-- Scanning from a place outside of tags comes to the end of the text, without a
mistake and in no tag. -/
structure Cursor.ScansAll (c : Cursor) (n : Nat) : Prop where
  /-- There are steps for all characters. -/
  size : c.rest.length < n
  /-- Line breaks are unified. -/
  unified : '\r' ∉ c.rest
  /-- No tag is cut off. -/
  outside : Outside [] (c.scan .outside n).tokens
  /-- No mistake is found. -/
  whole : (c.scan .outside n).mistake = none

/-- The text from a place on falls into its regions, and the statements of its
tokens are theirs. -/
structure Cursor.IsDivided (c : Cursor) (n m : Nat) : Prop where
  /-- The text falls into its regions. -/
  falls : FallsInto c.rest (c.regions m)
  /-- The statements are those of the regions. -/
  tags : blockTags (c.scan .outside n).tokens = (c.regions m).filterMap Region.statement?

namespace Cursor.ScansAll

variable {c : Cursor} {data : List Char} {n m k : Nat} {text items : List Lexeme}

/-- Where nothing opens any more the text has no regions. -/
theorem isDivided_of_none (none : findLength? (fun cs => (opening? cs).map Prod.snd) c.rest = none)
    (texts : AreTexts items) {e : Option Mistake} (hs : c.step .outside = ⟨items, .error e⟩) :
    c.IsDivided (n + 1) (m + 1) := by
  constructor
  · rw [Cursor.regions_of_none none]
    have all := FallsInto.cut (isText_of_findLength? none) IsUnclosed.nil
    rwa [List.append_nil] at all
  · rw [Cursor.regions_of_none none, Cursor.scan_of_error hs, Lexemes.tokens,
      ← List.append_nil (items.map _), blockTags_texts texts]
    rfl

/-- What opens and is not closed stands at the end. -/
theorem isDivided_of_unclosed (h : c.ScansAll (n + 1)) {o : Opening} (opens : OpensAt c data o k)
    (texts : AreTexts text) {e : Option Mistake} (hs : c.step .outside = ⟨text ++ [], .error e⟩)
    (stops : e = none → ((c.advance data.length).advance k).rest = [])
    (unclosed : (o = .comment ∧
        findLength? commentCloseLength? ((c.advance data.length).advance k).rest = none) ∨
      (o = .raw ∧ findLength? rawCloseLength? ((c.advance data.length).advance k).rest = none)) :
    c.IsDivided (n + 1) (m + 1) := by
  have whole := h.whole
  rw [Cursor.scan_of_error hs] at whole
  have which := unclosed.imp And.left And.left
  constructor
  · rw [Cursor.regions_unclosed opens m unclosed]
    -- Anything behind the opening would be a mistake.
    exact opens.fallsInto_cut which (stops whole)
  · rw [Cursor.regions_unclosed opens m unclosed, Cursor.scan_of_error hs, Lexemes.tokens,
      List.append_nil, ← List.append_nil (text.map _), blockTags_texts texts]
    rfl

/-- What is closed is passed, and the rest follows. -/
theorem passed (h : c.ScansAll (n + 1)) {o : Opening} (opens : OpensAt c data o k)
    (texts : AreTexts items) {i : Nat} (hs : c.step .outside =
      ⟨items, .ok (((c.advance data.length).advance k).advance i, .outside)⟩) :
    (((c.advance data.length).advance k).advance i).ScansAll n ∧
      blockTags (c.scan .outside (n + 1)).tokens =
        blockTags ((((c.advance data.length).advance k).advance i).scan .outside n).tokens := by
  rcases h with ⟨size, unified, outside, whole⟩
  rw [Cursor.scan_of_ok hs] at outside whole ⊢
  rw [Lexemes.tokens_prepend] at outside ⊢
  refine ⟨⟨?_, ?_, outside.of_texts texts, whole⟩, blockTags_texts texts _⟩
  · have shorter := opens.length_lt
    rw [Cursor.advance_rest, List.length_drop]
    omega
  · simp only [Cursor.advance_rest]
    exact fun found => unified
      (List.mem_of_mem_drop (List.mem_of_mem_drop (List.mem_of_mem_drop found)))

/-- A tag is passed with its pieces, and the rest follows. -/
theorem tag (h : c.ScansAll (n + 1)) (hm : n ≤ m) {kind : TagKind}
    (opens : OpensAt c data (.tag kind) k) (texts : AreTexts text) {line : Nat}
    (hs : c.step .outside = ⟨text ++ [⟨kind.open, line⟩],
      .ok ((c.advance data.length).advance k, .inside kind [])⟩) :
    ∃ ps stop j, ((c.advance data.length).advance k).pieces kind [] m = some (ps, stop, j) ∧
      ∃ n' < n, (stop.advance j).ScansAll n' ∧
        ∀ opening closing, blockTags (c.scan .outside (n + 1)).tokens =
          [Region.tag kind opening ps closing].filterMap Region.statement? ++
            blockTags ((stop.advance j).scan .outside n').tokens := by
  have shorter := opens.length_lt
  rcases h with ⟨size, unified, outside, whole⟩
  rw [Cursor.scan_of_ok hs] at outside whole ⊢
  rw [Lexemes.tokens_prepend, List.map_append, List.append_assoc, List.map_singleton,
    List.singleton_append] at outside ⊢
  -- No tag is cut off, so a close is among the tokens, and the scanner comes to it.
  rcases (outside.of_texts texts).exists_close with ⟨inner, us, same, hinner, after⟩
  rcases scan_inside hm hinner same with ⟨ps, stop, j, hps, spelled, n', hn', rest, mistake, left⟩
  refine ⟨ps, stop, j, hps, n', hn', ⟨left (by omega), ?_, rest ▸ after, mistake.trans whole⟩,
    fun opening closing => ?_⟩
  -- What is behind the tag is a part of what is behind its opening.
  · have inside := (reads_pieces hps).1
    simp only [Cursor.advance_rest] at inside ⊢
    intro found
    have behind := List.mem_append_right (spelling ps) (List.mem_of_mem_drop found)
    rw [← inside] at behind
    exact unified (List.mem_of_mem_drop (List.mem_of_mem_drop behind))
  · rw [blockTags_texts texts, same, blockTags_tag hinner us opening closing spelled, rest]

end Cursor.ScansAll

/-- Scanning from outside of tags on, to the end and without a mistake, finds
what the text falls into. -/
theorem Cursor.ScansAll.isDivided (n : Nat) :
    ∀ {m : Nat} {c : Cursor}, n ≤ m → c.ScansAll n → c.IsDivided n m := by
  -- A tag takes as many steps as it has pieces, so the induction goes to any smaller count.
  induction n using Nat.strong_induction_on with
  | _ n ih =>
    intro m c hm h
    cases n with
    | zero => exact absurd h.size (Nat.not_lt_zero _)
    | succ n =>
      cases m with
      | zero => exact absurd hm (Nat.not_succ_le_zero n)
      | succ m =>
        rcases step_outside c with
          ⟨none, items, e, texts, hs⟩ | ⟨data, o, k, text, opens, texts, hs⟩
        · exact isDivided_of_none none texts hs
        · cases o with
          | comment =>
            dsimp only at hs
            rcases enclosed_cases ((c.advance data.length).advance k) false commentCloseLength?
              "Missing end of comment tag" with
              ⟨none, e, he, stops⟩ | ⟨body, j, items, found, more, he⟩
            · rw [he] at hs
              exact h.isDivided_of_unclosed opens texts hs stops (.inl ⟨rfl, none⟩)
            · rw [he] at hs
              rcases h.passed opens (texts.append more) hs with ⟨rest, tags⟩
              have divided := ih n (Nat.lt_succ_self n) (Nat.le_of_succ_le_succ hm) rest
              have same := Cursor.regions_comment opens found (m := m)
              exact ⟨same ▸ opens.fallsInto_comment found divided.falls,
                same ▸ tags.trans divided.tags⟩
          | raw =>
            dsimp only at hs
            rcases enclosed_cases ((c.advance data.length).advance k) true rawCloseLength?
              "Missing end of raw directive" with
              ⟨none, e, he, stops⟩ | ⟨body, j, items, found, more, he⟩
            · rw [he] at hs
              exact h.isDivided_of_unclosed opens texts hs stops (.inr ⟨rfl, none⟩)
            · rw [he] at hs
              rcases h.passed opens (texts.append more) hs with ⟨rest, tags⟩
              have divided := ih n (Nat.lt_succ_self n) (Nat.le_of_succ_le_succ hm) rest
              have same := Cursor.regions_raw opens found (m := m)
              exact ⟨same ▸ opens.fallsInto_raw found divided.falls,
                same ▸ tags.trans divided.tags⟩
          | tag kind =>
            rcases hs with ⟨line, hs⟩
            rcases h.tag (Nat.le_of_succ_le_succ hm) opens texts hs with
              ⟨ps, stop, j, hps, n', hn', rest, tags⟩
            have divided := ih n' (Nat.lt_succ_of_lt hn')
              (hn'.le.trans (Nat.le_of_succ_le_succ hm)) rest
            have same := Cursor.regions_tag opens hps
            refine ⟨same ▸ opens.fallsInto_tag hps h.unified divided.falls, ?_⟩
            rw [same, tags, divided.tags, ← List.filterMap_append, List.singleton_append]

/-- A text that can be read to its end falls into its regions, and its
statements are theirs. -/
theorem fallsInto_regions {text : String} (outside : Outside [] (tokens text).tokens)
    (whole : (tokens text).mistake = none) :
    FallsInto (unifyBreaks text.toList) (regions text) ∧
      blockTags (tokens text).tokens = (regions text).filterMap Region.statement? := by
  have all := Cursor.ScansAll.isDivided _ (Nat.le_refl _)
    ⟨Nat.lt_succ_self _, notMem_unifyBreaks _, outside, whole⟩
  exact ⟨all.falls, all.tags⟩

end Template

end Stencil
