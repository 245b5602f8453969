import Stencil.Proofs.Template.Delimiter
import Stencil.Proofs.Template.Ending
import Stencil.Proofs.Template.Tags

/-!
# The Regions of a Text

The tags and raw blocks of a text, found as the scanner of tokens finds them.

The scanner stands outside of tags, finds the first place where something
opens, and goes on behind a comment, a raw block or a tag. `Cursor.regions`
follows the same steps and keeps what the tokens do not show: the characters
of a raw block, and those of a tag with the pieces that they are read as.

Following the scanner through a tag gives the pieces of that tag, its tokens
and the place behind it, so that the tokens of a text and its regions can be
compared one region at a time.

## Main definitions

* `Cursor.pieces`: The pieces of a tag, and the place where it closes.
* `Region`, `regions`: The raw blocks and tags of a text.

## Theorems

* `findLength?_eq_some`, `findLength?_eq_none`: Where something opens first.
* `reads_pieces`: The pieces of a tag are what its characters are read as.
* `ends_pieces`: Nothing inside of a tag looks like the sign of its close.
* `outside_tokens`: The tokens of a text follow each other as tags do.
* `scan_inside`: Scanning a tag that closes gives its pieces.
-/

namespace Stencil

namespace Template

open Text

namespace Cursor

theorem advance_rest (c : Cursor) (n : Nat) : (c.advance n).rest = c.rest.drop n := by
  induction n generalizing c with
  | zero => rfl
  | succ n ih =>
    unfold advance
    split
    · next h => rw [h, List.drop_nil]
    · next ch rest h => rw [ih, h, List.drop_succ_cons]

/-- The pieces of a tag from a place on, the place where it closes, and how many
characters its close takes, if it closes. -/
def pieces (c : Cursor) (kind : TagKind) (opened : List Symbol) :
    Nat → Option (List Spelled × Cursor × Nat)
  | 0 => none
  | steps + 1 =>
    match if opened.isEmpty then closeLength? kind c.rest else none with
    | some n => some ([], c, n)
    | none =>
      match piece c opened with
      | .error _ => none
      | .ok p =>
        ((c.advance p.count).pieces kind p.opened steps).map fun (ps, stop, n) =>
          (⟨p.token, c.rest.take p.count⟩ :: ps, stop, n)

/-- A tag without pieces closes where it stands, with no bracket open. -/
theorem pieces_nil {c stop : Cursor} {kind : TagKind} {opened : List Symbol} {n k : Nat}
    (h : c.pieces kind opened n = some ([], stop, k)) :
    stop = c ∧ opened.isEmpty = true := by
  cases n with
  | zero => exact absurd h (Option.some_ne_none _).symm
  | succ n =>
    unfold pieces at h
    split at h
    · next m hm =>
      cases h
      refine ⟨rfl, ?_⟩
      split at hm
      · assumption
      · exact absurd hm (Option.some_ne_none _).symm
    · split at h
      · exact absurd h (Option.some_ne_none _).symm
      · rcases Option.map_eq_some_iff.mp h with ⟨found, -, same⟩
        exact absurd (Prod.mk.inj same).1 (List.cons_ne_nil _ _)

end Cursor

/-- A part of a text that can hold something that looks like a reference. -/
inductive Region where
  /-- A raw block: the characters between its tags. -/
  | raw (body : List Char)
  /-- A tag: the characters that open it, its pieces, and the characters that
  close it. -/
  | tag (kind : TagKind) (opening : List Char) (inside : List Spelled) (closing : List Char)
  deriving DecidableEq, Repr

/-- The raw blocks and tags from a place outside of tags on. -/
def Cursor.regions (c : Cursor) : Nat → List Region
  | 0 => []
  | steps + 1 =>
    match findLength? (fun cs => (opening? cs).map Prod.snd) c.rest with
    | none => []
    | some (data, n) =>
      let there := c.advance data.length
      let inner := there.advance n
      match opening? there.rest with
      | some (.tag kind, _) =>
        match inner.pieces kind [] steps with
        | some (ps, stop, m) =>
          .tag kind (there.rest.take n) ps (stop.rest.take m) :: (stop.advance m).regions steps
        | none => []
      | some (.comment, _) =>
        match findLength? commentCloseLength? inner.rest with
        | some (body, m) => (inner.advance (body.length + m)).regions steps
        | none => []
      | _ =>
        match findLength? rawCloseLength? inner.rest with
        | some (body, m) => .raw body :: (inner.advance (body.length + m)).regions steps
        | none => []

/-- The raw blocks and tags of a text. -/
def regions (text : String) : List Region :=
  let cs := unifyBreaks text.toList
  (Cursor.start cs).regions (cs.length + 1)

theorem findLength?_eq_some {length? : List Char → Option Nat} {cs head : List Char} {n : Nat}
    (h : findLength? length? cs = some (head, n)) :
    ∃ after, cs = head ++ after ∧ length? after = some n ∧
      ∀ t, t <:+ head → t ≠ [] → length? (t ++ after) = none := by
  induction cs generalizing head with
  | nil =>
    rcases Option.map_eq_some_iff.mp h with ⟨m, hm, same⟩
    injection same with head_nil count
    subst head_nil count
    exact ⟨[], rfl, hm, fun t ht present => absurd (List.suffix_nil.mp ht) present⟩
  | cons c cs ih =>
    unfold findLength? at h
    cases hc : length? (c :: cs) with
    | some m =>
      simp only [hc] at h
      injection h with h
      injection h with head_nil count
      subst head_nil count
      exact ⟨c :: cs, rfl, hc, fun t ht present => absurd (List.suffix_nil.mp ht) present⟩
    | none =>
      simp only [hc] at h
      rcases Option.map_eq_some_iff.mp h with ⟨⟨head', m⟩, hm, same⟩
      injection same with head_cons count
      subst head_cons count
      rcases ih hm with ⟨after, rfl, found, before⟩
      refine ⟨after, rfl, found, fun t ht present => ?_⟩
      -- A suffix is all that there is, or one of what stands behind the first character.
      rcases List.suffix_cons_iff.mp ht with rfl | ht
      · exact hc
      · exact before t ht present

theorem findLength?_eq_none {length? : List Char → Option Nat} {cs : List Char}
    (h : findLength? length? cs = none) : ∀ t, t <:+ cs → length? t = none := by
  induction cs with
  | nil =>
    intro t ht
    rw [List.suffix_nil.mp ht]
    exact Option.map_eq_none_iff.mp h
  | cons c cs ih =>
    unfold findLength? at h
    cases hc : length? (c :: cs) with
    | some m =>
      simp only [hc] at h
      exact absurd h (Option.some_ne_none _)
    | none =>
      simp only [hc] at h
      intro t ht
      rcases List.suffix_cons_iff.mp ht with rfl | ht
      · exact hc
      · exact ih (Option.map_eq_none_iff.mp h) t ht

/-- The pieces of a tag are what its characters are read as, up to the place
where it closes. -/
theorem reads_pieces {c stop : Cursor} {kind : TagKind} {opened : List Symbol} {n k : Nat}
    {ps : List Spelled} (h : c.pieces kind opened n = some (ps, stop, k)) :
    c.rest = spelling ps ++ stop.rest ∧ Reads ps stop.rest ∧
      closeLength? kind stop.rest = some k := by
  induction n generalizing c opened ps with
  | zero => exact absurd h (Option.some_ne_none _).symm
  | succ n ih =>
    unfold Cursor.pieces at h
    split at h
    · next m hm =>
      cases h
      refine ⟨rfl, trivial, ?_⟩
      split at hm
      · exact hm
      · exact absurd hm (Option.some_ne_none _).symm
    · split at h
      · exact absurd h (Option.some_ne_none _).symm
      · next p hp =>
        rcases Option.map_eq_some_iff.mp h with ⟨⟨qs, stop', k'⟩, hq, same⟩
        cases same
        -- What stands behind the first piece is read from the place where it ends.
        rcases ih hq with ⟨all, reads, close⟩
        rw [Cursor.advance_rest] at all
        refine ⟨?_, ⟨?_, reads⟩, close⟩
        · rw [spelling_cons, List.append_assoc, ← all]
          exact (List.take_append_drop _ _).symm
        · rw [← all]
          exact (piece_reads hp).2

/-- What can be read as a sign of the close belongs to it, so the pieces of a
statement that closes without a sign do not end in one. -/
theorem ends_pieces {c stop : Cursor} {opened : List Symbol} {n k : Nat} {ps : List Spelled}
    (h : c.pieces .block opened n = some (ps, stop, k)) {rest : List Char}
    (hstop : stop.rest = '%' :: '}' :: rest) : EndsUnsigned (spelling ps) := by
  induction n generalizing c opened ps with
  | zero => exact absurd h (Option.some_ne_none _).symm
  | succ n ih =>
    unfold Cursor.pieces at h
    split at h
    · cases h
      exact isUnsigned_nil.ends
    · next open_ =>
      split at h
      · exact absurd h (Option.some_ne_none _).symm
      · next p hp =>
        rcases Option.map_eq_some_iff.mp h with ⟨⟨qs, stop', k'⟩, hq, same⟩
        cases same
        rw [spelling_cons]
        cases qs with
        | cons q qs =>
          have present : spelling (q :: qs) ≠ [] := by
            rw [spelling_cons]
            exact List.append_ne_nil_of_left_ne_nil (reads_pieces hq).2.1.1.ne_nil _
          exact EndsUnsigned.append_right present (ih hq)
        | nil =>
          rcases piece_sign hp with ends | ⟨e, sign, chars, same⟩
          · exact ends.append isUnsigned_nil.ends
          · -- The sign stands in front of the close, so it would have been read with it.
            have closed := Cursor.pieces_nil hq
            rw [closed.1, Cursor.advance_rest] at hstop
            have here : c.rest = e :: '%' :: '}' :: rest := by
              rw [← List.take_append_drop p.count c.rest, chars, hstop]
              rfl
            rw [same] at closed
            rw [if_pos closed.2, here] at open_
            rcases sign with rfl | rfl
            · exact absurd open_ (Option.some_ne_none _)
            · exact absurd open_ (Option.some_ne_none _)

/-- In a text with unified line breaks, the texts in a tag that have no
backslash stand for what is between their quotes. -/
theorem isPlain_pieces {c stop : Cursor} {kind : TagKind} {opened : List Symbol} {n k : Nat}
    {ps : List Spelled} (h : c.pieces kind opened n = some (ps, stop, k))
    (unified : '\r' ∉ c.rest) : ∀ p ∈ ps, p.IsPlain := by
  induction n generalizing c opened ps with
  | zero => exact absurd h (Option.some_ne_none _).symm
  | succ n ih =>
    unfold Cursor.pieces at h
    split at h
    · cases h
      exact fun _ hp => absurd hp List.not_mem_nil
    · split at h
      · exact absurd h (Option.some_ne_none _).symm
      · next p hp =>
        rcases Option.map_eq_some_iff.mp h with ⟨⟨qs, stop', k'⟩, hq, same⟩
        cases same
        intro q hmem
        rcases List.mem_cons.mp hmem with rfl | hmem
        · exact piece_isPlain hp unified
        · refine ih hq ?_ q hmem
          rw [Cursor.advance_rest]
          exact fun found => unified (List.mem_of_mem_drop found)

/-- The tokens of a result of scanning. -/
def Lexemes.tokens (ls : Lexemes) : List Token :=
  ls.items.map (·.token)

theorem Lexemes.tokens_prepend (items : List Lexeme) (ls : Lexemes) :
    (ls.prepend items).tokens = items.map (·.token) ++ ls.tokens :=
  List.map_append

theorem isInner_of_piece {c : Cursor} {opened : List Symbol} {p : Piece}
    (h : piece c opened = .ok p) : ∀ t ∈ p.token.toList, t.isInner = true := by
  intro t ht
  exact (piece_reads h).2.isInner (Option.mem_toList.mp ht)

theorem map_token_lexemes (ts : List Token) (line : Nat) :
    (ts.map (⟨·, line⟩ : Token → Lexeme)).map (·.token) = ts := by
  rw [List.map_map]
  exact List.map_id _

/-- Tokens in a tag: none but inner ones, or inner ones, the end of the tag, and
what is outside of tags. -/
def Within (kind : TagKind) (ts : List Token) : Prop :=
  ∃ inner rest, ts = inner ++ rest ∧ (∀ t ∈ inner, t.isInner = true) ∧
    (rest = [] ∨ ∃ us cut, rest = kind.close :: us ∧ IsCut cut ∧ Outside cut us)

theorem Within.append {kind : TagKind} {ts us : List Token} (hts : ∀ t ∈ ts, t.isInner = true)
    (h : Within kind us) : Within kind (ts ++ us) := by
  rcases h with ⟨inner, rest, rfl, hinner, hrest⟩
  refine ⟨ts ++ inner, rest, (List.append_assoc _ _ _).symm, fun t ht => ?_, hrest⟩
  rcases List.mem_append.mp ht with ht | ht
  · exact hts t ht
  · exact hinner t ht

theorem within_nil (kind : TagKind) : Within kind [] :=
  ⟨[], [], rfl, fun _ h => absurd h List.not_mem_nil, .inl rfl⟩

/-- The token that opens a tag, and what is inside of it. -/
theorem Within.open {kind : TagKind} {ts : List Token} (h : Within kind ts) :
    ∃ cut, IsCut cut ∧ Outside cut (kind.open :: ts) := by
  rcases h with ⟨inner, rest, rfl, hinner, rfl | ⟨us, cut, rfl, hcut, outside⟩⟩
  · refine ⟨kind.open :: inner, .inside kind hinner, ?_⟩
    rw [List.append_nil]
    exact .done
  · exact ⟨cut, hcut, .tag kind hinner outside⟩

/-- One step of scanning. -/
def Cursor.step (c : Cursor) : Mode → Found
  | .outside => outsideStep c
  | .inside kind opened => insideStep c kind opened

theorem Cursor.scan_succ (c : Cursor) (mode : Mode) (n : Nat) :
    c.scan mode (n + 1) = match (c.step mode).next with
      | .error m => ⟨(c.step mode).items, m⟩
      | .ok (c', mode') => (c'.scan mode' n).prepend (c.step mode).items := by
  cases mode <;> rfl

theorem Cursor.scan_of_error {c : Cursor} {mode : Mode} {items : List Lexeme}
    {m : Option Mistake} (h : c.step mode = ⟨items, .error m⟩) (n : Nat) :
    c.scan mode (n + 1) = ⟨items, m⟩ := by
  rw [Cursor.scan_succ, h]

theorem Cursor.scan_of_ok {c c' : Cursor} {mode mode' : Mode} {items : List Lexeme}
    (h : c.step mode = ⟨items, .ok (c', mode')⟩) (n : Nat) :
    c.scan mode (n + 1) = (c'.scan mode' n).prepend items := by
  rw [Cursor.scan_succ, h]

/-- Inside of a tag the text is given up, or the tag closes, or a piece is
read. -/
theorem step_inside (c : Cursor) (kind : TagKind) (opened : List Symbol) :
    (∃ m, c.step (.inside kind opened) = ⟨[], .error m⟩) ∨
      (∃ n, (if opened.isEmpty then closeLength? kind c.rest else none) = some n ∧
        c.step (.inside kind opened) =
          ⟨[⟨kind.close, c.line⟩], .ok (c.advance n, .outside)⟩) ∨
      ∃ p, (if opened.isEmpty then closeLength? kind c.rest else none) = none ∧
        piece c opened = .ok p ∧ c.step (.inside kind opened) =
          ⟨p.token.toList.map (⟨·, c.line⟩), .ok (c.advance p.count, .inside kind p.opened)⟩ := by
  unfold Cursor.step insideStep
  dsimp only
  split
  · exact .inl ⟨_, rfl⟩
  · split
    · next n hn => exact .inr (.inl ⟨n, hn, rfl⟩)
    · next hn =>
      split
      · exact .inl ⟨_, rfl⟩
      · next p hp => exact .inr (.inr ⟨p, hn, hp, rfl⟩)

/-- The tokens are texts. -/
def AreTexts (items : List Lexeme) : Prop :=
  ∀ l ∈ items, ∃ s, l.token = .data s

theorem areTexts_dataLexeme (line : Nat) (cs : List Char) : AreTexts (dataLexeme line cs) := by
  intro l hl
  unfold dataLexeme at hl
  split at hl
  · exact absurd hl List.not_mem_nil
  · rw [List.mem_singleton.mp hl]
    exact ⟨_, rfl⟩

theorem AreTexts.append {xs ys : List Lexeme} (hx : AreTexts xs) (hy : AreTexts ys) :
    AreTexts (xs ++ ys) := by
  intro l hl
  rcases List.mem_append.mp hl with hl | hl
  · exact hx l hl
  · exact hy l hl

theorem areTexts_nil : AreTexts [] :=
  fun _ h => absurd h List.not_mem_nil

/-- What is enclosed between two tags is text, and scanning goes on behind it
or ends. A text that ends there is no mistake if nothing is left of it. -/
theorem enclosed_cases (c : Cursor) (isText : Bool) (close? : List Char → Option Nat)
    (missing : String) :
    (findLength? close? c.rest = none ∧ ∃ m, enclosed c isText close? missing = ⟨[], .error m⟩ ∧
      (m = none → c.rest = [])) ∨
      ∃ body n items, findLength? close? c.rest = some (body, n) ∧ AreTexts items ∧
        enclosed c isText close? missing =
          ⟨items, .ok (c.advance (body.length + n), .outside)⟩ := by
  unfold enclosed
  split
  · next body n h =>
    refine .inr ⟨body, n, _, h, ?_, rfl⟩
    split
    · exact areTexts_dataLexeme _ _
    · exact areTexts_nil
  · next h =>
    refine .inl ⟨h, _, rfl, fun whole => ?_⟩
    split at whole
    · next empty => exact List.isEmpty_iff.mp empty
    · exact absurd whole (Option.some_ne_none _)

theorem Outside.texts {cut ts : List Token} (h : Outside cut ts) {items : List Lexeme}
    (hitems : AreTexts items) : Outside cut (items.map (·.token) ++ ts) := by
  induction items with
  | nil => exact h
  | cons l items ih =>
    rcases hitems l List.mem_cons_self with ⟨s, hs⟩
    rw [List.map_cons, hs]
    exact .data s (ih fun l' hl => hitems l' (List.mem_cons_of_mem _ hl))

/-- What opens first from a place outside of tags on: the text before it, and
how much it takes. -/
structure OpensAt (c : Cursor) (data : List Char) (o : Opening) (n : Nat) : Prop where
  /-- It is found. -/
  found : findLength? (fun cs => (opening? cs).map Prod.snd) c.rest = some (data, n)
  /-- It opens there. -/
  here : opening? (c.advance data.length).rest = some (o, n)

/-- Outside of tags the text ends, or it is given up, or something opens: a tag,
or a raw block or a comment, which is passed at once. -/
theorem step_outside (c : Cursor) :
    (findLength? (fun cs => (opening? cs).map Prod.snd) c.rest = none ∧
      ∃ items m, AreTexts items ∧ c.step .outside = ⟨items, .error m⟩) ∨
    ∃ data o n text, OpensAt c data o n ∧ AreTexts text ∧
      match o with
      | .tag kind => ∃ line, c.step .outside = ⟨text ++ [⟨kind.open, line⟩],
          .ok ((c.advance data.length).advance n, .inside kind [])⟩
      | .comment =>
        let found := enclosed ((c.advance data.length).advance n) false commentCloseLength?
          "Missing end of comment tag"
        c.step .outside = ⟨text ++ found.items, found.next⟩
      | .raw =>
        let found := enclosed ((c.advance data.length).advance n) true rawCloseLength?
          "Missing end of raw directive"
        c.step .outside = ⟨text ++ found.items, found.next⟩ := by
  unfold Cursor.step outsideStep
  dsimp only
  split
  · next h => exact .inl ⟨h, _, _, areTexts_dataLexeme _ _, rfl⟩
  · next data n h =>
    rcases findLength?_eq_some h with ⟨after, all, found, -⟩
    have there : (c.advance data.length).rest = after := by
      rw [Cursor.advance_rest, all, List.drop_left]
    have tail : c.rest.drop data.length = after := by
      rw [all, List.drop_left]
    rcases Option.map_eq_some_iff.mp found with ⟨⟨o, m⟩, ho, rfl⟩
    refine .inr ⟨data, o, m, dataLexeme c.line (beforeTag after data), ⟨h, by rw [there, ho]⟩,
      areTexts_dataLexeme _ _, ?_⟩
    rw [tail, ho]
    cases o with
    | tag kind => exact ⟨_, rfl⟩
    | comment => rfl
    | raw => rfl

/-- What the scanner finds follows each other as texts and tags do, from outside
of tags and from inside of one on. -/
theorem tokens_scan (n : Nat) :
    (∀ c : Cursor, ∃ cut, IsCut cut ∧ Outside cut (c.scan .outside n).tokens) ∧
      ∀ (c : Cursor) (kind : TagKind) (opened : List Symbol),
        Within kind (c.scan (.inside kind opened) n).tokens := by
  induction n with
  | zero => exact ⟨fun c => ⟨[], .nil, .done⟩, fun c kind opened => within_nil kind⟩
  | succ n ih =>
    -- A comment and a raw block add no token but text, and scanning goes on outside.
    have passed (c c' : Cursor) (items : List Lexeme) (texts : AreTexts items)
        (h : c.step .outside = ⟨items, .ok (c', .outside)⟩) :
        ∃ cut, IsCut cut ∧ Outside cut (c.scan .outside (n + 1)).tokens := by
      rcases ih.1 c' with ⟨cut, hcut, outside⟩
      refine ⟨cut, hcut, ?_⟩
      rw [Cursor.scan_of_ok h, Lexemes.tokens_prepend]
      exact outside.texts texts
    -- Where the text is given up or ends, no tag is open.
    have ended (c : Cursor) (items : List Lexeme) (m : Option Mistake) (texts : AreTexts items)
        (h : c.step .outside = ⟨items, .error m⟩) :
        ∃ cut, IsCut cut ∧ Outside cut (c.scan .outside (n + 1)).tokens := by
      refine ⟨[], .nil, ?_⟩
      rw [Cursor.scan_of_error h, Lexemes.tokens, ← List.append_nil (items.map _)]
      exact Outside.done.texts texts
    constructor
    · intro c
      rcases step_outside c with ⟨-, items, m, texts, h⟩ | ⟨data, o, k, text, -, texts, h⟩
      · exact ended c items m texts h
      · cases o with
        | tag kind =>
          rcases h with ⟨line, h⟩
          rcases (ih.2 ((c.advance data.length).advance k) kind []).open with ⟨cut, hcut, outside⟩
          refine ⟨cut, hcut, ?_⟩
          rw [Cursor.scan_of_ok h, Lexemes.tokens_prepend, List.map_append, List.append_assoc]
          exact outside.texts texts
        | comment =>
          dsimp only at h
          rcases enclosed_cases ((c.advance data.length).advance k) false commentCloseLength?
            "Missing end of comment tag" with ⟨-, m, he, -⟩ | ⟨body, m, items, -, more, he⟩
          · rw [he] at h
            exact ended c _ m (texts.append areTexts_nil) h
          · rw [he] at h
            exact passed c _ _ (texts.append more) h
        | raw =>
          dsimp only at h
          rcases enclosed_cases ((c.advance data.length).advance k) true rawCloseLength?
            "Missing end of raw directive" with ⟨-, m, he, -⟩ | ⟨body, m, items, -, more, he⟩
          · rw [he] at h
            exact ended c _ m (texts.append areTexts_nil) h
          · rw [he] at h
            exact passed c _ _ (texts.append more) h
    · intro c kind opened
      -- Inside of a tag a close leads outside, and a piece stays inside.
      rcases step_inside c kind opened with ⟨m, h⟩ | ⟨k, -, h⟩ | ⟨p, -, hp, h⟩
      · rw [Cursor.scan_of_error h]
        exact within_nil kind
      · rcases ih.1 (c.advance k) with ⟨cut, hcut, outside⟩
        rw [Cursor.scan_of_ok h, Lexemes.tokens_prepend]
        exact ⟨[], _, rfl, fun _ h => absurd h List.not_mem_nil,
          .inr ⟨_, cut, rfl, hcut, outside⟩⟩
      · rw [Cursor.scan_of_ok h, Lexemes.tokens_prepend, map_token_lexemes]
        exact (ih.2 _ kind p.opened).append (isInner_of_piece hp)

/-- The tokens of a text follow each other as texts and tags do. -/
theorem outside_tokens (text : String) :
    ∃ cut, IsCut cut ∧ Outside cut ((tokens text).items.map (·.token)) :=
  (tokens_scan _).1 _

/-- Inner tokens at the start of a tag are its first ones. -/
theorem inner_split {kind : TagKind} {ts us vs ws : List Token} (hts : ∀ t ∈ ts, t.isInner = true)
    (h : ts ++ us = vs ++ kind.close :: ws) :
    ∃ more, vs = ts ++ more ∧ us = more ++ kind.close :: ws := by
  induction ts generalizing vs with
  | nil => exact ⟨vs, rfl, h⟩
  | cons t ts ih =>
    cases vs with
    | nil =>
      have inner := hts t List.mem_cons_self
      rw [(List.cons.inj h).1, kind.close_isInner] at inner
      exact Bool.noConfusion inner
    | cons v vs =>
      rcases List.cons.inj h with ⟨rfl, rest⟩
      rcases ih (fun u hu => hts u (List.mem_cons_of_mem _ hu)) rest with ⟨more, rfl, after⟩
      exact ⟨more, rfl, after⟩

/-- Scanning a tag that closes gives its pieces, and goes on behind the
characters that close it. Every step takes a character, so as many steps as
there are characters are left. -/
theorem scan_inside {kind : TagKind} {n m : Nat} (hm : n ≤ m) {c : Cursor} {opened : List Symbol}
    {inner us : List Token} (hinner : ∀ t ∈ inner, t.isInner = true)
    (h : (c.scan (.inside kind opened) n).tokens = inner ++ kind.close :: us) :
    ∃ ps stop k, c.pieces kind opened m = some (ps, stop, k) ∧ spoken ps = inner ∧
      ∃ n' < n, ((stop.advance k).scan .outside n').tokens = us ∧
        ((stop.advance k).scan .outside n').mistake =
          (c.scan (.inside kind opened) n).mistake ∧
        (c.rest.length < n → (stop.advance k).rest.length < n') := by
  induction n generalizing m c opened inner with
  | zero => exact absurd h.symm (List.append_ne_nil_of_right_ne_nil _ (List.cons_ne_nil _ _))
  | succ n ih =>
    cases m with
    | zero => exact absurd hm (Nat.not_succ_le_zero n)
    | succ m =>
      rcases step_inside c kind opened with ⟨e, hs⟩ | ⟨k, hk, hs⟩ | ⟨p, hk, hp, hs⟩
      · rw [Cursor.scan_of_error hs] at h
        exact absurd h.symm (List.append_ne_nil_of_right_ne_nil _ (List.cons_ne_nil _ _))
      · rw [Cursor.scan_of_ok hs, Lexemes.tokens_prepend] at h
        cases inner with
        | cons t inner =>
          have first := hinner t List.mem_cons_self
          rw [← (List.cons.inj h).1, kind.close_isInner] at first
          exact Bool.noConfusion first
        | nil =>
          -- The close is the first token, so the tag has no more pieces.
          refine ⟨[], c, k, by rw [Cursor.pieces, hk], rfl, n, Nat.lt_succ_self n,
            (List.cons.inj h).2, ?_, fun size => ?_⟩
          · rw [Cursor.scan_of_ok hs]
            rfl
          · split at hk
            · have taken := (closeLength?_pos hk)
              rw [Cursor.advance_rest, List.length_drop]
              omega
            · exact absurd hk (Option.some_ne_none _).symm
      · rw [Cursor.scan_of_ok hs, Lexemes.tokens_prepend, map_token_lexemes] at h
        rcases inner_split (isInner_of_piece hp) h with ⟨more, rfl, rest⟩
        rcases ih (Nat.le_of_succ_le_succ hm)
          (fun t ht => hinner t (List.mem_append_right _ ht)) rest with
          ⟨ps, stop, k, hps, same, n', hn', tokens, mistake, left⟩
        refine ⟨⟨p.token, c.rest.take p.count⟩ :: ps, stop, k, ?_, ?_, n',
          Nat.lt_succ_of_lt hn', tokens, ?_, fun size => left ?_⟩
        · rw [Cursor.pieces, hk]
          dsimp only
          rw [hp]
          dsimp only
          rw [hps]
          rfl
        · rw [spoken_cons, same]
        · rw [mistake, Cursor.scan_of_ok hs]
          rfl
        · have taken := List.length_pos_of_ne_nil (piece_reads hp).1
          rw [List.length_take] at taken
          rw [Cursor.advance_rest, List.length_drop]
          omega

end Template

end Stencil
