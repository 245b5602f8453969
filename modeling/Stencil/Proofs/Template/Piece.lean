import Stencil.Template.Token.Scan
import Stencil.Proofs.Template.Reader
import Stencil.Proofs.Text.Breaks

/-!
# The Pieces of a Tag

What the inside of a tag consists of: tokens and blanks, with the characters
that spell them.

The scanner takes the longest word and all blanks at once, so what follows a
word does not continue it and what follows blanks is none. A name is spelled
by itself and a text by its quotes; a number starts with a digit and a symbol
with a character that no word has. That is all that is said of a piece here,
and `Spelled.Reads` says it together with the characters after the piece.

## Main definitions

* `Spelled`: A piece of a tag with its characters.
* `spelling`, `spoken`: The characters and the tokens of pieces.
* `Spelled.Reads`, `Reads`: Pieces are what their characters are read as.

## Theorems

* `piece_reads`: What the scanner finds inside of a tag reads as it should.
-/

namespace Stencil

namespace Template

open Text

/-- A piece of the inside of a tag: a token, or blanks. -/
structure Spelled where
  /-- The token, if it is not blanks. -/
  token : Option Token
  /-- Its characters. -/
  chars : List Char
  deriving DecidableEq, Repr

/-- The characters of pieces. -/
def spelling (ps : List Spelled) : List Char :=
  ps.flatMap (·.chars)

/-- The tokens of pieces. -/
def spoken (ps : List Spelled) : List Token :=
  ps.filterMap (·.token)

/-- The piece is what its characters are read as, with others after them. -/
def Spelled.Reads (p : Spelled) (after : List Char) : Prop :=
  match p.token with
  | none => p.chars ≠ [] ∧ (∀ c ∈ p.chars, isBlank c = true) ∧
      ∀ c ∈ after.head?, isBlank c = false
  | some (.name s) => p.chars = s.toList ∧ p.chars ≠ [] ∧ (∀ c ∈ p.chars, continuesWord c = true) ∧
      ∀ c ∈ after.head?, continuesWord c = false
  | some (.string _) => ∃ q body, (q = '"' ∨ q = '\'') ∧ p.chars = q :: body ++ [q] ∧
      ('\\' ∉ body → q ∉ body)
  | some t => t.isInner = true ∧ ∃ c cs, p.chars = c :: cs ∧ isBlank c = false ∧ c ≠ '"' ∧
      c ≠ '\'' ∧ (continuesWord c = true → isDecimal c = true)

/-- Pieces are what their characters are read as, with others after them. -/
def Reads : List Spelled → List Char → Prop
  | [], _ => True
  | p :: ps, after => p.Reads (spelling ps ++ after) ∧ Reads ps after

theorem spelling_cons (p : Spelled) (ps : List Spelled) :
    spelling (p :: ps) = p.chars ++ spelling ps :=
  List.flatMap_cons

theorem Spelled.Reads.isInner {p : Spelled} {after : List Char} (h : p.Reads after) {t : Token}
    (ht : p.token = some t) : t.isInner = true := by
  unfold Spelled.Reads at h
  rw [ht] at h
  cases t with
  | name s => rfl
  | string s => rfl
  | _ => exact h.1

theorem Spelled.Reads.ne_nil {p : Spelled} {after : List Char} (h : p.Reads after) :
    p.chars ≠ [] := by
  rcases p with ⟨t, w⟩
  cases t with
  | none => exact h.1
  | some t =>
    cases t with
    | name s => exact h.2.1
    | string s =>
      rcases h with ⟨q, body, -, hw, -⟩
      rw [hw]
      exact List.cons_ne_nil _ _
    | _ =>
      rcases h.2 with ⟨c, cs, hw, -⟩
      rw [hw]
      exact List.cons_ne_nil _ _

/-- Of what follows a piece only the first character counts. -/
theorem Spelled.Reads.of_head? {p : Spelled} {after after' : List Char} (h : p.Reads after)
    (same : after'.head? = after.head?) : p.Reads after' := by
  rcases p with ⟨t, w⟩
  cases t with
  | none => exact ⟨h.1, h.2.1, same ▸ h.2.2⟩
  | some t =>
    cases t with
    | name s => exact ⟨h.1, h.2.1, h.2.2.1, same ▸ h.2.2.2⟩
    | _ => exact h

theorem Reads.of_head? {ps : List Spelled} {after after' : List Char} (h : Reads ps after)
    (same : after'.head? = after.head?) : Reads ps after' := by
  induction ps with
  | nil => trivial
  | cons p ps ih =>
    refine ⟨h.1.of_head? ?_, ih h.2⟩
    rw [List.head?_append, List.head?_append, same]

theorem Reads.of_suffix {ps qs : List Spelled} {after : List Char} (h : Reads ps after)
    (hqs : qs <:+ ps) : Reads qs after := by
  rcases hqs with ⟨before, rfl⟩
  induction before with
  | nil => exact h
  | cons p before ih => exact ih h.2

/-- The tokens of a piece and of the pieces after it. -/
theorem spoken_cons (t : Option Token) (w : List Char) (ps : List Spelled) :
    spoken (⟨t, w⟩ :: ps) = t.toList ++ spoken ps := by
  cases t <;> rfl

/-- The longest beginning of characters of a kind, and the rest. -/
theorem exists_takeWhile (f : Char → Bool) (cs : List Char) :
    ∃ w after, cs.takeWhile f = w ∧ cs.dropWhile f = after ∧ cs = w ++ after ∧
      (∀ c ∈ w, f c = true) ∧ ∀ c ∈ after.head?, f c = false := by
  refine ⟨_, _, rfl, rfl, List.takeWhile_append_dropWhile.symm, fun c hc => ?_, fun c hc => ?_⟩
  · exact List.all_eq_true.mp List.all_takeWhile c hc
  · have head := List.head?_dropWhile_not f cs
    rw [Option.mem_def.mp hc] at head
    exact head

theorem digitRun_head {isDigit : Char → Bool} {cs : List Char}
    (present : (digitRun isDigit false cs).1 ≠ []) :
    0 < (digitRun isDigit false cs).2 ∧ ∃ c rest, cs = c :: rest ∧ isDigit c = true := by
  unfold digitRun at present ⊢
  split at present
  · exact absurd rfl present
  · exact absurd rfl present
  · next c rest _ =>
    by_cases hc : isDigit c = true
    · simp only [hc, if_true]
      exact ⟨Nat.succ_pos _, c, rest, rfl, hc⟩
    · rw [if_neg hc] at present
      exact absurd rfl present

theorem takeFloat?_head {cs : List Char} {x : Binary64} {n : Nat}
    (h : takeFloat? cs = some (x, n)) : 0 < n ∧ ∃ c rest, cs = c :: rest ∧ isDecimal c = true := by
  unfold takeFloat? at h
  cases whole : (digitRun isDecimal false cs).1.isEmpty with
  | true =>
    simp only [whole, if_true] at h
    exact absurd h (Option.some_ne_none _).symm
  | false =>
    simp only [whole, Bool.false_eq_true, if_false] at h
    have present : (digitRun isDecimal false cs).1 ≠ [] := by
      intro none
      rw [none] at whole
      exact Bool.noConfusion whole
    rcases digitRun_head present with ⟨pos, start⟩
    refine ⟨?_, start⟩
    split at h
    · split at h
      · injection h with h
        injection h with _ count
        omega
      · injection h with h
        injection h with _ count
        omega
    · rcases Option.map_eq_some_iff.mp h with ⟨e, -, h⟩
      injection h with _ count
      omega

theorem isDecimal_of_le {c : Char} (h₁ : '0' ≤ c) (h₂ : c ≤ '9') : isDecimal c = true := by
  have digit : c.isDigit = true := by
    rw [Char.isDigit, Bool.and_eq_true, decide_eq_true_eq, decide_eq_true_eq]
    exact ⟨h₁, h₂⟩
  have small : c.toNat < 128 := by
    have top : c.toNat ≤ '9'.toNat := h₂
    exact Nat.lt_of_le_of_lt top (by decide)
  rw [isDecimal, decimalValue?_of_isDigit digit small]
  rfl

theorem takeInteger?_head {cs : List Char} {k n : Nat} (h : takeInteger? cs = some (k, n)) :
    0 < n ∧ ∃ c rest, cs = c :: rest ∧ isDecimal c = true := by
  -- Whatever the base, the prefix is counted with the digits.
  have based {base : Nat} {isDigit : Char → Bool} {rest : List Char}
      (h : takeBased? base isDigit rest = some (k, n)) : 0 < n := by
    unfold takeBased? at h
    cases none : (digitRun isDigit true rest).1.isEmpty with
    | true =>
      simp only [none, if_true] at h
      exact absurd h (Option.some_ne_none _).symm
    | false =>
      simp only [none, Bool.false_eq_true, if_false] at h
      injection h with h
      injection h with _ count
      omega
  have zero : isDecimal '0' = true := by decide
  unfold takeInteger? at h
  dsimp only at h
  split at h
  · next found hb =>
    split at hb
    · next b rest =>
      refine ⟨?_, '0', _, rfl, zero⟩
      rw [Option.some.inj h] at hb
      repeat' split at hb
      · exact based hb
      · exact based hb
      · exact based hb
      · exact absurd hb (Option.some_ne_none _).symm
    · exact absurd hb (Option.some_ne_none _).symm
  · split at h
    · next rest _ =>
      injection h with h
      injection h with _ count
      exact ⟨by omega, '0', rest, rfl, zero⟩
    · next c rest _ _ =>
      split at h
      · next bounds =>
        injection h with h
        injection h with _ count
        rw [Bool.and_eq_true, decide_eq_true_eq, decide_eq_true_eq] at bounds
        -- A digit that is no zero starts the number.
        have low : '0' ≤ c := Nat.le_trans (by decide) bounds.1
        exact ⟨by omega, c, rest, rfl, isDecimal_of_le low bounds.2⟩
      · exact absurd h (Option.some_ne_none _).symm
    · exact absurd h (Option.some_ne_none _).symm

theorem startsBlank_of_blankCount {cs : List Char} (h : blankCount cs = 0) {c : Char}
    {rest : List Char} (hcs : cs = c :: rest) : isBlank c = false := by
  cases hc : isBlank c with
  | false => rfl
  | true =>
    rw [blankCount, hcs, List.takeWhile_cons_of_pos hc, List.length_cons] at h
    exact absurd h (Nat.succ_ne_zero _)

/-- A quoted text ends with its quote. Without a backslash it ends with the
first one. -/
theorem quotedLength?_spec {quote : Char} {cs : List Char} {n : Nat}
    (h : quotedLength? quote cs = some n) :
    ∃ body after, cs = body ++ quote :: after ∧ n = body.length + 1 ∧
      ('\\' ∉ body → quote ∉ body) := by
  fun_induction quotedLength? quote cs generalizing n with
  | case1 => exact absurd h (Option.some_ne_none _).symm
  | case2 c cs ih =>
    rcases Option.map_eq_some_iff.mp h with ⟨m, hm, rfl⟩
    rcases ih hm with ⟨body, after, rfl, rfl, -⟩
    -- The character behind a backslash is passed unseen, so it may be the quote.
    exact ⟨'\\' :: c :: body, after, rfl, rfl, fun plain => absurd List.mem_cons_self plain⟩
  | case3 c cs _ hc =>
    rw [eq_of_beq hc]
    exact ⟨[], cs, rfl, (Option.some.inj h).symm, fun _ => List.not_mem_nil⟩
  | case4 c cs _ hc ih =>
    rcases Option.map_eq_some_iff.mp h with ⟨m, hm, rfl⟩
    rcases ih hm with ⟨body, after, rfl, rfl, first⟩
    refine ⟨c :: body, after, rfl, rfl, fun plain found => ?_⟩
    rw [List.mem_cons, not_or] at plain
    rcases List.mem_cons.mp found with rfl | found
    · exact hc (beq_self_eq_true _)
    · exact first plain.2 found

theorem unescape_plain {cs : List Char} (h : '\\' ∉ cs) : unescape 0 cs = .ok cs := by
  induction cs with
  | nil => rfl
  | cons c cs ih =>
      rw [List.mem_cons, not_or] at h
      rw [unescape, ih h.2]
      · rfl
      · exact fun _ _ heq => absurd heq.symm h.1

theorem symbol?_spec {cs : List Char} {s : Symbol} (h : symbol? cs = some s) :
    0 < s.text.length ∧ ∃ c rest, cs = c :: rest ∧ c ≠ '"' ∧ c ≠ '\'' := by
  unfold symbol? at h
  split at h
  all_goals first
    | exact absurd h (Option.some_ne_none _).symm
    | cases h
      exact ⟨by decide, _, _, rfl, by decide, by decide⟩

theorem stringPiece?_spec {line : Nat} {opened : List Symbol} {cs : List Char} {p : Piece}
    (h : stringPiece? line opened cs = some (.ok p)) :
    ∃ q body after s, (q = '"' ∨ q = '\'') ∧ cs = (q :: body ++ [q]) ++ after ∧
      p = ⟨some (.string s), body.length + 2, opened⟩ ∧
      ('\\' ∉ body → q ∉ body ∧ s = String.ofList body) := by
  unfold stringPiece? at h
  split at h
  · next q rest =>
    split at h
    · next quote =>
      rcases Option.map_eq_some_iff.mp h with ⟨n, hn, h⟩
      rcases quotedLength?_spec hn with ⟨body, after, rfl, rfl, first⟩
      rw [Nat.add_sub_cancel, List.take_left] at h
      split at h
      · next s hs =>
        cases h
        rw [Bool.or_eq_true, beq_iff_eq, beq_iff_eq] at quote
        refine ⟨q, body, after, String.ofList s, quote.symm, ?_, rfl,
          fun plain => ⟨first plain, ?_⟩⟩
        · rw [List.cons_append, List.cons_append, List.append_assoc, List.singleton_append]
        · rw [unescape_plain plain] at hs
          injection hs with same
          rw [same]
      · exact absurd h (by simp only [reduceCtorEq, not_false_eq_true])
    · exact absurd h (Option.some_ne_none _).symm
  · exact absurd h (Option.some_ne_none _).symm

/-- What the scanner can find inside of a tag. -/
inductive PieceAt (c : Cursor) (opened : List Symbol) : Piece → Prop where
  /-- Blanks. -/
  | blanks : 0 < blankCount c.rest → PieceAt c opened ⟨none, blankCount c.rest, opened⟩
  /-- A number with a fraction or an exponent. -/
  | float {x : Binary64} {n : Nat} : blankCount c.rest = 0 → takeFloat? c.rest = some (x, n) →
      PieceAt c opened ⟨some (.float x), n, opened⟩
  /-- A whole number. -/
  | integer {k n : Nat} : blankCount c.rest = 0 → takeInteger? c.rest = some (k, n) →
      PieceAt c opened ⟨some (.integer k), n, opened⟩
  /-- A name. -/
  | name : c.rest.takeWhile continuesWord ≠ [] →
      PieceAt c opened ⟨some (.name (String.ofList (c.rest.takeWhile continuesWord))),
        (c.rest.takeWhile continuesWord).length, opened⟩
  /-- A text. -/
  | string {p : Piece} : stringPiece? c.line opened c.rest = some (.ok p) → PieceAt c opened p
  /-- A symbol. -/
  | symbol {s : Symbol} {opened' : List Symbol} : blankCount c.rest = 0 →
      c.rest.takeWhile continuesWord = [] → symbol? c.rest = some s →
      bracketsAfter c.line opened s = .ok opened' →
      PieceAt c opened ⟨some (.symbol s), s.text.length, opened'⟩

theorem pieceAt_of_piece {c : Cursor} {opened : List Symbol} {p : Piece}
    (h : piece c opened = .ok p) : PieceAt c opened p := by
  unfold piece at h
  dsimp only at h
  by_cases blanks : blankCount c.rest > 0
  · rw [if_pos blanks] at h
    cases h
    exact .blanks blanks
  rw [if_neg blanks] at h
  have none_blank : blankCount c.rest = 0 := Nat.eq_zero_of_not_pos blanks
  -- The scanner tries numbers, words, quotes and symbols in this order.
  split at h
  · next x n hx =>
    cases h
    split at hx
    · exact absurd hx (Option.some_ne_none _).symm
    · exact .float none_blank hx
  split at h
  · next k n hk =>
    cases h
    exact .integer none_blank hk
  cases present : (c.rest.takeWhile continuesWord).isEmpty with
  | false =>
    rw [present] at h
    split at h
    · split at h
      · cases h
        refine .name fun none => ?_
        rw [none] at present
        exact Bool.noConfusion present
      · exact absurd h (by simp only [reduceCtorEq, not_false_eq_true])
    · next other => exact absurd rfl other
  | true =>
    rw [present] at h
    split at h
    · next other => exact absurd other (by decide)
    · split at h
      · next found hs =>
        rw [h] at hs
        exact .string hs
      · split at h
        · next s hs =>
          cases hb : bracketsAfter c.line opened s with
          | error m =>
            rw [hb] at h
            exact absurd h (by simp only [Except.map, reduceCtorEq, not_false_eq_true])
          | ok opened' =>
            rw [hb] at h
            cases h
            exact .symbol none_blank (List.isEmpty_iff.mp present) hs hb
        · exact absurd h (by simp only [reduceCtorEq, not_false_eq_true])

/-- What the scanner finds inside of a tag takes a character at least, and is
what its characters are read as. -/
theorem piece_reads {c : Cursor} {opened : List Symbol} {p : Piece}
    (h : piece c opened = .ok p) :
    c.rest.take p.count ≠ [] ∧
      Spelled.Reads ⟨p.token, c.rest.take p.count⟩ (c.rest.drop p.count) := by
  have take_cons {n : Nat} (pos : 0 < n) {c' : Char} {rest : List Char}
      (hcs : c.rest = c' :: rest) :
      c.rest.take n = c' :: rest.take (n - 1) := by
    cases n with
    | zero => exact absurd pos (Nat.lt_irrefl 0)
    | succ n => rw [hcs, List.take_succ_cons, Nat.add_sub_cancel]
  -- Both kinds of numbers start with a digit, which is no blank and no quote.
  have numeral {n : Nat} (none_blank : blankCount c.rest = 0)
      (start : 0 < n ∧ ∃ c' rest, c.rest = c' :: rest ∧ isDecimal c' = true) :
      ∃ c' cs, c.rest.take n = c' :: cs ∧ isBlank c' = false ∧ c' ≠ '"' ∧ c' ≠ '\'' ∧
        (continuesWord c' = true → isDecimal c' = true) := by
    rcases start with ⟨pos, c', rest, hcs, digit⟩
    refine ⟨c', _, take_cons pos hcs, startsBlank_of_blankCount none_blank hcs, ?_, ?_,
      fun _ => digit⟩
    · rintro rfl
      exact absurd digit (by decide)
    · rintro rfl
      exact absurd digit (by decide)
  cases pieceAt_of_piece h with
  | blanks pos =>
    rcases exists_takeWhile isBlank c.rest with ⟨w, after, hw, -, all, inner, outer⟩
    rw [blankCount, hw] at pos
    have present : w ≠ [] := List.ne_nil_of_length_pos pos
    dsimp only
    rw [blankCount, hw, all, List.take_left, List.drop_left]
    exact ⟨present, present, inner, outer⟩
  | float none_blank hx =>
    rcases numeral none_blank (takeFloat?_head hx) with ⟨c', cs, hw, rest⟩
    exact ⟨by rw [hw]; exact List.cons_ne_nil _ _, rfl, c', cs, hw, rest⟩
  | integer none_blank hk =>
    rcases numeral none_blank (takeInteger?_head hk) with ⟨c', cs, hw, rest⟩
    exact ⟨by rw [hw]; exact List.cons_ne_nil _ _, rfl, c', cs, hw, rest⟩
  | name present =>
    rcases exists_takeWhile continuesWord c.rest with ⟨w, after, hw, -, all, inner, outer⟩
    rw [hw] at present ⊢
    dsimp only
    rw [all, List.take_left, List.drop_left]
    exact ⟨present, (String.toList_ofList).symm, present, inner, outer⟩
  | string hs =>
    rcases stringPiece?_spec hs with ⟨q, body, after, s, quote, hcs, rfl, plain⟩
    have count : body.length + 2 = (q :: body ++ [q]).length := by
      rw [List.length_append, List.length_cons]
      rfl
    dsimp only
    rw [hcs, count, List.take_left, List.drop_left]
    exact ⟨List.cons_ne_nil _ _, q, body, quote, rfl, fun h => (plain h).1⟩
  | symbol none_blank none_word hs hb =>
    rcases symbol?_spec hs with ⟨pos, c', rest, hcs, quote₁, quote₂⟩
    -- A symbol is looked for only where no word starts.
    have word : continuesWord c' = false := by
      cases hc : continuesWord c' with
      | false => rfl
      | true =>
        rw [hcs, List.takeWhile_cons_of_pos hc] at none_word
        exact absurd none_word (List.cons_ne_nil _ _)
    have hw := take_cons pos hcs
    refine ⟨by rw [hw]; exact List.cons_ne_nil _ _, rfl, c', _, hw,
      startsBlank_of_blankCount none_blank hcs, quote₁, quote₂, fun yes => ?_⟩
    rw [word] at yes
    exact Bool.noConfusion yes

/-- A text without a backslash stands for what is between its quotes, with its
line breaks unified. -/
def Spelled.IsPlain (p : Spelled) : Prop :=
  ∀ s, p.token = some (.string s) →
    ∃ q body, p.chars = q :: body ++ [q] ∧ ('\\' ∉ body → s = String.ofList (unifyBreaks body))

theorem piece_isPlain {c : Cursor} {opened : List Symbol} {p : Piece}
    (h : piece c opened = .ok p) (unified : '\r' ∉ c.rest) :
    Spelled.IsPlain ⟨p.token, c.rest.take p.count⟩ := by
  intro s hs
  cases pieceAt_of_piece h with
  | string hp =>
    rcases stringPiece?_spec hp with ⟨q, body, after, t, -, hcs, rfl, plain⟩
    cases hs
    have count : body.length + 2 = (q :: body ++ [q]).length := by
      rw [List.length_append, List.length_cons]
      rfl
    refine ⟨q, body, ?_, fun h => ?_⟩
    · dsimp only
      rw [hcs, count, List.take_left]
    -- Unifying the line breaks of the body changes nothing: they are unified already.
    · have inside : '\r' ∉ body := by
        intro found
        rw [hcs] at unified
        exact unified (List.mem_append_left _
          (List.mem_append_left _ (List.mem_cons_of_mem _ found)))
      rw [unifyBreaks_of_notMem inside]
      exact (plain h).2
  | _ => exact absurd hs (by simp only [reduceCtorEq, not_false_eq_true, Option.some.injEq])

end Template

end Stencil
