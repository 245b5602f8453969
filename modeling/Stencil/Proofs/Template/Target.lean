import Stencil.Proofs.Template.Account
import Stencil.Proofs.Template.Expr

/-!
# Tags That Refer to Templates

A tag that refers to a template accounts for itself.

The target is an expression, and after it the tag has to close. So what stands
after the target is exactly what may follow one, and the tag makes a reference
just if its target is one text: nothing that may follow a target continues an
expression, and whatever continues the text makes something else of it.

## Main definitions

* `AccountsTag`: A parser accounts for the tag that it starts in as well.

## Theorems

* `tagReference_of_expr`: The reference of a tag is that of its target.
* `accountsTag_embedStmt`, `accountsTag_inheritStmt`,
  `accountsTag_importStmt`, `accountsTag_importNamesStmt`: The four tags.
* `AccountsAt.tag`: A tag that refers to nothing.
-/

namespace Stencil

namespace Template

/-- From the word of a statement tag on, up to the token that closes a tag, the
parser accounts for the tag that it starts in and for those that it passes. -/
def AccountsTag (cut : List Token) (word : String) (p : Parse (List Stmt)) : Prop :=
  ∀ ⦃r ss r'⦄, r.token = .name word → Inside .block cut r.tokens → p r = .ok (ss, r') →
    r'.token = .closeBlock → Inside .block cut r'.tokens ∧ IsLegal (tagTokens r.tokens) ∧
      ∃ found, Covers r found r' ∧ (isSingle (tagTokens r.tokens) = true →
        references ss = tagReference (tagTokens r.tokens) ++ found)

theorem tagTokens_close (ts : List Token) : tagTokens (.closeBlock :: ts) = [] :=
  rfl

theorem tagTokens_inner {t : Token} (h : t.isInner = true) (ts : List Token) :
    tagTokens (t :: ts) = t :: tagTokens ts :=
  tagTokens_append (fun _ hu => List.mem_singleton.mp hu ▸ h) ts

theorem tagOf?_keyword (tag : Tag) : tagOf? tag.keyword = some tag := by
  cases tag <;> rfl

theorem fitsContext_cases {t : Token} {ts : List Token} (h : fitsContext (t :: ts) = true) :
    (t = .name "with" ∨ t = .name "without") ∧ ts = [.name "context"] := by
  unfold fitsContext at h
  split at h
  · next same => exact absurd same (List.cons_ne_nil _ _)
  · next a b same =>
    injection same with first rest
    rw [Bool.and_eq_true, Bool.or_eq_true, beq_iff_eq, beq_iff_eq, beq_iff_eq] at h
    rw [first, rest, h.2, Token.name.injEq, Token.name.injEq]
    exact ⟨h.1, rfl⟩
  · exact Bool.noConfusion h

theorem fits_of_fitsContext {ts : List Token} (h : fitsContext ts = true) :
    fits .includes ts = true := by
  cases ts with
  | nil => rfl
  | cons t ts =>
    rcases fitsContext_cases h with ⟨rfl | rfl, rfl⟩ <;> rfl

theorem endsText_of_fits {tag : Tag} {t : Token} {ts : List Token}
    (h : fits tag (t :: ts) = true) : t.endsText = true := by
  unfold fits at h
  split at h
  · next same => injection same with first _; rw [first]; decide
  · next same =>
    rcases fitsContext_cases h with ⟨rfl | rfl, -⟩ <;> decide
  · exact Bool.noConfusion h
  · next same => injection same with first _; rw [first]; decide
  · next same => injection same with first _; rw [first]; decide
  · exact Bool.noConfusion h

theorem tagTokens_cons {t : Token} (h : t ≠ .closeBlock) (ts : List Token) :
    tagTokens (t :: ts) = t :: tagTokens ts :=
  List.takeWhile_cons_of_pos (bne_iff_ne.mpr h)

/-- The first token before the end of the tag, as far as the end is nothing. -/
theorem head_tagTokens {f : Token → Bool} (hf : f .closeBlock = f .eof) (ts : List Token) :
    f ((tagTokens ts).head?.getD .eof) = f (ts.head?.getD .eof) := by
  cases ts with
  | nil => rfl
  | cons t ts =>
    by_cases ht : t = .closeBlock
    · rw [ht]
      exact hf.symm
    · rw [tagTokens_cons ht]
      rfl

theorem exists_of_tagTokens {ts us : List Token} {t : Token} (h : tagTokens ts = t :: us) :
    ∃ vs, ts = t :: vs ∧ us = tagTokens vs := by
  cases ts with
  | nil => exact absurd h.symm (List.cons_ne_nil _ _)
  | cons u vs =>
    by_cases hu : u = .closeBlock
    · rw [hu, tagTokens_close] at h
      exact absurd h.symm (List.cons_ne_nil _ _)
    · rw [tagTokens_cons hu] at h
      injection h with first rest
      exact ⟨vs, by rw [first], rest.symm⟩

theorem Expr.reference_of_not_text {e : Expr} (h : e.isText = false) (tag : Tag) :
    e.reference tag = [] := by
  cases e with
  | const c =>
    cases c with
    | text s => exact Bool.noConfusion h
    | _ => rfl
  | _ => rfl

theorem tagReference_keyword (tag : Tag) (s : String) (ts : List Token) :
    tagReference (.name tag.keyword :: .string s :: ts) =
      if fits tag ts then [(tag, s)] else [] := by
  simp only [tagReference, tagOf?_keyword]

theorem tagReference_of_not_string {word : String} {t : Token} {ts : List Token}
    (h : t.isString = false) : tagReference (.name word :: t :: ts) = [] := by
  cases t with
  | string s => exact Bool.noConfusion h
  | _ => rfl

/-- Where a word asks for a name, what fits has one. -/
theorem isName_of_fits {tag : Tag} {word : String} {ts : List Token}
    (words : (tag.keyword = "import" ∧ word = "as") ∨ (tag.keyword = "from" ∧ word = "import"))
    (h : fits tag (.name word :: ts) = true) : (ts.head?.getD .eof).isName = true := by
  -- Only two of the tags have a word of their own that is followed by a name.
  cases tag with
  | includes =>
    rcases words with ⟨other, -⟩ | ⟨other, -⟩
    · exact absurd other (by decide)
    · exact absurd other (by decide)
  | inherits => exact Bool.noConfusion h
  | imports =>
    rcases words with ⟨-, rfl⟩ | ⟨other, -⟩
    · cases ts with
      | nil => exact Bool.noConfusion h
      | cons t ts =>
        cases t with
        | name s => rfl
        | _ => exact Bool.noConfusion h
    · exact absurd other (by decide)
  | importsFrom =>
    rcases words with ⟨other, -⟩ | ⟨-, rfl⟩
    · exact absurd other (by decide)
    · cases ts with
      | nil => exact Bool.noConfusion h
      | cons t ts =>
        cases t with
        | name s => rfl
        | _ => exact Bool.noConfusion h

/-- The reference of a tag whose target is read is that of its target, if what
follows the target is what may follow one. -/
theorem tagReference_of_expr {tag : Tag} {r r' : Reader} {e : Expr} (h : expr r = .ok (e, r'))
    (after : fits tag (tagTokens r'.tokens) = true) (closes : .closeBlock ∈ r'.tokens)
    (single : isSingle (.name tag.keyword :: tagTokens r.tokens) = true) :
    tagReference (.name tag.keyword :: tagTokens r.tokens) = e.reference tag := by
  have suffix : r'.tokens <:+ r.tokens := by
    rcases (passes_expr h).passed with ⟨ts, tokens, -⟩
    exact ⟨ts, tokens.symm⟩
  cases hr : r.tokens with
  | nil =>
    rw [hr] at suffix
    rw [List.suffix_nil.mp suffix] at closes
    exact absurd closes List.not_mem_nil
  | cons t ts =>
    rw [hr] at single
    by_cases hclose : t = .closeBlock
    · -- A tag without a target would not have been read.
      rw [hclose] at hr ⊢
      cases text : e.isText with
      | false =>
        rw [Expr.reference_of_not_text text]
        rfl
      | true =>
        rcases readsText_expr.first h text with first | first <;>
          rw [Reader.token_of_tokens hr] at first
        · exact Bool.noConfusion first
        · exact Token.noConfusion first
    rw [tagTokens_cons hclose] at single ⊢
    simp only [isSingle, tagOf?_keyword, Option.isNone_some, Bool.false_or, Bool.and_eq_true,
      bne_iff_ne, ne_eq, Bool.not_eq_true',
      head_tagTokens (f := Token.isString) rfl] at single
    -- A target that is one text starts with it, and nothing joins in behind it.
    cases ht : t.isString with
    | false =>
      rw [tagReference_of_not_string ht]
      cases text : e.isText with
      | false => rw [Expr.reference_of_not_text text]
      | true =>
        rcases readsText_expr.first h text with first | first <;>
          rw [Reader.token_of_tokens hr] at first
        · rw [ht] at first
          exact Bool.noConfusion first
        · exact absurd first single.1
    | true =>
      cases t with
      | string s =>
        rw [tagReference_keyword]
        have next : (ts.head?.getD .eof).isString = false := by
          have := single.2
          rwa [ht, Bool.true_and] at this
        rcases readsText_expr.single h hr next with ⟨rfl, rest⟩ | ⟨other, open_⟩
        · rw [← rest, if_pos after]
          rfl
        · -- The target goes on, so what follows the text does not fit.
          rw [Expr.reference_of_not_text other]
          refine if_neg fun fitting => ?_
          cases ts with
          | nil =>
            rw [hr] at suffix
            exact absurd (List.mem_singleton.mp (suffix.mem closes)) Token.noConfusion
          | cons u us =>
            have ends : u.endsText = true := by
              by_cases hu : u = .closeBlock
              · rw [hu]
                rfl
              · rw [tagTokens_cons hu] at fitting
                exact endsText_of_fits fitting
            rw [show ((u :: us).head?.getD Token.eof) = u from rfl, ends] at open_
            exact Bool.noConfusion open_
      | _ => exact Bool.noConfusion ht

theorem passes_contextWords? : Passes contextWords? := by
  have rest (t : Token) (ht : t.isInner = true) : PassesAt t (do
      if (← look) == .name "context" then
        let _ ← advance
        let _ ← advance
        return some (t == .name "with")
      else return none) := by
    refine PassesAt.look_bind (PassesAtBoth.advance_bind ht fun _ => ?_) ((passes_pure _).at_ _)
    exact PassesAt.advance_bind rfl fun _ => passes_pure _
  refine passes_current fun l => ?_
  by_cases h : (l.token == .name "with" || l.token == .name "without") = true
  · simp only [h, if_true]
    refine rest l.token ?_
    rcases Bool.or_eq_true_iff.mp h with h | h <;> rw [eq_of_beq h] <;> rfl
  · simp only [h]
    exact (passes_pure _).at_ _

theorem tagTokens_of_close {r : Reader} (h : r.token = .closeBlock) : tagTokens r.tokens = [] := by
  rw [Reader.tokens_of_token h (by decide)]
  rfl

theorem tokens_of_look {t u : Token} {a b : Lexeme} {r r₁ r₂ : Reader} (first : r.token = t)
    (second : r.tokens.tail.head?.getD .eof = u) (ht : t ≠ .eof) (hu : u ≠ .eof)
    (h₁ : advance r = .ok (a, r₁)) (h₂ : advance r₁ = .ok (b, r₂)) :
    r.tokens = t :: u :: r₂.tokens := by
  have next : r₁.token = u := by
    rw [Reader.token, (advance_eq_ok h₁).2.1, second]
  rw [tokens_of_advance h₁ first ht, tokens_of_advance h₂ next hu]

/-- Where the tag closes after the words about the context, nothing else stands
before its end. -/
theorem fitsContext_of_contextWords? {r r' : Reader} {found : Option Bool}
    (h : contextWords? r = .ok (found, r')) (closes : r'.token = .closeBlock) :
    fitsContext (tagTokens r.tokens) = true := by
  rcases bind_eq_ok.mp h with ⟨l, r₁, h₁, h₂⟩
  rcases current_eq_ok h₁ with ⟨token, rfl⟩
  -- Without both words nothing is read, and the tag has to close here.
  have stays (ok : (pure none : Parse (Option Bool)) r₁ = .ok (found, r')) :
      fitsContext (tagTokens r₁.tokens) = true := by
    rw [(pure_eq_ok.mp ok).2, tagTokens_of_close closes]
    rfl
  by_cases word : (l.token == .name "with" || l.token == .name "without") = true
  · simp only [word, if_true] at h₂
    rcases bind_eq_ok.mp h₂ with ⟨t, r₂, h₃, h₄⟩
    have second := (look_eq_ok h₃).1
    rw [(look_eq_ok h₃).2] at h₄
    by_cases ht : (t == .name "context") = true
    · rw [if_pos ht] at h₄
      rcases bind_eq_ok.mp h₄ with ⟨_, r₃, h₅, h₆⟩
      rcases bind_eq_ok.mp h₆ with ⟨_, r₄, h₇, h₈⟩
      rcases pure_eq_ok.mp h₈ with ⟨-, rfl⟩
      have here : r₁.token = .name "with" ∨ r₁.token = .name "without" := by
        rw [← token]
        exact (Bool.or_eq_true_iff.mp word).imp eq_of_beq eq_of_beq
      have next := second.symm.trans (eq_of_beq ht)
      rcases here with here | here <;>
        rw [tokens_of_look here next (by decide) (by decide) h₅ h₇, tagTokens_inner rfl,
          tagTokens_inner rfl, tagTokens_of_close closes] <;> rfl
    · rw [if_neg ht] at h₄
      exact stays h₄
  · simp only [word] at h₂
    exact stays h₂

/-- A tag is one that can be parsed if its word is, and if a name follows its
target where one is asked for. -/
theorem isLegal_of_tokens {word : String} (hraw : word ≠ "raw") {ts : List Token}
    (named : ∀ s v us, ts = .string s :: .name v :: us →
      (word = "import" ∧ v = "as") ∨ (word = "from" ∧ v = "import") →
        (us.head?.getD .eof).isName = true) :
    IsLegal (tagTokens (.name word :: ts)) := by
  rw [tagTokens_inner rfl]
  refine ⟨⟨word, _, rfl, hraw⟩, fun w s v us same words => ?_⟩
  injection same with first rest
  injection first with first
  rcases exists_of_tagTokens rest with ⟨ts', hts, rest⟩
  rcases exists_of_tagTokens rest.symm with ⟨us', hts', rest⟩
  rw [hts'] at hts
  rw [rest, head_tagTokens (f := Token.isName) rfl]
  exact named s v us' hts (first ▸ words)

theorem IsEnd.isLegal {word : String} (h : IsEnd word) (ts : List Token) :
    IsLegal (tagTokens (.name word :: ts)) := by
  refine isLegal_of_tokens h.2 fun s v us _ words => ?_
  rcases words with ⟨rfl, -⟩ | ⟨rfl, -⟩
  · exact absurd h.1 (by decide)
  · exact absurd h.1 (by decide)

theorem IsEnd.tagReference {word : String} (h : IsEnd word) (ts : List Token) :
    tagReference (tagTokens (.name word :: ts)) = [] := by
  rw [tagTokens_inner rfl]
  cases tagTokens ts with
  | nil => rfl
  | cons t ts =>
    cases t with
    | string s => rw [Template.tagReference, h.1]
    | _ => rfl

section Tags

variable {cut : List Token}

/-- A tag with another word makes no reference. -/
theorem AccountsAt.tag {word : String} {p : Parse (List Stmt)} (hword : IsEnd word)
    (hp : AccountsAt (.name word) cut references [] p) : AccountsTag cut word p := by
  intro r ss r' token hr h closes
  rcases hp token hr h with ⟨inside, found, covers, total⟩
  rw [Reader.tokens_of_token token Token.noConfusion, hword.tagReference]
  exact ⟨inside, hword.isLegal _, found, covers, fun _ => total⟩

/-- A tag whose statement refers to its target, and that passes nothing but
what may follow a target. -/
theorem accountsTag_of_expr (tag : Tag) {f : Lexeme → Expr → Parse Stmt}
    (passes : ∀ l e, Passes (f l e))
    (made : ∀ l e r s r', f l e r = .ok (s, r') → r'.token = .closeBlock →
      s.references = e.reference tag ∧ fits tag (tagTokens r.tokens) = true) :
    AccountsTag cut tag.keyword (do
      return [← (do
        let l ← advance
        let e ← expr
        f l e)]) := by
  intro r ss r' token hr h closes
  rcases bind_eq_ok.mp h with ⟨s, r₃, h₀, h₆⟩
  rcases pure_eq_ok.mp h₆ with ⟨rfl, rfl⟩
  rcases bind_eq_ok.mp h₀ with ⟨l, r₁, h₁, h₂⟩
  rcases bind_eq_ok.mp h₂ with ⟨e, r₂, h₃, h₅⟩
  have first := passesAt_advance (t := .name tag.keyword) rfl token h₁
  have steps := (first.trans (passes_expr h₃)).trans (passes l e h₅)
  have tokens := tokens_of_advance h₁ token Token.noConfusion
  rcases made l e r₂ s r₃ h₅ closes with ⟨refs, fitting⟩
  have present : .closeBlock ∈ r₂.tokens := by
    rcases (passes l e h₅).passed with ⟨ts, same, -⟩
    rw [same, Reader.tokens_of_token closes (by decide)]
    exact List.mem_append_right _ List.mem_cons_self
  refine ⟨steps.inside hr, ?_, [], steps.covers, fun single => ?_⟩
  · rw [tokens]
    refine isLegal_of_tokens (by cases tag <;> decide) fun u v us same words => ?_
    -- The word after the target ends it, so the target is one text.
    have ends : (Token.name v).endsText = true := by
      rcases words with ⟨-, rfl⟩ | ⟨-, rfl⟩ <;> decide
    rcases readsText_expr.single h₃ same rfl with ⟨-, rest⟩ | ⟨-, open_⟩
    · rw [rest, tagTokens_inner rfl] at fitting
      rw [← head_tagTokens (f := Token.isName) rfl]
      exact isName_of_fits words fitting
    · exact absurd (ends.symm.trans open_) (by decide)
  · rw [tokens, tagTokens_inner rfl] at single ⊢
    rw [references_singleton, refs, tagReference_of_expr h₃ fitting present single,
      List.append_nil]

/-- The words about the context end a tag that fits. -/
theorem fits_of_contextWords? {β : Type} {g : Option Bool → β} {r r' : Reader} {b : β}
    (h : (do return g (← contextWords?)) r = .ok (b, r')) (closes : r'.token = .closeBlock) :
    (∃ o, b = g o) ∧ fitsContext (tagTokens r.tokens) = true := by
  rcases bind_eq_ok.mp h with ⟨o, r₁, h₁, h₂⟩
  rcases pure_eq_ok.mp h₂ with ⟨rfl, rfl⟩
  exact ⟨⟨o, rfl⟩, fitsContext_of_contextWords? h₁ closes⟩

theorem accountsTag_embedStmt : AccountsTag cut "include" (do return [← embedStmt]) := by
  have last (e : Expr) (ignored : Bool) : Passes (do
      return Stmt.embed e ((← contextWords?).getD true) ignored) :=
    Passes.bind passes_contextWords? fun _ => passes_pure _
  have made (e : Expr) (ignored : Bool) {r : Reader} {s : Stmt} {r' : Reader} (h : (do
      return Stmt.embed e ((← contextWords?).getD true) ignored) r = .ok (s, r'))
      (closes : r'.token = .closeBlock) :
      s.references = e.reference .includes ∧ fitsContext (tagTokens r.tokens) = true := by
    rcases fits_of_contextWords? h closes with ⟨⟨o, rfl⟩, fitting⟩
    exact ⟨Stmt.references_embed _ _ _, fitting⟩
  refine accountsTag_of_expr .includes (fun l e => ?_) fun l e r s r' h closes => ?_
  · refine passes_currentIs_bind ?_ (last e false)
    refine PassesAt.look_bind (PassesAtBoth.advance_bind rfl fun _ => ?_) ((last e false).at_ _)
    exact PassesAt.advance_bind rfl fun _ => last e true
  · rcases bind_eq_ok.mp h with ⟨found, r₁, h₁, h₂⟩
    rcases bind_eq_ok.mp h₁ with ⟨w, r₂, h₃, h₄⟩
    have token := (current_eq_ok h₃).1
    rw [(current_eq_ok h₃).2] at h₄
    rcases pure_eq_ok.mp h₄ with ⟨rfl, same⟩
    rw [← same] at h₂
    have unchanged (h : (do
        return Stmt.embed e ((← contextWords?).getD true) false) r = .ok (s, r')) :
        s.references = e.reference .includes ∧ fits .includes (tagTokens r.tokens) = true := by
      rcases made e false h closes with ⟨refs, fitting⟩
      exact ⟨refs, fits_of_fitsContext fitting⟩
    by_cases hw : (w.token == .name "ignore") = true
    · rw [hw, if_pos rfl] at h₂
      rcases bind_eq_ok.mp h₂ with ⟨t, r₃, h₅, h₆⟩
      have second := (look_eq_ok h₅).1
      rw [(look_eq_ok h₅).2] at h₆
      by_cases ht : (t == .name "missing") = true
      · rw [if_pos ht] at h₆
        rcases bind_eq_ok.mp h₆ with ⟨_, r₄, h₇, h₈⟩
        rcases bind_eq_ok.mp h₈ with ⟨_, r₅, h₉, h₁₀⟩
        rcases made e true h₁₀ closes with ⟨refs, fitting⟩
        refine ⟨refs, ?_⟩
        rw [tokens_of_look (token.symm.trans (eq_of_beq hw)) (second.symm.trans (eq_of_beq ht))
          (by decide) (by decide) h₇ h₉, tagTokens_inner rfl, tagTokens_inner rfl]
        exact fitting
      · rw [if_neg ht] at h₆
        exact unchanged h₆
    · rw [Bool.not_eq_true] at hw
      rw [hw] at h₂
      exact unchanged h₂

theorem accountsTag_inheritStmt : AccountsTag cut "extends" (do return [← inheritStmt]) := by
  refine accountsTag_of_expr .inherits (f := fun l e => pure (.inherit e l.line))
    (fun l e => passes_pure _) fun l e r s r' h closes => ?_
  rcases pure_eq_ok.mp h with ⟨rfl, rfl⟩
  rw [tagTokens_of_close closes]
  exact ⟨Stmt.references_inherit _ _, rfl⟩

theorem nameTarget_eq_ok {r r' : Reader} {found : String × Nat}
    (h : nameTarget r = .ok (found, r')) : ∃ s, r.tokens = .name s :: r'.tokens := by
  rcases bind_eq_ok.mp h with ⟨name, r₁, h₁, h₂⟩
  rcases bind_eq_ok.mp h₁ with ⟨l, r₂, h₃, h₄⟩
  rcases expectThat_eq_ok h₃ with ⟨named, passed⟩
  have kept : r₂ = r' := by
    have first : r₂ = r₁ := by
      cases ht : l.token with
      | name s =>
        simp only [ht] at h₄
        exact (pure_eq_ok.mp h₄).2
      | _ =>
        simp only [ht] at h₄
        exact (pure_eq_ok.mp h₄).2
    rw [first]
    by_cases reserved : reservedWords.contains name.1 = true
    · simp only [reserved, if_true] at h₂
      exact absurd h₂ failAt_ne_ok
    · simp only [reserved] at h₂
      exact (pure_eq_ok.mp h₂).2
  cases token : r.token with
  | name s => exact ⟨s, kept ▸ tokens_of_advance passed token Token.noConfusion⟩
  | _ =>
    rw [token] at named
    exact Bool.noConfusion named

theorem accountsTag_importStmt : AccountsTag cut "import" (do return [← importStmt]) := by
  refine accountsTag_of_expr .imports (fun l e => ?_) fun l e r s r' h closes => ?_
  · refine Passes.bind (passes_expect rfl) fun _ => Passes.bind passes_nameTarget fun name => ?_
    exact Passes.bind passes_contextWords? fun _ => passes_pure _
  · rcases bind_eq_ok.mp h with ⟨_, r₁, h₁, h₂⟩
    rcases bind_eq_ok.mp h₂ with ⟨name, r₂, h₃, h₄⟩
    rcases nameTarget_eq_ok h₃ with ⟨word, tokens⟩
    rcases fits_of_contextWords? h₄ closes with ⟨⟨o, rfl⟩, fitting⟩
    refine ⟨Stmt.references_importAll _ _ _, ?_⟩
    rw [tokens_of_expect h₁ (by decide), tokens, tagTokens_inner rfl, tagTokens_inner rfl]
    exact fitting

theorem passes_importedName : Passes importedName := by
  refine Passes.bind passes_nameTarget fun name => ?_
  have rest : Passes (do
      if ← skipIf (.name "as") then return (name.1, (← nameTarget).1)
      else return (name.1, name.1)) := by
    refine Passes.bind (passes_skipIf rfl) fun _ => Passes.ite ?_ (passes_pure _)
    exact Passes.bind passes_nameTarget fun _ => passes_pure _
  exact Passes.ite (Passes.bind (passes_throw _) fun _ => rest) rest

/-- A parser may come after another one or at once. -/
theorem Passes.afterSome {α β : Type} {p : Parse β} {q : Parse α} (started : Bool)
    (first : Passes p) (rest : Passes q) :
    Passes (if started then p >>= fun _ => q else q) :=
  Passes.ite (Passes.bind first fun _ => rest) rest

theorem passes_importedNames (started : Bool) (n : Nat) : Passes (importedNames started n) := by
  induction n generalizing started with
  | zero => exact passes_pure _
  | succ n ih =>
    refine Passes.afterSome _ (passes_expectSymbol _) (passes_current fun l => ?_)
    refine Passes.at_ (Passes.ite ?_ ?_) _
    · refine Passes.bind passes_contextWords? fun o => ?_
      cases o with
      | some context => exact passes_pure _
      | none =>
        refine Passes.bind passes_importedName fun name => ?_
        refine Passes.bind passes_contextWords? fun o => ?_
        cases o with
        | some context => exact passes_pure _
        | none =>
          refine Passes.bind (passes_currentIs _) fun _ => Passes.ite ?_ (passes_pure _)
          exact Passes.bind (ih true) fun _ => passes_pure _
    · exact Passes.bind passes_expectName fun _ => passes_pure _

/-- The names to import start with a name. -/
theorem importedNames_eq_ok {n : Nat} {r r' : Reader}
    {found : List (String × String) × Bool} (h : importedNames false (n + 1) r = .ok (found, r')) :
    ∃ s, r.token = .name s := by
  rcases bind_eq_ok.mp h with ⟨l, r₁, h₁, h₂⟩
  rcases current_eq_ok h₁ with ⟨token, rfl⟩
  cases ht : l.token with
  | name s => exact ⟨s, token.symm.trans ht⟩
  | _ =>
    simp only [ht] at h₂
    rcases bind_eq_ok.mp h₂ with ⟨name, r₂, h₃, -⟩
    rcases bind_eq_ok.mp h₃ with ⟨l', r₃, h₄, -⟩
    have named := (expectThat_eq_ok h₄).1
    rw [← token, ht] at named
    exact Bool.noConfusion named

theorem accountsTag_importNamesStmt : AccountsTag cut "from" (do return [← importNamesStmt]) := by
  refine accountsTag_of_expr .importsFrom (fun l e => ?_) fun l e r s r' h closes => ?_
  · refine Passes.bind (passes_expect rfl) fun _ => Passes.bind passes_bound fun n => ?_
    exact Passes.bind (passes_importedNames _ n) fun _ => passes_pure _
  · rcases bind_eq_ok.mp h with ⟨_, r₁, h₁, h₂⟩
    rcases bind_eq_ok.mp h₂ with ⟨n, r₂, h₃, h₄⟩
    rcases bound_eq_ok h₃ with ⟨rfl, rfl⟩
    rcases bind_eq_ok.mp h₄ with ⟨found, r₃, h₅, h₆⟩
    rcases pure_eq_ok.mp h₆ with ⟨rfl, rfl⟩
    rcases importedNames_eq_ok h₅ with ⟨word, token⟩
    refine ⟨Stmt.references_importNames _ _ _ _, ?_⟩
    rw [tokens_of_expect h₁ (by decide), Reader.tokens_of_token token Token.noConfusion,
      tagTokens_inner rfl, tagTokens_inner rfl]
    rfl

end Tags

end Template

end Stencil
