import Stencil.Proofs.Reference.Written
import Stencil.Proofs.Template.Literal
import Stencil.Proofs.Template.Tags

/-!
# Accounting for Tags

How parsing statements accounts for the references of the tags that it passes.

A parser that starts inside of a tag may go on through bodies and the tags in
them, and stops inside of a tag again. `Covers` says of two readers which
references belong to the tags between them, and that each of those tags is one
that can be parsed. Bodies put into a statement are accounted for as they are
read: `Accounts` carries the references that came before, so the references of
the statement that is made in the end are those before and those of the tags.

Which references a tag makes is known only if a target is a single text: not
in parentheses, and not followed by a text that is joined to it.

## Main definitions

* `isSingle`: The target of a tag is no text in parentheses or in pieces.
* `IsLegal`: What parsing a tag makes sure of.
* `Covers`: The references of the tags between two readers.
* `Accounts`, `BodyCovers`: A parser accounts for the tags that it passes.

## Theorems

* `Accounts.bind`, `Passes.accounts`, `accounts_pure`: How accounts add up.
* `accounts_wholeBody`: A body and the word that ends it.
-/

namespace Stencil

namespace Template

/-- The target of the tag is not a text in parentheses, and no text follows
it. -/
def isSingle : List Token → Bool
  | .name word :: t :: ts =>
    (tagOf? word).isNone ||
      (t != .symbol .openParen && !(t.isString && (ts.head?.getD .eof).isString))
  | _ => true

/-- What parsing a tag makes sure of. -/
structure IsLegal (ts : List Token) : Prop where
  /-- It starts with a word that is not about raw text. -/
  word : ∃ w us, ts = .name w :: us ∧ w ≠ "raw"
  /-- After a target, a name follows the word that asks for one. -/
  named : ∀ w s v us, ts = .name w :: .string s :: .name v :: us →
    (w = "import" ∧ v = "as") ∨ (w = "from" ∧ v = "import") →
      (us.head?.getD .eof).isName = true

/-- The references of the tags between two readers. -/
structure Covers (r : Reader) (found : List (Tag × String)) (r' : Reader) : Prop where
  /-- The tags can be parsed, and the references are theirs. -/
  tags : ∃ tags, blockTags r.tokens = tags ++ blockTags r'.tokens ∧ (∀ t ∈ tags, IsLegal t) ∧
    ((∀ t ∈ tags, isSingle t = true) → found = tags.flatMap tagReference)
  /-- Tokens are passed. -/
  passed : r'.tokens <:+ r.tokens
  /-- The mistake stays behind the tokens. -/
  mistake : r'.mistake = r.mistake
  /-- The mistake is not reached. -/
  live : r.IsLive → r'.IsLive

theorem Covers.of_blockTags {r r' : Reader} (same : blockTags r.tokens = blockTags r'.tokens)
    (passed : r'.tokens <:+ r.tokens) (mistake : r'.mistake = r.mistake)
    (live : r.IsLive → r'.IsLive) : Covers r [] r' :=
  ⟨⟨[], same, fun _ h => absurd h List.not_mem_nil, fun _ => rfl⟩, passed, mistake, live⟩

theorem Reader.Steps.covers {r r' : Reader} (h : r.Steps r') : Covers r [] r' := by
  refine Covers.of_blockTags h.blockTags ?_ h.mistake h.live
  rcases h.passed with ⟨ts, tokens, -⟩
  exact ⟨ts, tokens.symm⟩

theorem Covers.trans {a b c : Reader} {xs ys : List (Tag × String)} (hab : Covers a xs b)
    (hbc : Covers b ys c) : Covers a (xs ++ ys) c := by
  rcases hab.tags with ⟨ts, h₁, legal₁, refs₁⟩
  rcases hbc.tags with ⟨us, h₂, legal₂, refs₂⟩
  refine ⟨⟨ts ++ us, ?_, ?_, fun single => ?_⟩, hbc.passed.trans hab.passed,
    hbc.mistake.trans hab.mistake, fun h => hbc.live (hab.live h)⟩
  · rw [h₁, h₂, List.append_assoc]
  · intro t ht
    rcases List.mem_append.mp ht with h | h
    · exact legal₁ t h
    · exact legal₂ t h
  · rw [List.flatMap_append, refs₁ fun t ht => single t (List.mem_append_left _ ht),
      refs₂ fun t ht => single t (List.mem_append_right _ ht)]

/-- Readers that differ in what serves reports only. -/
theorem Covers.of_tokens {r r' : Reader} (tokens : r'.tokens = r.tokens)
    (mistake : r'.mistake = r.mistake) : Covers r [] r' := by
  refine Covers.of_blockTags (by rw [tokens]) (tokens ▸ List.suffix_refl _) mistake ?_
  intro live present
  have items := live (mistake ▸ present)
  intro none
  rw [Reader.tokens, none] at tokens
  exact items (List.map_eq_nil_iff.mp tokens.symm)

section Parsers

variable {α β : Type}

theorem modify_eq_ok {f : Reader → Reader} {r r' : Reader} {u : PUnit}
    (h : (modify f : Parse PUnit) r = .ok (u, r')) : r' = f r := by
  cases h
  rfl

/-- Passing a token after a test is passing it. -/
theorem expectThat_eq_ok {wording : String} {ok : Token → Bool} {l : Lexeme} {r r' : Reader}
    (h : expectThat wording ok r = .ok (l, r')) : ok r.token = true ∧ advance r = .ok (l, r') := by
  rcases bind_eq_ok.mp h with ⟨l', r₁, h₁, h₂⟩
  rcases current_eq_ok h₁ with ⟨token, rfl⟩
  by_cases ht : ok l'.token = true
  · rw [if_pos ht] at h₂
    exact ⟨token ▸ ht, h₂⟩
  · rw [if_neg ht] at h₂
    split at h₂
    · exact absurd h₂ failAt_ne_ok
    · exact absurd h₂ failAt_ne_ok

theorem expect_eq_ok {t : Token} {l : Lexeme} {r r' : Reader} (h : expect t r = .ok (l, r')) :
    r.token = t ∧ advance r = .ok (l, r') := by
  rcases expectThat_eq_ok h with ⟨found, passed⟩
  exact ⟨eq_of_beq found, passed⟩

theorem Reader.tokens_of_token {r : Reader} {t : Token} (h : r.token = t) (ht : t ≠ .eof) :
    r.tokens = t :: r.tokens.tail := by
  rw [Reader.token] at h
  cases hr : r.tokens with
  | nil =>
    rw [hr] at h
    exact absurd h.symm ht
  | cons u us =>
    rw [hr] at h
    rw [← h]
    rfl

theorem tokens_of_advance {t : Token} {l : Lexeme} {r r' : Reader} (h : advance r = .ok (l, r'))
    (token : r.token = t) (ht : t ≠ .eof) : r.tokens = t :: r'.tokens := by
  rw [(advance_eq_ok h).2.1]
  exact Reader.tokens_of_token token ht

theorem tokens_of_expect {t : Token} {l : Lexeme} {r r' : Reader} (h : expect t r = .ok (l, r'))
    (ht : t ≠ .eof) : r.tokens = t :: r'.tokens := by
  rcases expect_eq_ok h with ⟨token, passed⟩
  exact tokens_of_advance passed token ht

/-- Passing the token that closes a tag. -/
theorem covers_of_close (kind : TagKind) {l : Lexeme} {r r' : Reader} {cut : List Token}
    (hr : Inside kind cut r.tokens) (h : expect kind.close r = .ok (l, r')) :
    Covers r [] r' ∧ Outside cut r'.tokens := by
  rcases advance_eq_ok (expect_eq_ok h).2 with ⟨-, -, mistake, live⟩
  have tokens := tokens_of_expect h (by cases kind <;> decide)
  constructor
  · refine Covers.of_blockTags ?_ ⟨[kind.close], tokens.symm⟩ mistake live
    rw [tokens]
    cases kind <;> rfl
  · rw [tokens] at hr
    exact hr.leave

/-- From a place in a statement tag on, the parser stops inside of one, and
what it gives has the references that came before and those of the tags that
it passes. -/
def Accounts (cut : List Token) (refs : α → List (Tag × String)) (prior : List (Tag × String))
    (p : Parse α) : Prop :=
  ∀ ⦃r a r'⦄, Inside .block cut r.tokens → p r = .ok (a, r') →
    Inside .block cut r'.tokens ∧ ∃ found, Covers r found r' ∧ refs a = prior ++ found

/-- The parser does so where a given token is current. -/
def AccountsAt (t : Token) (cut : List Token) (refs : α → List (Tag × String))
    (prior : List (Tag × String)) (p : Parse α) : Prop :=
  ∀ ⦃r a r'⦄, r.token = t → Inside .block cut r.tokens → p r = .ok (a, r') →
    Inside .block cut r'.tokens ∧ ∃ found, Covers r found r' ∧ refs a = prior ++ found

/-- The word may end a body: it starts no tag that refers to a template. -/
def IsEnd (word : String) : Prop :=
  tagOf? word = none ∧ word ≠ "raw"

instance (word : String) : Decidable (IsEnd word) :=
  inferInstanceAs (Decidable (_ ∧ _))

/-- From outside of all tags on, a body is followed by the end of the text, or
by a tag with a word that it waits for, and its references are those of the
tags before that. -/
def BodyCovers (cut : List Token) (body : Body) : Prop :=
  ∀ ⦃ends r found r'⦄, (∀ w ∈ ends, IsEnd w) → Outside cut r.tokens →
    body ends r = .ok (found, r') → Covers r (references found) r' ∧
      ((r'.tokens = [] ∧ cut = []) ∨
        (Inside .block cut r'.tokens ∧ ∃ w ∈ ends, r'.token = .name w))

variable {cut : List Token} {refs : α → List (Tag × String)} {prior : List (Tag × String)}

theorem accounts_pure {a : α} (h : refs a = prior) : Accounts cut refs prior (pure a) := by
  intro r b r' hr ok
  rcases pure_eq_ok.mp ok with ⟨rfl, rfl⟩
  refine ⟨hr, [], (Reader.Steps.refl _).covers, ?_⟩
  rw [h, List.append_nil]

theorem Passes.accounts {p : Parse β} {f : β → Parse α} (hp : Passes p)
    (hf : ∀ b, Accounts cut refs prior (f b)) : Accounts cut refs prior (p >>= f) := by
  intro r a r' hr ok
  rcases bind_eq_ok.mp ok with ⟨b, r₁, h₁, h₂⟩
  have steps := hp h₁
  rcases hf b (steps.inside hr) h₂ with ⟨inside, found, covers, total⟩
  exact ⟨inside, found, steps.covers.trans covers, total⟩

theorem Accounts.at_ {p : Parse α} (hp : Accounts cut refs prior p) (t : Token) :
    AccountsAt t cut refs prior p :=
  fun _ _ _ _ hr h => hp hr h

theorem accountsAt_advance {t : Token} (ht : t.isInner = true) {f : Lexeme → Parse α}
    (hf : ∀ l, Accounts cut refs prior (f l)) : AccountsAt t cut refs prior (advance >>= f) := by
  intro r a r' token hr ok
  rcases bind_eq_ok.mp ok with ⟨l, r₁, h₁, h₂⟩
  have steps := passesAt_advance ht token h₁
  rcases hf l (steps.inside hr) h₂ with ⟨inside, found, covers, total⟩
  exact ⟨inside, found, steps.covers.trans covers, total⟩

theorem Accounts.bind {p : Parse β} {f : β → Parse α} {inner : β → List (Tag × String)}
    (hp : Accounts cut inner [] p) (hf : ∀ b, Accounts cut refs (prior ++ inner b) (f b)) :
    Accounts cut refs prior (p >>= f) := by
  intro r a r' hr ok
  rcases bind_eq_ok.mp ok with ⟨b, r₁, h₁, h₂⟩
  rcases hp hr h₁ with ⟨inside₁, found₁, covers₁, total₁⟩
  rcases hf b inside₁ h₂ with ⟨inside₂, found₂, covers₂, total₂⟩
  refine ⟨inside₂, found₁ ++ found₂, covers₁.trans covers₂, ?_⟩
  rw [total₂, total₁, List.nil_append, List.append_assoc]

theorem Accounts.ite {c : Prop} [Decidable c] {p q : Parse α} (hp : Accounts cut refs prior p)
    (hq : Accounts cut refs prior q) : Accounts cut refs prior (if c then p else q) := by
  split
  · exact hp
  · exact hq

theorem accounts_failAt (line : Nat) (message : String) :
    Accounts cut refs prior (failAt line message : Parse α) :=
  fun _ _ _ _ h => absurd h failAt_ne_ok

end Parsers

section Bodies

variable {cut : List Token} {body : Body} {ends : List String}

theorem bodyUntil_eq_ok (hbody : BodyCovers cut body) (hends : ∀ w ∈ ends, IsEnd w)
    {r r' : Reader} {found : List Stmt} (hr : Inside .block cut r.tokens)
    (h : bodyUntil body ends r = .ok (found, r')) :
    Covers r (references found) r' ∧ Inside .block cut r'.tokens ∧
      ∃ w ∈ ends, r'.token = .name w := by
  rcases bind_eq_ok.mp h with ⟨_, r₁, h₁, h₂⟩
  have steps := passes_skipIf (t := .symbol .colon) rfl h₁
  rcases bind_eq_ok.mp h₂ with ⟨_, r₂, h₃, h₄⟩
  -- The tag of the head is closed before the body starts.
  rcases covers_of_close .block (steps.inside hr) h₃ with ⟨closed, outside⟩
  rcases bind_eq_ok.mp h₄ with ⟨inner, r₃, h₅, h₆⟩
  rcases hbody hends outside h₅ with ⟨covers, after⟩
  rcases bind_eq_ok.mp h₆ with ⟨atEnd, r₄, h₇, h₈⟩
  rcases bind_eq_ok.mp h₇ with ⟨l, r₅, h₉, h₁₀⟩
  rcases current_eq_ok h₉ with ⟨token, rfl⟩
  rcases pure_eq_ok.mp h₁₀ with ⟨rfl, rfl⟩
  rcases after with ⟨none, -⟩ | ⟨inside, word⟩
  · -- A body that reaches the end of the text is refused.
    have eof : (l.token == .eof) = true := by
      rw [token, Reader.token, none]
      rfl
    rw [eof, if_pos rfl] at h₈
    rcases bind_eq_ok.mp h₈ with ⟨_, r₆, -, failed⟩
    exact absurd failed fail_ne_ok
  · rcases word with ⟨w, hw, here⟩
    have eof : (l.token == .eof) = false := by
      rw [token, here]
      rfl
    rw [eof] at h₈
    rcases pure_eq_ok.mp h₈ with ⟨rfl, rfl⟩
    exact ⟨(steps.covers.trans closed).trans covers, inside, w, hw, here⟩

theorem accounts_wholeBody (hbody : BodyCovers cut body) (hends : ∀ w ∈ ends, IsEnd w) :
    Accounts cut (fun found => references found.1) [] (wholeBody body ends) := by
  intro r found r' hr h
  rcases bind_eq_ok.mp h with ⟨inner, r₁, h₁, h₂⟩
  rcases bodyUntil_eq_ok hbody hends hr h₁ with ⟨covers, inside, w, -, here⟩
  rcases bind_eq_ok.mp h₂ with ⟨l, r₂, h₃, h₄⟩
  have steps := passesAt_advance (t := .name w) rfl here h₃
  have token := (advance_eq_ok h₃).1.trans here
  simp only [token] at h₄
  rcases pure_eq_ok.mp h₄ with ⟨rfl, rfl⟩
  refine ⟨steps.inside inside, references inner, ?_, rfl⟩
  have total := covers.trans steps.covers
  rwa [List.append_nil] at total

end Bodies

end Template

end Stencil
