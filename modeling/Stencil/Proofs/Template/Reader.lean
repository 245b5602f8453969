import Stencil.Template.Parse.Reader

/-!
# What Parsing Passes

Parsers that pass only tokens that stand inside of a tag.

A tag opens and closes with tokens of its own, and everything between them is
a name, a literal or a symbol. Whatever parses an expression passes tokens of
that kind only, so it cannot leave the tag that it starts in. The property is
one of each parser and is put together along its steps: `Passes` for a parser
in any place, `PassesAt` for one that relies on the token that is current.

A mistake stands behind the last token, and passing that token reports it. So
a reader with a mistake is never without tokens, which is carried along.

## Main definitions

* `Token.isInner`: The token stands inside of a tag.
* `Reader.Steps`: Only such tokens are passed from one reader to another.
* `Passes`, `PassesAt`: A parser passes only such tokens.

## Theorems

* `bind_eq_ok`: A sequence of two parsers succeeds if both do.
* `Passes.bind`, `passes_current`: How the property is put together.
* `Passes.tupleItems`, `Passes.listItems`, `Passes.chain`: Loops pass what
  their items pass.
-/

namespace Stencil

namespace Template

/-- The token stands inside of a tag. -/
def Token.isInner : Token → Bool
  | .name _ => true
  | .string _ => true
  | .integer _ => true
  | .float _ => true
  | .symbol _ => true
  | _ => false

/-- The tokens that are left. -/
def Reader.tokens (r : Reader) : List Token :=
  r.items.map (·.token)

/-- The current token. -/
def Reader.token (r : Reader) : Token :=
  r.tokens.head?.getD .eof

/-- If there is a mistake, a token precedes it. -/
def Reader.IsLive (r : Reader) : Prop :=
  r.mistake ≠ none → r.items ≠ []

/-- Between two readers, only tokens inside of a tag are passed. -/
structure Reader.Steps (r r' : Reader) : Prop where
  /-- What is passed. -/
  passed : ∃ ts, r.tokens = ts ++ r'.tokens ∧ ∀ t ∈ ts, t.isInner = true
  /-- The mistake stays behind the tokens. -/
  mistake : r'.mistake = r.mistake
  /-- The mistake is not reached. -/
  live : r.IsLive → r'.IsLive

namespace Reader.Steps

theorem refl (r : Reader) : r.Steps r :=
  ⟨⟨[], rfl, fun _ h => absurd h List.not_mem_nil⟩, rfl, id⟩

theorem trans {a b c : Reader} (hab : a.Steps b) (hbc : b.Steps c) : a.Steps c := by
  rcases hab.passed with ⟨ts, h₁, hts⟩
  rcases hbc.passed with ⟨us, h₂, hus⟩
  refine ⟨⟨ts ++ us, ?_, ?_⟩, hbc.mistake.trans hab.mistake, fun h => hbc.live (hab.live h)⟩
  · rw [h₁, h₂, List.append_assoc]
  · intro t ht
    rcases List.mem_append.mp ht with h | h
    · exact hts t h
    · exact hus t h

end Reader.Steps

section Parsers

variable {α β : Type}

theorem bind_eq_ok {p : Parse α} {f : α → Parse β} {r r' : Reader} {b : β} :
    (p >>= f) r = .ok (b, r') ↔ ∃ a r₁, p r = .ok (a, r₁) ∧ f a r₁ = .ok (b, r') := by
  constructor
  · intro h
    cases hp : p r with
    | error e =>
      have failed : (p >>= f) r = .error e := by
        change (p r >>= fun x => f x.1 x.2) = _
        rw [hp]
        rfl
      rw [failed] at h
      exact absurd h (by simp only [reduceCtorEq, not_false_eq_true])
    | ok x =>
      refine ⟨x.1, x.2, rfl, ?_⟩
      change (p r >>= fun x => f x.1 x.2) = _ at h
      rw [hp] at h
      exact h
  · rintro ⟨a, r₁, hp, hf⟩
    change (p r >>= fun x => f x.1 x.2) = _
    rw [hp]
    exact hf

theorem pure_eq_ok {a b : α} {r r' : Reader} :
    (pure a : Parse α) r = .ok (b, r') ↔ a = b ∧ r = r' := by
  change (Except.ok (a, r) : Except Mistake (α × Reader)) = .ok (b, r') ↔ _
  rw [Except.ok.injEq, Prod.mk.injEq]

theorem throw_ne_ok {m : Mistake} {r : Reader} {x : α × Reader} :
    (throw m : Parse α) r ≠ .ok x := by
  change (Except.error m : Except Mistake (α × Reader)) ≠ _
  simp only [ne_eq, reduceCtorEq, not_false_eq_true]

theorem failAt_ne_ok {line : Nat} {message : String} {r : Reader} {x : α × Reader} :
    (failAt line message : Parse α) r ≠ .ok x :=
  throw_ne_ok

theorem current_eq_ok {l : Lexeme} {r r' : Reader} (h : current r = .ok (l, r')) :
    l.token = r.token ∧ r' = r := by
  simp only [current] at h
  rcases bind_eq_ok.mp h with ⟨s, r₁, hget, h⟩
  cases hget
  unfold Reader.token Reader.tokens
  cases hr : r.items with
  | nil =>
    rw [hr] at h
    cases h
    exact ⟨rfl, rfl⟩
  | cons a as =>
    rw [hr] at h
    cases h
    exact ⟨rfl, rfl⟩

theorem fail_ne_ok {message : String} {r : Reader} {x : α × Reader} :
    (fail message : Parse α) r ≠ .ok x := by
  intro h
  rcases bind_eq_ok.mp h with ⟨_, _, _, h⟩
  exact failAt_ne_ok h

theorem bound_eq_ok {n : Nat} {r r' : Reader} (h : bound r = .ok (n, r')) :
    n = r.tokens.length + 1 ∧ r' = r := by
  cases h
  refine ⟨?_, rfl⟩
  rw [Reader.tokens, List.length_map]

theorem look_eq_ok {t : Token} {r r' : Reader} (h : look r = .ok (t, r')) :
    t = r.tokens.tail.head?.getD .eof ∧ r' = r := by
  simp only [look] at h
  rcases bind_eq_ok.mp h with ⟨s, r₁, hget, h⟩
  cases hget
  unfold Reader.tokens
  match hr : r.items with
  | a :: b :: rest =>
    rw [hr] at h
    cases h
    exact ⟨rfl, rfl⟩
  | [a] | [] =>
    rw [hr] at h
    cases hm : r.mistake with
    | some m =>
      simp only [hm] at h
      exact absurd h throw_ne_ok
    | none =>
      simp only [hm] at h
      cases h
      exact ⟨rfl, rfl⟩

/-- Passing a token: it is the current one, and the rest is what follows it. -/
theorem advance_eq_ok {l : Lexeme} {r r' : Reader} (h : advance r = .ok (l, r')) :
    l.token = r.token ∧ r'.tokens = r.tokens.tail ∧ r'.mistake = r.mistake ∧
      (r.IsLive → r'.IsLive) := by
  simp only [advance] at h
  rcases bind_eq_ok.mp h with ⟨s, r₁, hget, h⟩
  cases hget
  unfold Reader.token Reader.tokens Reader.IsLive
  match hr : r.items with
  | [] =>
    rw [hr] at h
    cases h
    refine ⟨rfl, ?_, rfl, fun live => ?_⟩
    · rw [hr]
      rfl
    · rwa [hr]
  | [a] =>
    rw [hr] at h
    cases hm : r.mistake with
    -- A mistake further on in the text is met where the tokens before it run out.
    | some m =>
      simp only [hm] at h
      exact absurd h throw_ne_ok
    | none =>
      simp only [hm] at h
      rcases bind_eq_ok.mp h with ⟨_, _, hset, h⟩
      cases hset
      cases h
      exact ⟨rfl, rfl, rfl, fun _ present => absurd rfl present⟩
  | a :: b :: rest =>
    rw [hr] at h
    rcases bind_eq_ok.mp h with ⟨_, _, hset, h⟩
    cases hset
    cases h
    exact ⟨rfl, rfl, rfl, fun _ _ => List.cons_ne_nil _ _⟩

theorem steps_of_advance {l : Lexeme} {r r' : Reader} (h : advance r = .ok (l, r'))
    (inner : l.token.isInner = true) : r.Steps r' := by
  rcases advance_eq_ok h with ⟨token, rest, mistake, live⟩
  refine ⟨?_, mistake, live⟩
  rw [token] at inner
  unfold Reader.token at inner
  cases hr : r.tokens with
  | nil =>
    rw [hr] at inner
    exact absurd inner (by decide)
  | cons t ts =>
    rw [hr] at inner rest
    refine ⟨[t], ?_, ?_⟩
    · rw [rest]
      rfl
    · intro u hu
      rw [List.mem_singleton.mp hu]
      exact inner

/-- The parser passes only tokens that stand inside of a tag. -/
def Passes (p : Parse α) : Prop :=
  ∀ ⦃r a r'⦄, p r = .ok (a, r') → r.Steps r'

/-- The parser does so where a given token is current. -/
def PassesAt (t : Token) (p : Parse α) : Prop :=
  ∀ ⦃r a r'⦄, r.token = t → p r = .ok (a, r') → r.Steps r'

theorem Passes.at_ {p : Parse α} (hp : Passes p) (t : Token) : PassesAt t p :=
  fun _ _ _ _ h => hp h

theorem passes_pure (a : α) : Passes (pure a) := by
  intro r b r' h
  rw [(pure_eq_ok.mp h).2]
  exact Reader.Steps.refl _

theorem passes_throw (m : Mistake) : Passes (throw m : Parse α) :=
  fun _ _ _ h => absurd h throw_ne_ok

theorem passes_failAt (line : Nat) (message : String) : Passes (failAt line message : Parse α) :=
  fun _ _ _ h => absurd h failAt_ne_ok

theorem passes_fail (message : String) : Passes (fail message : Parse α) :=
  fun _ _ _ h => absurd h fail_ne_ok

theorem passes_bound : Passes bound := by
  intro r n r' h
  rw [(bound_eq_ok h).2]
  exact Reader.Steps.refl _

theorem Passes.bind {p : Parse α} {f : α → Parse β} (hp : Passes p) (hf : ∀ a, Passes (f a)) :
    Passes (p >>= f) := by
  intro r b r' h
  rcases bind_eq_ok.mp h with ⟨a, r₁, h₁, h₂⟩
  exact (hp h₁).trans (hf a h₂)

theorem PassesAt.bind {t : Token} {p : Parse α} {f : α → Parse β} (hp : PassesAt t p)
    (hf : ∀ a, Passes (f a)) : PassesAt t (p >>= f) := by
  intro r b r' ht h
  rcases bind_eq_ok.mp h with ⟨a, r₁, h₁, h₂⟩
  exact (hp ht h₁).trans (hf a h₂)

theorem Passes.map {p : Parse α} (hp : Passes p) (f : α → β) : Passes (f <$> p) :=
  Passes.bind hp fun a => passes_pure (f a)

theorem Passes.ite {c : Prop} [Decidable c] {p q : Parse α} (hp : Passes p) (hq : Passes q) :
    Passes (if c then p else q) := by
  split
  · exact hp
  · exact hq

theorem PassesAt.ite {t : Token} {c : Prop} [Decidable c] {p q : Parse α} (hp : PassesAt t p)
    (hq : PassesAt t q) : PassesAt t (if c then p else q) := by
  split
  · exact hp
  · exact hq

/-- A parser that first looks at the current token may rely on it. -/
theorem passes_current {f : Lexeme → Parse α} (hf : ∀ l, PassesAt l.token (f l)) :
    Passes (current >>= f) := by
  intro r b r' h
  rcases bind_eq_ok.mp h with ⟨l, r₁, h₁, h₂⟩
  rcases current_eq_ok h₁ with ⟨token, rfl⟩
  exact hf l token.symm h₂

theorem passesAt_advance {t : Token} (ht : t.isInner = true) : PassesAt t advance := by
  intro r l r' token h
  refine steps_of_advance h ?_
  rw [(advance_eq_ok h).1, token]
  exact ht

/-- A token may be passed before it is looked at, if what follows fails on one
that does not stand inside of a tag. -/
theorem passes_advance {f : Lexeme → Parse α} (hf : ∀ l, Passes (f l))
    (outer : ∀ l r x, l.token.isInner = false → f l r ≠ .ok x) : Passes (advance >>= f) := by
  intro r b r' h
  rcases bind_eq_ok.mp h with ⟨l, r₁, h₁, h₂⟩
  cases inner : l.token.isInner with
  | false => exact absurd h₂ (outer l r₁ _ inner)
  | true => exact (steps_of_advance h₁ inner).trans (hf l h₂)

theorem PassesAt.advance_bind {t : Token} (ht : t.isInner = true) {f : Lexeme → Parse α}
    (hf : ∀ l, Passes (f l)) : PassesAt t (advance >>= f) :=
  PassesAt.bind (passesAt_advance ht) hf

/-- The parser passes only tokens that stand inside of a tag where two given
tokens come first. -/
def PassesAtBoth (t u : Token) (p : Parse α) : Prop :=
  ∀ ⦃r a r'⦄, r.token = t → r.tokens.tail.head?.getD .eof = u → p r = .ok (a, r') → r.Steps r'

/-- A parser that looks at the second token may rely on it. -/
theorem PassesAt.look_bind {t u : Token} {p q : Parse α} (hp : PassesAtBoth t u p)
    (hq : PassesAt t q) : PassesAt t (look >>= fun v => if v == u then p else q) := by
  intro r x r' token h
  rcases bind_eq_ok.mp h with ⟨v, r₁, h₁, h₂⟩
  rcases look_eq_ok h₁ with ⟨second, rfl⟩
  by_cases hv : (v == u) = true
  · rw [if_pos hv] at h₂
    exact hp token (second.symm.trans (eq_of_beq hv)) h₂
  · rw [if_neg hv] at h₂
    exact hq token h₂

theorem PassesAtBoth.advance_bind {t u : Token} (ht : t.isInner = true) {f : Lexeme → Parse α}
    (hf : ∀ l, PassesAt u (f l)) : PassesAtBoth t u (advance >>= f) := by
  intro r x r' token second h
  rcases bind_eq_ok.mp h with ⟨l, r₁, h₁, h₂⟩
  have next : r₁.token = u := by
    rw [Reader.token, (advance_eq_ok h₁).2.1, second]
  exact (passesAt_advance ht token h₁).trans (hf l next h₂)

/-- The parser leaves the reader as it is. -/
def Stays (p : Parse α) : Prop :=
  ∀ ⦃r a r'⦄, p r = .ok (a, r') → r' = r

theorem Stays.bind_at {t : Token} {p : Parse α} {f : α → Parse β} (hp : Stays p)
    (hf : ∀ a, PassesAt t (f a)) : PassesAt t (p >>= f) := by
  intro r b r' token h
  rcases bind_eq_ok.mp h with ⟨a, r₁, h₁, h₂⟩
  rw [hp h₁] at h₂
  exact hf a token h₂

theorem Stays.bind_atBoth {t u : Token} {p : Parse α} {f : α → Parse β} (hp : Stays p)
    (hf : ∀ a, PassesAtBoth t u (f a)) : PassesAtBoth t u (p >>= f) := by
  intro r b r' token second h
  rcases bind_eq_ok.mp h with ⟨a, r₁, h₁, h₂⟩
  rw [hp h₁] at h₂
  exact hf a token second h₂

theorem passes_currentIs (t : Token) : Passes (currentIs t) :=
  passes_current fun _ => (passes_pure _).at_ _

/-- A parser that asks what the current token is may rely on the answer. -/
theorem passes_currentIs_bind {t : Token} {f : Bool → Parse α} (yes : PassesAt t (f true))
    (no : Passes (f false)) : Passes (currentIs t >>= f) := by
  intro r b r' h
  rcases bind_eq_ok.mp h with ⟨found, r₁, h₁, h₂⟩
  rcases bind_eq_ok.mp h₁ with ⟨l, r₂, h₃, h₄⟩
  rcases current_eq_ok h₃ with ⟨token, rfl⟩
  rcases pure_eq_ok.mp h₄ with ⟨rfl, rfl⟩
  cases hl : l.token == t with
  | true =>
    rw [hl] at h₂
    exact yes (token.symm.trans (eq_of_beq hl)) h₂
  | false =>
    rw [hl] at h₂
    exact no h₂

theorem passes_skipIf {t : Token} (ht : t.isInner = true) : Passes (skipIf t) := by
  refine passes_currentIs_bind ?_ (passes_pure false)
  exact PassesAt.advance_bind ht fun _ => passes_pure true

theorem passes_expectThat {wording : String} {ok : Token → Bool}
    (inner : ∀ t, ok t = true → t.isInner = true) : Passes (expectThat wording ok) := by
  refine passes_current fun l => ?_
  by_cases h : ok l.token = true
  · rw [if_pos h]
    exact passesAt_advance (inner _ h)
  · rw [if_neg h]
    exact (Passes.ite (passes_failAt _ _) (passes_failAt _ _)).at_ _

theorem passes_expect {t : Token} (ht : t.isInner = true) : Passes (expect t) := by
  refine passes_expectThat fun u hu => ?_
  rw [eq_of_beq hu]
  exact ht

theorem passes_expectSymbol (s : Symbol) : Passes (expectSymbol s) :=
  passes_expect rfl

theorem passes_expectName : Passes expectName := by
  refine Passes.bind (passes_expectThat fun t ht => ?_) fun l => ?_
  · cases t with
    | name s => rfl
    | _ => exact Bool.noConfusion ht
  · split <;> exact passes_pure _

theorem Passes.tupleItems {item : Parse α} (hitem : Passes item) (isEnd : Token → Bool)
    (n : Nat) : Passes (tupleItems item isEnd n) := by
  induction n with
  | zero => exact passes_pure _
  | succ n ih =>
    refine passes_current fun l => Passes.at_ ?_ _
    refine Passes.ite (passes_pure _) (Passes.bind hitem fun a => ?_)
    refine Passes.bind (passes_skipIf rfl) fun comma => ?_
    exact Passes.ite (Passes.bind ih fun _ => passes_pure _) (passes_pure _)

theorem Passes.listItems {item : Parse α} (hitem : Passes item) (close : Symbol)
    (trailing started : Bool) (n : Nat) : Passes (listItems close trailing item started n) := by
  induction n generalizing started with
  | zero => exact passes_pure _
  | succ n ih =>
    have more : Passes (do
        let a ← item
        return a :: (← Template.listItems close trailing item true n)) :=
      Passes.bind hitem fun a => Passes.bind (ih true) fun _ => passes_pure _
    refine Passes.bind (passes_currentIs _) fun closed => ?_
    refine Passes.ite (passes_pure _) (Passes.ite ?_ more)
    refine Passes.bind (passes_expectSymbol _) fun _ => ?_
    exact Passes.bind (passes_currentIs _) fun closed => Passes.ite (passes_pure _) more

theorem Passes.chain {operator? : Token → Option (α → α → α)} {operand : Parse α}
    (inner : ∀ t, (operator? t).isSome → t.isInner = true) (hoperand : Passes operand)
    (n : Nat) (a : α) : Passes (chain operator? operand n a) := by
  induction n generalizing a with
  | zero => exact passes_pure _
  | succ n ih =>
    refine passes_current fun l => ?_
    cases h : operator? l.token with
    | none => exact (passes_pure a).at_ _
    | some join =>
      refine PassesAt.advance_bind (inner _ ?_) fun _ => ?_
      · rw [h]
        rfl
      · exact Passes.bind hoperand fun b => ih _

end Parsers

end Template

end Stencil
