import Stencil.Template.Parse.Expr
import Stencil.Proofs.Template.Reader

/-!
# Expressions That Are One Text

When the parser of expressions gives a text that is written down.

A text in quotes is an expression of its own as long as nothing after it
continues the expression: an operator, a bracket, a filter or a test makes a
larger expression, which is no text any more. So each level of the parser
either leaves the value of the level below it alone, and passes nothing, or
makes something that is no text out of it.

The two ways in which a text can be something other than its one token are
left open: a text in parentheses, and a text that follows a text.

## Main definitions

* `Expr.isText`: The expression is a text that is written down.
* `Token.endsText`: The token continues no expression, so a text ends at it.
* `Trails`: A parser that continues after a value leaves it alone or makes
  something that is no text.
* `ReadsText`: A parser gives a text for the token of a text, and for nothing
  else.

## Theorems

* `ReadsText.bind`: Continuing after a value keeps the property.
* `readsText_expr`: The parser of expressions has it.
-/

namespace Stencil

namespace Template

/-- The expression is a text that is written down. -/
def Expr.isText : Expr → Bool
  | .const (.text _) => true
  | _ => false

/-- The token is a text in quotes. -/
def Token.isString : Token → Bool
  | .string _ => true
  | _ => false

/-- The words that may follow the target of a tag. -/
def targetEnds : List String :=
  ["ignore", "with", "without", "as", "import"]

/-- The token may follow the target of a tag: it continues no expression. -/
def Token.endsText : Token → Bool
  | .closeBlock => true
  | .name s => targetEnds.contains s
  | _ => false

/-- A parser that continues after a value leaves it alone and passes nothing,
or it makes something that is no text. -/
def Trails (k : Expr → Parse Expr) : Prop :=
  ∀ ⦃a r e r'⦄, k a r = .ok (e, r') →
    (e = a ∧ r' = r) ∨ (e.isText = false ∧ r.token.endsText = false)

/-- What a parser gives is a text only if a text or a parenthesis is current.
From a single text on, it gives that text, or something that is no text. -/
structure ReadsText (p : Parse Expr) : Prop where
  /-- The token that a text starts with. -/
  first : ∀ ⦃r e r'⦄, p r = .ok (e, r') → e.isText = true →
    r.token.isString = true ∨ r.token = .symbol .openParen
  /-- What is made of a single text. -/
  single : ∀ ⦃r e r' s ts⦄, p r = .ok (e, r') → r.tokens = .string s :: ts →
    (ts.head?.getD .eof).isString = false →
    (e = .const (.text s) ∧ r'.tokens = ts) ∨
      (e.isText = false ∧ (ts.head?.getD .eof).endsText = false)

theorem endsText_cases {t : Token} (h : t.endsText = true) :
    t = .closeBlock ∨ t = .name "ignore" ∨ t = .name "with" ∨ t = .name "without" ∨
      t = .name "as" ∨ t = .name "import" := by
  cases t with
  | closeBlock => exact .inl rfl
  | name s =>
    have word : s ∈ targetEnds := List.contains_iff_mem.mp h
    simp only [targetEnds, List.mem_cons, List.not_mem_nil, or_false] at word
    simp only [Token.name.injEq]
    exact .inr word
  | _ => exact Bool.noConfusion h

/-- A token with a meaning to an operator does not end a text. -/
theorem endsText_eq_false {α : Type} {meaning? : Token → Option α}
    (ends : ∀ t, t.endsText = true → meaning? t = none) {t : Token} {x : α}
    (h : meaning? t = some x) : t.endsText = false := by
  cases ht : t.endsText with
  | false => rfl
  | true =>
    rw [ends t ht] at h
    exact absurd h (Option.some_ne_none _).symm

theorem stays_current : Stays current :=
  fun _ _ _ h => (current_eq_ok h).2

theorem stays_bound : Stays bound :=
  fun _ _ _ h => (bound_eq_ok h).2

theorem Stays.trails {α : Type} {p : Parse α} {k : α → Expr → Parse Expr} (hp : Stays p)
    (hk : ∀ x, Trails (k x)) : Trails fun a => p >>= fun x => k x a := by
  intro a r e r' h
  rcases bind_eq_ok.mp h with ⟨x, r₁, h₁, h₂⟩
  rw [hp h₁] at h₂
  exact hk x h₂

theorem Stays.readsText {α : Type} {p : Parse α} {f : α → Parse Expr} (hp : Stays p)
    (hf : ∀ x, ReadsText (f x)) : ReadsText (p >>= f) := by
  constructor
  · intro r e r' h
    rcases bind_eq_ok.mp h with ⟨x, r₁, h₁, h₂⟩
    rw [hp h₁] at h₂
    exact (hf x).first h₂
  · intro r e r' s ts h
    rcases bind_eq_ok.mp h with ⟨x, r₁, h₁, h₂⟩
    rw [hp h₁] at h₂
    exact (hf x).single h₂

theorem ReadsText.bind {p : Parse Expr} {k : Expr → Parse Expr} (hp : ReadsText p)
    (hk : Trails k) : ReadsText (p >>= k) := by
  constructor
  · intro r e r' h text
    rcases bind_eq_ok.mp h with ⟨a, r₁, h₁, h₂⟩
    rcases hk h₂ with ⟨rfl, -⟩ | ⟨other, -⟩
    · exact hp.first h₁ text
    · rw [other] at text
      exact Bool.noConfusion text
  · intro r e r' s ts h tokens next
    rcases bind_eq_ok.mp h with ⟨a, r₁, h₁, h₂⟩
    rcases hp.single h₁ tokens next with ⟨rfl, rest⟩ | ⟨other, open_⟩
    · rcases hk h₂ with ⟨rfl, rfl⟩ | ⟨other, open_⟩
      · exact .inl ⟨rfl, rest⟩
      · rw [Reader.token, rest] at open_
        exact .inr ⟨other, open_⟩
    · rcases hk h₂ with ⟨rfl, -⟩ | ⟨other', -⟩
      · exact .inr ⟨other, open_⟩
      · exact .inr ⟨other', open_⟩

/-- Asking for a token: it is current and passed, or it is not and stays. -/
theorem skipIf_eq_ok {t : Token} {found : Bool} {r r' : Reader}
    (h : skipIf t r = .ok (found, r')) :
    (found = true ∧ r.token = t ∧ r'.tokens = r.tokens.tail) ∨
      (found = false ∧ r.token ≠ t ∧ r' = r) := by
  rcases bind_eq_ok.mp h with ⟨b, r₁, h₁, h₂⟩
  rcases bind_eq_ok.mp h₁ with ⟨l, r₂, h₃, h₄⟩
  rcases current_eq_ok h₃ with ⟨token, rfl⟩
  rcases pure_eq_ok.mp h₄ with ⟨rfl, rfl⟩
  cases hl : l.token == t with
  | true =>
    rw [hl, if_pos rfl] at h₂
    rcases bind_eq_ok.mp h₂ with ⟨l', r₃, h₅, h₆⟩
    rcases pure_eq_ok.mp h₆ with ⟨rfl, rfl⟩
    exact .inl ⟨rfl, token.symm.trans (eq_of_beq hl), (advance_eq_ok h₅).2.1⟩
  | false =>
    rw [hl] at h₂
    rcases pure_eq_ok.mp h₂ with ⟨rfl, rfl⟩
    refine .inr ⟨rfl, fun same => ?_, rfl⟩
    rw [token, same, beq_self_eq_true] at hl
    exact Bool.noConfusion hl

section Levels

variable {operand : Parse Expr}

theorem trails_chain {operator? : Token → Option (Expr → Expr → Expr)}
    (ends : ∀ t, t.endsText = true → operator? t = none)
    (joined : ∀ t join, operator? t = some join → ∀ a b, (join a b).isText = false) (n : Nat) :
    Trails (chain operator? operand n) := by
  induction n with
  | zero =>
    intro a r e r' h
    rcases pure_eq_ok.mp h with ⟨rfl, rfl⟩
    exact .inl ⟨rfl, rfl⟩
  | succ n ih =>
    intro a r e r' h
    rcases bind_eq_ok.mp h with ⟨l, r₁, h₁, h₂⟩
    rcases current_eq_ok h₁ with ⟨token, rfl⟩
    cases hop : operator? l.token with
    | none =>
      rw [hop] at h₂
      rcases pure_eq_ok.mp h₂ with ⟨rfl, rfl⟩
      exact .inl ⟨rfl, rfl⟩
    | some join =>
      rw [hop] at h₂
      rcases bind_eq_ok.mp h₂ with ⟨_, r₂, -, h₃⟩
      rcases bind_eq_ok.mp h₃ with ⟨b, r₃, -, h₄⟩
      refine .inr ⟨?_, ?_⟩
      · rcases ih h₄ with ⟨rfl, -⟩ | ⟨other, -⟩
        · exact joined _ _ hop a b
        · exact other
      · rw [← token]
        exact endsText_eq_false ends hop

theorem ReadsText.leftLevel {operator? : Token → Option (Expr → Expr → Expr)}
    (ends : ∀ t, t.endsText = true → operator? t = none)
    (joined : ∀ t join, operator? t = some join → ∀ a b, (join a b).isText = false)
    (h : ReadsText operand) : ReadsText (leftLevel operator? operand) :=
  stays_bound.readsText fun n => h.bind (trails_chain ends joined n)

/-- The joined texts after the first one: none, or a sign of joining stands here. -/
theorem concatRest_eq_ok {n : Nat} {r r' : Reader} {es : List Expr}
    (h : concatRest operand n r = .ok (es, r')) :
    (es = [] ∧ r' = r) ∨ (es ≠ [] ∧ r.token = .symbol .tilde) := by
  cases n with
  | zero =>
    rcases pure_eq_ok.mp h with ⟨rfl, rfl⟩
    exact .inl ⟨rfl, rfl⟩
  | succ n =>
    rcases bind_eq_ok.mp h with ⟨found, r₁, h₁, h₂⟩
    rcases skipIf_eq_ok h₁ with ⟨rfl, token, -⟩ | ⟨rfl, -, rfl⟩
    · rcases bind_eq_ok.mp h₂ with ⟨e, r₂, -, h₃⟩
      rcases bind_eq_ok.mp h₃ with ⟨es', r₃, -, h₄⟩
      rcases pure_eq_ok.mp h₄ with ⟨rfl, -⟩
      exact .inr ⟨List.cons_ne_nil _ _, token⟩
    · rcases pure_eq_ok.mp h₂ with ⟨rfl, rfl⟩
      exact .inl ⟨rfl, rfl⟩

theorem ReadsText.concatLevel (h : ReadsText operand) : ReadsText (concatLevel operand) := by
  refine h.bind (stays_bound.trails fun n => ?_)
  intro a r e r' ok
  rcases bind_eq_ok.mp ok with ⟨es, r₁, h₁, h₂⟩
  rcases concatRest_eq_ok h₁ with ⟨rfl, rfl⟩ | ⟨present, token⟩
  · rcases pure_eq_ok.mp h₂ with ⟨rfl, rfl⟩
    exact .inl ⟨rfl, rfl⟩
  · cases es with
    | nil => exact absurd rfl present
    | cons x xs =>
      rcases pure_eq_ok.mp h₂ with ⟨rfl, -⟩
      rw [token]
      exact .inr ⟨rfl, rfl⟩

theorem compareOp?_of_endsText {t : Token} (h : t.endsText = true) : compareOp? t = none := by
  rcases endsText_cases h with rfl | rfl | rfl | rfl | rfl | rfl <;> rfl

/-- A comparison: there is none, or its sign stands here. -/
theorem comparison?_eq_ok {r r' : Reader} {op : Option CompareOp}
    (h : comparison? r = .ok (op, r')) :
    (op = none ∧ r' = r) ∨ (op ≠ none ∧ r.token.endsText = false) := by
  rcases bind_eq_ok.mp h with ⟨l, r₁, h₁, h₂⟩
  rcases current_eq_ok h₁ with ⟨token, rfl⟩
  rw [← token]
  cases hop : compareOp? l.token with
  | some op' =>
    simp only [hop] at h₂
    rcases bind_eq_ok.mp h₂ with ⟨_, r₂, -, h₃⟩
    rcases pure_eq_ok.mp h₃ with ⟨rfl, -⟩
    exact .inr ⟨Option.some_ne_none _, endsText_eq_false (fun _ => compareOp?_of_endsText) hop⟩
  | none =>
    simp only [hop] at h₂
    by_cases hnot : (l.token == .name "not") = true
    · rw [if_pos hnot] at h₂
      rw [eq_of_beq hnot]
      rcases bind_eq_ok.mp h₂ with ⟨t, r₂, h₃, h₄⟩
      rcases look_eq_ok h₃ with ⟨-, rfl⟩
      split at h₄
      · rcases bind_eq_ok.mp h₄ with ⟨_, r₃, -, h₅⟩
        rcases bind_eq_ok.mp h₅ with ⟨_, r₄, -, h₆⟩
        rcases pure_eq_ok.mp h₆ with ⟨rfl, -⟩
        exact .inr ⟨Option.some_ne_none _, by decide⟩
      · rcases pure_eq_ok.mp h₄ with ⟨rfl, rfl⟩
        exact .inl ⟨rfl, rfl⟩
    · rw [if_neg hnot] at h₂
      rcases pure_eq_ok.mp h₂ with ⟨rfl, rfl⟩
      exact .inl ⟨rfl, rfl⟩

/-- The comparisons after a value: none, or the sign of the first stands here. -/
theorem compareRest_eq_ok {n : Nat} {r r' : Reader} {es : List (CompareOp × Expr)}
    (h : compareRest operand n r = .ok (es, r')) :
    (es = [] ∧ r' = r) ∨ (es ≠ [] ∧ r.token.endsText = false) := by
  cases n with
  | zero =>
    rcases pure_eq_ok.mp h with ⟨rfl, rfl⟩
    exact .inl ⟨rfl, rfl⟩
  | succ n =>
    rcases bind_eq_ok.mp h with ⟨op, r₁, h₁, h₂⟩
    rcases comparison?_eq_ok h₁ with ⟨rfl, rfl⟩ | ⟨present, token⟩
    · rcases pure_eq_ok.mp h₂ with ⟨rfl, rfl⟩
      exact .inl ⟨rfl, rfl⟩
    · cases op with
      | none => exact absurd rfl present
      | some op =>
        rcases bind_eq_ok.mp h₂ with ⟨e, r₂, -, h₃⟩
        rcases bind_eq_ok.mp h₃ with ⟨es', r₃, -, h₄⟩
        rcases pure_eq_ok.mp h₄ with ⟨rfl, -⟩
        exact .inr ⟨List.cons_ne_nil _ _, token⟩

theorem ReadsText.compareLevel (h : ReadsText operand) : ReadsText (compareLevel operand) := by
  refine h.bind (stays_bound.trails fun n => ?_)
  intro a r e r' ok
  rcases bind_eq_ok.mp ok with ⟨es, r₁, h₁, h₂⟩
  rcases compareRest_eq_ok h₁ with ⟨rfl, rfl⟩ | ⟨present, token⟩
  · rcases pure_eq_ok.mp h₂ with ⟨rfl, rfl⟩
    exact .inl ⟨rfl, rfl⟩
  · cases es with
    | nil => exact absurd rfl present
    | cons x xs =>
      rcases pure_eq_ok.mp h₂ with ⟨rfl, -⟩
      exact .inr ⟨rfl, token⟩

theorem Reader.token_of_tokens {r : Reader} {t : Token} {ts : List Token}
    (h : r.tokens = t :: ts) : r.token = t := by
  rw [Reader.token, h]
  rfl

/-- A word or a sign before a value makes something that is no text of it. -/
theorem ReadsText.prefixed {t : Token} (ht : t.isString = false) {p q : Parse Expr}
    (hp : ∀ ⦃r e r'⦄, p r = .ok (e, r') → e.isText = false) (hq : ReadsText q) :
    ReadsText (do if ← skipIf t then p else q) := by
  constructor
  · intro r e r' h text
    rcases bind_eq_ok.mp h with ⟨found, r₁, h₁, h₂⟩
    rcases skipIf_eq_ok h₁ with ⟨rfl, -, -⟩ | ⟨rfl, -, rfl⟩
    · rw [hp h₂] at text
      exact Bool.noConfusion text
    · exact hq.first h₂ text
  · intro r e r' s ts h tokens next
    rcases bind_eq_ok.mp h with ⟨found, r₁, h₁, h₂⟩
    rcases skipIf_eq_ok h₁ with ⟨rfl, token, -⟩ | ⟨rfl, -, rfl⟩
    · rw [Reader.token_of_tokens tokens] at token
      rw [← token] at ht
      exact Bool.noConfusion ht
    · exact hq.single h₂ tokens next

theorem ReadsText.notLevel (h : ReadsText operand) (n : Nat) : ReadsText (notLevel operand n) := by
  cases n with
  | zero => exact h
  | succ n =>
    refine ReadsText.prefixed rfl (fun r e r' ok => ?_) h
    rcases bind_eq_ok.mp ok with ⟨e', r₁, -, h₂⟩
    rcases pure_eq_ok.mp h₂ with ⟨rfl, -⟩
    rfl

theorem wordOp?_eq_some {word : String} {join join' : Expr → Expr → Expr} {t : Token}
    (h : wordOp? word join t = some join') : t = .name word ∧ join' = join := by
  unfold wordOp? at h
  by_cases ht : (t == .name word) = true
  · rw [if_pos ht] at h
    exact ⟨eq_of_beq ht, (Option.some.inj h).symm⟩
  · rw [if_neg ht] at h
    exact absurd h (Option.some_ne_none _).symm

theorem ReadsText.wordLevel (word : String) (join : Expr → Expr → Expr)
    (ends : (Token.name word).endsText = false) (joined : ∀ a b, (join a b).isText = false)
    (h : ReadsText operand) :
    ReadsText (Template.leftLevel (wordOp? word join) operand) := by
  refine ReadsText.leftLevel (fun t ht => ?_) (fun t join' hop => ?_) h
  · cases hop : wordOp? word join t with
    | none => rfl
    | some join' =>
      rw [(wordOp?_eq_some hop).1, ends] at ht
      exact Bool.noConfusion ht
  · rw [(wordOp?_eq_some hop).2]
    exact joined

theorem productOp?_isText {t : Token} {join : Expr → Expr → Expr} (h : productOp? t = some join)
    (a b : Expr) : (join a b).isText = false := by
  unfold productOp? at h
  split at h
  all_goals first | exact absurd h (Option.some_ne_none _).symm | rw [← Option.some.inj h]; rfl

theorem sumOp?_isText {t : Token} {join : Expr → Expr → Expr} (h : sumOp? t = some join)
    (a b : Expr) : (join a b).isText = false := by
  unfold sumOp? at h
  split at h
  all_goals first | exact absurd h (Option.some_ne_none _).symm | rw [← Option.some.inj h]; rfl

theorem powerOp?_isText {t : Token} {join : Expr → Expr → Expr} (h : powerOp? t = some join)
    (a b : Expr) : (join a b).isText = false := by
  unfold powerOp? at h
  split at h
  all_goals first | exact absurd h (Option.some_ne_none _).symm | rw [← Option.some.inj h]; rfl

theorem powerOp?_of_endsText {t : Token} (h : t.endsText = true) : powerOp? t = none := by
  rcases endsText_cases h with rfl | rfl | rfl | rfl | rfl | rfl <;> rfl

theorem productOp?_of_endsText {t : Token} (h : t.endsText = true) : productOp? t = none := by
  rcases endsText_cases h with rfl | rfl | rfl | rfl | rfl | rfl <;> rfl

theorem sumOp?_of_endsText {t : Token} (h : t.endsText = true) : sumOp? t = none := by
  rcases endsText_cases h with rfl | rfl | rfl | rfl | rfl | rfl <;> rfl

theorem ReadsText.orLevel (h : ReadsText operand) : ReadsText (orLevel operand) := by
  have power := h.leftLevel (fun _ => powerOp?_of_endsText) fun _ _ => powerOp?_isText
  have product := power.leftLevel (fun _ => productOp?_of_endsText) fun _ _ => productOp?_isText
  have sum := product.concatLevel.leftLevel (fun _ => sumOp?_of_endsText) fun _ _ => sumOp?_isText
  have negation := stays_bound.readsText fun n => sum.compareLevel.notLevel n
  have and_ := negation.wordLevel "and" .and (by decide) fun _ _ => rfl
  exact and_.wordLevel "or" .or (by decide) fun _ _ => rfl

theorem trails_choices (n line : Nat) : Trails (choices operand n line) := by
  induction n generalizing line with
  | zero =>
    intro a r e r' h
    rcases pure_eq_ok.mp h with ⟨rfl, rfl⟩
    exact .inl ⟨rfl, rfl⟩
  | succ n ih =>
    intro a r e r' h
    rcases bind_eq_ok.mp h with ⟨found, r₁, h₁, h₂⟩
    rcases skipIf_eq_ok h₁ with ⟨rfl, token, -⟩ | ⟨rfl, -, rfl⟩
    · have larger (test : Expr) (no : Option Expr) (r₀ : Reader)
          (ok : (current >>= fun l => choices operand n l.line (.cond test a no line)) r₀ =
            .ok (e, r')) : e.isText = false := by
        rcases bind_eq_ok.mp ok with ⟨l, r₂, -, h₃⟩
        rcases ih _ h₃ with ⟨rfl, -⟩ | ⟨other, -⟩
        · rfl
        · exact other
      refine .inr ⟨?_, by rw [token]; decide⟩
      rcases bind_eq_ok.mp h₂ with ⟨test, r₂, -, h₃⟩
      rcases bind_eq_ok.mp h₃ with ⟨found, r₃, -, h₄⟩
      cases found with
      | false => exact larger test none r₃ h₄
      | true =>
        rcases bind_eq_ok.mp h₄ with ⟨l, r₄, -, h₅⟩
        rcases bind_eq_ok.mp h₅ with ⟨first, r₅, -, h₆⟩
        rcases bind_eq_ok.mp h₆ with ⟨no, r₆, -, h₇⟩
        exact larger test no r₆ h₇
    · rcases pure_eq_ok.mp h₂ with ⟨rfl, rfl⟩
      exact .inl ⟨rfl, rfl⟩

theorem ReadsText.choiceLevel (h : ReadsText operand) : ReadsText (choiceLevel operand) :=
  stays_current.readsText fun l => stays_bound.readsText fun n => h.bind (trails_choices n l.line)

end Levels

section Following

variable {expr : Parse Expr}

theorem accessor_isText {e e' : Expr} {r r' : Reader} (h : accessor expr e r = .ok (e', r')) :
    e'.isText = false := by
  rcases bind_eq_ok.mp h with ⟨l, r₁, -, h₁⟩
  split at h₁
  · rcases bind_eq_ok.mp h₁ with ⟨key, r₂, -, h₂⟩
    cases ht : key.token with
    | name s =>
      simp only [ht] at h₂
      rw [← (pure_eq_ok.mp h₂).1]
      rfl
    | integer n =>
      simp only [ht] at h₂
      rw [← (pure_eq_ok.mp h₂).1]
      rfl
    | _ =>
      simp only [ht] at h₂
      exact absurd h₂ failAt_ne_ok
  · rcases bind_eq_ok.mp h₁ with ⟨n, r₂, -, h₂⟩
    rcases bind_eq_ok.mp h₂ with ⟨keys, r₃, -, h₃⟩
    rcases bind_eq_ok.mp h₃ with ⟨_, r₄, -, h₄⟩
    split at h₄
    · rw [← (pure_eq_ok.mp h₄).1]
      rfl
    · rw [← (pure_eq_ok.mp h₄).1]
      rfl

theorem trails_accessors (n : Nat) : Trails (accessors expr n) := by
  induction n with
  | zero =>
    intro a r e r' h
    rcases pure_eq_ok.mp h with ⟨rfl, rfl⟩
    exact .inl ⟨rfl, rfl⟩
  | succ n ih =>
    -- Once a value is larger than a text, it stays so.
    have larger {a : Expr} (ha : a.isText = false) {r₀ r' : Reader} {e : Expr}
        (ok : accessors expr n a r₀ = .ok (e, r')) : e.isText = false := by
      rcases ih ok with ⟨rfl, -⟩ | ⟨other, -⟩
      · exact ha
      · exact other
    intro a r e r' h
    rcases bind_eq_ok.mp h with ⟨l, r₁, h₁, h₂⟩
    rcases current_eq_ok h₁ with ⟨token, rfl⟩
    have unchanged (ok : (pure a : Parse Expr) r₁ = .ok (e, r')) : e = a ∧ r' = r₁ := by
      rcases pure_eq_ok.mp ok with ⟨rfl, rfl⟩
      exact ⟨rfl, rfl⟩
    rw [← token]
    cases ht : l.token with
    | symbol s =>
      cases s with
      | dot =>
        simp only [ht] at h₂
        rcases bind_eq_ok.mp h₂ with ⟨a', r₂, h₃, h₄⟩
        exact .inr ⟨larger (accessor_isText h₃) h₄, rfl⟩
      | openBracket =>
        simp only [ht] at h₂
        rcases bind_eq_ok.mp h₂ with ⟨a', r₂, h₃, h₄⟩
        exact .inr ⟨larger (accessor_isText h₃) h₄, rfl⟩
      | openParen =>
        simp only [ht] at h₂
        rcases bind_eq_ok.mp h₂ with ⟨args, r₂, -, h₄⟩
        exact .inr ⟨larger rfl h₄, rfl⟩
      | _ =>
        simp only [ht] at h₂
        exact .inl (unchanged h₂)
    | _ =>
      simp only [ht] at h₂
      exact .inl (unchanged h₂)

/-- Filters on a value give that value, or something that is no text. -/
theorem filters_eq_ok {n : Nat} {a : Expr} {o : Option Expr} {r r' : Reader}
    (h : filters expr n (some a) r = .ok (o, r')) :
    ∃ e, o = some e ∧ (e = a ∨ e.isText = false) := by
  induction n generalizing a r with
  | zero =>
    rcases pure_eq_ok.mp h with ⟨rfl, rfl⟩
    exact ⟨a, rfl, .inl rfl⟩
  | succ n ih =>
    rcases bind_eq_ok.mp h with ⟨found, r₁, h₁, h₂⟩
    cases found with
    | false =>
      rcases pure_eq_ok.mp h₂ with ⟨rfl, rfl⟩
      exact ⟨a, rfl, .inl rfl⟩
    | true =>
      rcases bind_eq_ok.mp h₂ with ⟨a', r₂, h₃, h₄⟩
      -- Each filter that is read wraps what it was given, so it makes no text.
      rcases ih h₄ with ⟨e, rfl, same | other⟩
      · rcases bind_eq_ok.mp h₃ with ⟨name, r₃, -, h₅⟩
        rcases bind_eq_ok.mp h₅ with ⟨args, r₄, -, h₆⟩
        refine ⟨e, rfl, .inr ?_⟩
        rw [same, ← (pure_eq_ok.mp h₆).1]
        rfl
      · exact ⟨e, rfl, .inr other⟩

/-- The first filter on a value makes something that is no text. -/
theorem filters_isText {n : Nat} {a : Expr} {o : Option Expr} {r r' : Reader}
    (bar : r.token = .symbol .bar) (h : filters expr (n + 1) (some a) r = .ok (o, r')) :
    (o.getD a).isText = false := by
  rcases bind_eq_ok.mp h with ⟨found, r₁, h₁, h₂⟩
  rcases skipIf_eq_ok h₁ with ⟨rfl, -, -⟩ | ⟨-, other, -⟩
  · rcases bind_eq_ok.mp h₂ with ⟨a', r₂, h₃, h₄⟩
    rcases filters_eq_ok h₄ with ⟨e, rfl, same | other⟩
    · rcases bind_eq_ok.mp h₃ with ⟨name, r₃, -, h₅⟩
      rcases bind_eq_ok.mp h₅ with ⟨args, r₄, -, h₆⟩
      rw [Option.getD_some, same, ← (pure_eq_ok.mp h₆).1]
      rfl
    · exact other
  · exact absurd bar other

theorem testOf_isText {operand : Parse Expr} {e e' : Expr} {line : Nat} {r r' : Reader}
    (h : testOf expr operand e line r = .ok (e', r')) : e'.isText = false := by
  rcases bind_eq_ok.mp h with ⟨negated, r₁, -, h₁⟩
  rcases bind_eq_ok.mp h₁ with ⟨name, r₂, -, h₂⟩
  rcases bind_eq_ok.mp h₂ with ⟨l, r₃, -, h₃⟩
  have made (args : Arguments) (r₀ : Reader)
      (ok : (pure (if negated = true then .not (.test e name.1 args line)
        else .test e name.1 args line) : Parse Expr) r₀ = .ok (e', r')) : e'.isText = false := by
    rw [← (pure_eq_ok.mp ok).1]
    split
    · rfl
    · rfl
  dsimp only at h₃
  split at h₃
  · rcases bind_eq_ok.mp h₃ with ⟨args, r₄, -, h₄⟩
    exact made args r₄ h₄
  · split at h₃
    · split at h₃
      · rcases bind_eq_ok.mp h₃ with ⟨_, _, failed, -⟩
        exact absurd failed fail_ne_ok
      · rcases bind_eq_ok.mp h₃ with ⟨a, r₄, -, h₄⟩
        exact made _ r₄ h₄
    · exact made _ r₃ h₃

theorem trails_trailers {operand : Parse Expr} (n : Nat) : Trails (trailers expr operand n) := by
  induction n with
  | zero =>
    intro a r e r' h
    rcases pure_eq_ok.mp h with ⟨rfl, rfl⟩
    exact .inl ⟨rfl, rfl⟩
  | succ n ih =>
    -- Once a value is larger than a text, it stays so.
    have larger {a : Expr} (ha : a.isText = false) {r₀ r' : Reader} {e : Expr}
        (ok : trailers expr operand n a r₀ = .ok (e, r')) : e.isText = false := by
      rcases ih ok with ⟨rfl, -⟩ | ⟨other, -⟩
      · exact ha
      · exact other
    intro a r e r' h
    rcases bind_eq_ok.mp h with ⟨l, r₁, h₁, h₂⟩
    rcases current_eq_ok h₁ with ⟨token, rfl⟩
    rw [← token]
    by_cases bar : (l.token == .symbol .bar) = true
    · rw [if_pos bar] at h₂
      rcases bind_eq_ok.mp h₂ with ⟨m, r₂, h₃, h₄⟩
      rcases bound_eq_ok h₃ with ⟨rfl, rfl⟩
      rcases bind_eq_ok.mp h₄ with ⟨o, r₃, h₅, h₆⟩
      rw [eq_of_beq bar]
      refine .inr ⟨larger (filters_isText ?_ h₅) h₆, rfl⟩
      rw [← token, eq_of_beq bar]
    rw [if_neg bar] at h₂
    by_cases is : (l.token == .name "is") = true
    · rw [if_pos is] at h₂
      rcases bind_eq_ok.mp h₂ with ⟨_, r₂, -, h₄⟩
      rcases bind_eq_ok.mp h₄ with ⟨a', r₃, h₅, h₆⟩
      rw [eq_of_beq is]
      exact .inr ⟨larger (testOf_isText h₅) h₆, by decide⟩
    rw [if_neg is] at h₂
    by_cases paren : (l.token == .symbol .openParen) = true
    · rw [if_pos paren] at h₂
      rcases bind_eq_ok.mp h₂ with ⟨args, r₂, -, h₄⟩
      rw [eq_of_beq paren]
      exact .inr ⟨larger rfl h₄, rfl⟩
    · rw [if_neg paren] at h₂
      rcases pure_eq_ok.mp h₂ with ⟨rfl, rfl⟩
      exact .inl ⟨rfl, rfl⟩

theorem ofWord_isText (s : String) : (ofWord s).isText = false := by
  unfold ofWord
  split
  · rfl
  · split
    · rfl
    · split
      · rfl
      · rfl

theorem adjacentTexts_eq_ok {n : Nat} {s t : String} {r r' : Reader}
    (h : adjacentTexts n s r = .ok (t, r')) (next : r.token.isString = false) :
    t = s ∧ r' = r := by
  cases n with
  | zero =>
    rcases pure_eq_ok.mp h with ⟨rfl, rfl⟩
    exact ⟨rfl, rfl⟩
  | succ n =>
    rcases bind_eq_ok.mp h with ⟨l, r₁, h₁, h₂⟩
    rcases current_eq_ok h₁ with ⟨token, rfl⟩
    rw [← token] at next
    cases ht : l.token with
    | string u =>
      rw [ht] at next
      exact Bool.noConfusion next
    | _ =>
      simp only [ht] at h₂
      rcases pure_eq_ok.mp h₂ with ⟨rfl, rfl⟩
      exact ⟨rfl, rfl⟩

theorem readsText_primary : ReadsText (primary expr) := by
  constructor
  · intro r e r' h text
    rcases bind_eq_ok.mp h with ⟨l, r₁, h₁, h₂⟩
    rcases current_eq_ok h₁ with ⟨token, rfl⟩
    rw [← token]
    -- Each kind of value but a text and a parenthesis makes a node of its own.
    cases ht : l.token with
    | string s => exact .inl rfl
    | name s =>
      simp only [ht] at h₂
      rcases bind_eq_ok.mp h₂ with ⟨_, r₂, -, h₃⟩
      rw [← (pure_eq_ok.mp h₃).1, ofWord_isText] at text
      exact Bool.noConfusion text
    | integer n =>
      simp only [ht] at h₂
      rcases bind_eq_ok.mp h₂ with ⟨_, r₂, -, h₃⟩
      rw [← (pure_eq_ok.mp h₃).1] at text
      exact Bool.noConfusion text
    | float x =>
      simp only [ht] at h₂
      rcases bind_eq_ok.mp h₂ with ⟨_, r₂, -, h₃⟩
      rw [← (pure_eq_ok.mp h₃).1] at text
      exact Bool.noConfusion text
    | symbol s =>
      cases s with
      | openParen => exact .inr rfl
      | openBracket =>
        simp only [ht] at h₂
        rcases bind_eq_ok.mp h₂ with ⟨_, r₂, -, h₃⟩
        rcases bind_eq_ok.mp h₃ with ⟨_, r₃, -, h₄⟩
        rcases bind_eq_ok.mp h₄ with ⟨_, r₄, -, h₅⟩
        rcases bind_eq_ok.mp h₅ with ⟨_, r₅, -, h₆⟩
        rw [← (pure_eq_ok.mp h₆).1] at text
        exact Bool.noConfusion text
      | openBrace =>
        simp only [ht] at h₂
        rcases bind_eq_ok.mp h₂ with ⟨_, r₂, -, h₃⟩
        rcases bind_eq_ok.mp h₃ with ⟨_, r₃, -, h₄⟩
        rcases bind_eq_ok.mp h₄ with ⟨_, r₄, -, h₅⟩
        rcases bind_eq_ok.mp h₅ with ⟨_, r₅, -, h₆⟩
        rw [← (pure_eq_ok.mp h₆).1] at text
        exact Bool.noConfusion text
      | _ =>
        simp only [ht] at h₂
        exact absurd h₂ failAt_ne_ok
    | _ =>
      simp only [ht] at h₂
      exact absurd h₂ failAt_ne_ok
  · intro r e r' s ts h tokens next
    rcases bind_eq_ok.mp h with ⟨l, r₁, h₁, h₂⟩
    rcases current_eq_ok h₁ with ⟨token, rfl⟩
    rw [Reader.token_of_tokens tokens] at token
    simp only [token] at h₂
    rcases bind_eq_ok.mp h₂ with ⟨_, r₂, h₃, h₄⟩
    rcases bind_eq_ok.mp h₄ with ⟨n, r₃, h₅, h₆⟩
    rw [(bound_eq_ok h₅).2] at h₆
    rcases bind_eq_ok.mp h₆ with ⟨t, r₄, h₇, h₈⟩
    rcases pure_eq_ok.mp h₈ with ⟨rfl, rfl⟩
    have rest : r₂.tokens = ts := by
      rw [(advance_eq_ok h₃).2.1, tokens]
      rfl
    -- The next token is no text, so nothing is joined.
    rcases adjacentTexts_eq_ok h₇ (by rw [Reader.token, rest]; exact next) with ⟨rfl, rfl⟩
    exact .inl ⟨rfl, rest⟩

theorem readsText_operand : ReadsText (operand expr) :=
  readsText_primary.bind (stays_bound.trails fun n => trails_accessors n)

theorem readsText_signed (n : Nat) : ReadsText (signed expr n) := by
  cases n with
  | zero => exact readsText_operand
  | succ n =>
    have sign (op : UnaryOp) ⦃r : Reader⦄ ⦃e : Expr⦄ ⦃r' : Reader⦄ (ok : (do
        let e ← signed expr n
        accessors expr (← bound) (.unary op e)) r = .ok (e, r')) : e.isText = false := by
      rcases bind_eq_ok.mp ok with ⟨a, r₁, -, h₁⟩
      rcases bind_eq_ok.mp h₁ with ⟨m, r₂, -, h₂⟩
      rcases trails_accessors m h₂ with ⟨rfl, -⟩ | ⟨other, -⟩
      · rfl
      · exact other
    exact ReadsText.prefixed rfl (sign .neg) (ReadsText.prefixed rfl (sign .pos) readsText_operand)

theorem readsText_unaryLevel : ReadsText (unaryLevel expr) :=
  stays_bound.readsText fun n =>
    (readsText_signed n).bind (stays_bound.trails fun m => trails_trailers m)

end Following

theorem readsText_expr : ReadsText expr := by
  refine stays_bound.readsText fun n => ?_
  cases n with
  | zero => exact ⟨fun _ _ _ h => absurd h fail_ne_ok, fun _ _ _ _ _ h => absurd h fail_ne_ok⟩
  | succ n => exact readsText_unaryLevel.orLevel.choiceLevel

end Template

end Stencil
