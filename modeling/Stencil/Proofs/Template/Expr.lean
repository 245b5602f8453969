import Stencil.Template.Parse.Expr
import Stencil.Proofs.Template.Reader

/-!
# Expressions Stay in Their Tag

Parsing an expression passes only tokens that stand inside of a tag.

There is one lemma for each function of the parser, in its order. A level of
operators is a function on the parser of the level below it, and so is its
lemma; the recursion from a pair of brackets back to the top is an induction
on the count that bounds it.

## Theorems

* `passes_expr`, `passes_tupleExpr`: Expressions.
* `passes_target`, `passes_nameTarget`: Places that values are written to.
* `Passes.filters`, `Passes.callArguments`: What can follow a value.
-/

namespace Stencil

namespace Template

theorem isInner_of_productOp? {t : Token} (h : (productOp? t).isSome) : t.isInner = true := by
  cases t with
  | symbol s => rfl
  | _ => exact Bool.noConfusion h

theorem isInner_of_sumOp? {t : Token} (h : (sumOp? t).isSome) : t.isInner = true := by
  cases t with
  | symbol s => rfl
  | _ => exact Bool.noConfusion h

theorem isInner_of_powerOp? {t : Token} (h : (powerOp? t).isSome) : t.isInner = true := by
  cases t with
  | symbol s => rfl
  | _ => exact Bool.noConfusion h

theorem isInner_of_compareOp? {t : Token} (h : (compareOp? t).isSome) : t.isInner = true := by
  cases t with
  | symbol s => rfl
  | name s => rfl
  | _ => exact Bool.noConfusion h

theorem isInner_of_wordOp? {word : String} {join : Expr → Expr → Expr} {t : Token}
    (h : (wordOp? word join t).isSome) : t.isInner = true := by
  unfold wordOp? at h
  by_cases ht : (t == .name word) = true
  · rw [eq_of_beq ht]
    rfl
  · rw [if_neg ht] at h
    exact Bool.noConfusion h

section Levels

variable {operand : Parse Expr}

theorem Passes.leftLevel {operator? : Token → Option (Expr → Expr → Expr)}
    (inner : ∀ t, (operator? t).isSome → t.isInner = true) (h : Passes operand) :
    Passes (leftLevel operator? operand) :=
  Passes.bind passes_bound fun n => Passes.bind h fun a => h.chain inner n a

theorem Passes.concatRest (h : Passes operand) (n : Nat) : Passes (concatRest operand n) := by
  induction n with
  | zero => exact passes_pure _
  | succ n ih =>
    refine Passes.bind (passes_skipIf rfl) fun _ => Passes.ite ?_ (passes_pure _)
    exact Passes.bind h fun _ => Passes.bind ih fun _ => passes_pure _

theorem Passes.concatLevel (h : Passes operand) : Passes (concatLevel operand) := by
  refine Passes.bind h fun first => Passes.bind passes_bound fun n => ?_
  refine Passes.bind (h.concatRest n) fun rest => ?_
  split
  · exact passes_pure _
  · exact passes_pure _

theorem passes_comparison? : Passes comparison? := by
  refine passes_current fun l => ?_
  dsimp only
  cases h : compareOp? l.token with
  | some op =>
    refine PassesAt.advance_bind (isInner_of_compareOp? ?_) fun _ => passes_pure _
    rw [h]
    rfl
  | none =>
    by_cases ht : (l.token == .name "not") = true
    · rw [if_pos ht, eq_of_beq ht]
      refine PassesAt.look_bind (PassesAtBoth.advance_bind rfl fun _ => ?_)
        ((passes_pure _).at_ _)
      exact PassesAt.advance_bind rfl fun _ => passes_pure _
    · rw [if_neg ht]
      exact (passes_pure _).at_ _

theorem Passes.compareRest (h : Passes operand) (n : Nat) : Passes (compareRest operand n) := by
  induction n with
  | zero => exact passes_pure _
  | succ n ih =>
    refine Passes.bind passes_comparison? fun op => ?_
    cases op with
    | none => exact passes_pure _
    | some op => exact Passes.bind h fun _ => Passes.bind ih fun _ => passes_pure _

theorem Passes.compareLevel (h : Passes operand) : Passes (compareLevel operand) := by
  refine Passes.bind h fun first => Passes.bind passes_bound fun n => ?_
  refine Passes.bind (h.compareRest n) fun rest => ?_
  split
  · exact passes_pure _
  · exact passes_pure _

theorem Passes.notLevel (h : Passes operand) (n : Nat) : Passes (notLevel operand n) := by
  induction n with
  | zero => exact h
  | succ n ih =>
    refine Passes.bind (passes_skipIf rfl) fun _ => Passes.ite ?_ h
    exact Passes.bind ih fun _ => passes_pure _

theorem Passes.orLevel (h : Passes operand) : Passes (orLevel operand) := by
  have power := Passes.leftLevel (fun _ => isInner_of_powerOp?) h
  have product := Passes.leftLevel (fun _ => isInner_of_productOp?) power
  have sum := Passes.leftLevel (fun _ => isInner_of_sumOp?) product.concatLevel
  have negation := Passes.bind passes_bound fun n => sum.compareLevel.notLevel n
  exact Passes.leftLevel (fun _ => isInner_of_wordOp?)
    (Passes.leftLevel (fun _ => isInner_of_wordOp?) negation)

theorem Passes.choices (h : Passes operand) (n line : Nat) (e : Expr) :
    Passes (choices operand n line e) := by
  induction n generalizing line e with
  | zero => exact passes_pure _
  | succ n ih =>
    refine Passes.bind (passes_skipIf rfl) fun _ => Passes.ite ?_ (passes_pure _)
    refine Passes.bind h fun test => Passes.bind (passes_skipIf rfl) fun _ => ?_
    refine Passes.ite ?_ (passes_current fun l => (ih _ _).at_ _)
    refine passes_current fun l => Passes.at_ (Passes.bind h fun first => ?_) _
    exact Passes.bind ((ih _ _).map some) fun _ => passes_current fun _ => (ih _ _).at_ _

theorem Passes.choiceLevel (h : Passes operand) : Passes (choiceLevel operand) := by
  refine passes_current fun l => Passes.at_ (Passes.bind passes_bound fun n => ?_) _
  exact Passes.bind h fun e => h.choices n _ e

end Levels

theorem passes_ofTupleItems (inParens : Bool) (found : List Expr × Bool) :
    Passes (ofTupleItems inParens found) := by
  unfold ofTupleItems
  split
  · exact passes_pure _
  · exact Passes.ite (passes_pure _) (passes_current fun _ => (passes_fail _).at_ _)
  · exact passes_pure _

theorem passes_dottedRest (n : Nat) (s : String) : Passes (dottedRest n s) := by
  induction n generalizing s with
  | zero => exact passes_pure _
  | succ n ih =>
    refine Passes.bind (passes_skipIf rfl) fun _ => Passes.ite ?_ (passes_pure _)
    exact Passes.bind passes_expectName fun _ => ih _

theorem passes_dottedName : Passes dottedName := by
  refine Passes.bind passes_expectName fun _ => Passes.bind passes_bound fun n => ?_
  exact Passes.bind (passes_dottedRest n _) fun _ => passes_pure _

section Following

variable {expr : Parse Expr}

theorem Passes.argument (h : Passes expr) {check : Argument → Parse Unit}
    (stays : ∀ a, Stays (check a)) : Passes (argument expr check) := by
  have positional : Passes (do
      check (.positional default)
      return Argument.positional (← expr)) :=
    fun r a r' ok =>
      (stays _).bind_at (fun _ => (Passes.bind h fun _ => passes_pure _).at_ _) rfl ok
  refine passes_current fun l => ?_
  dsimp only
  -- A star, two stars and a name with an equals sign are told by the next tokens.
  by_cases mul : (l.token == .symbol .mul) = true
  · rw [if_pos mul, eq_of_beq mul]
    refine (stays _).bind_at fun _ => PassesAt.advance_bind rfl fun _ => ?_
    exact Passes.bind h fun _ => passes_pure _
  rw [if_neg mul]
  by_cases pow : (l.token == .symbol .pow) = true
  · rw [if_pos pow, eq_of_beq pow]
    refine (stays _).bind_at fun _ => PassesAt.advance_bind rfl fun _ => ?_
    exact Passes.bind h fun _ => passes_pure _
  rw [if_neg pow]
  split
  · next key token =>
    rw [token]
    refine PassesAt.look_bind ((stays _).bind_atBoth fun _ => ?_) (positional.at_ _)
    refine PassesAtBoth.advance_bind rfl fun _ => PassesAt.advance_bind rfl fun _ => ?_
    exact Passes.bind h fun _ => passes_pure _
  · exact positional.at_ _

theorem Passes.argumentsFrom (h : Passes expr) (line : Nat) (started : Bool) (args : Arguments)
    (n : Nat) : Passes (argumentsFrom expr line started args n) := by
  induction n generalizing started args with
  | zero => exact passes_pure _
  | succ n ih =>
    have more : Passes (do
        let a ← Template.argument expr fun a =>
          if (args.add? a).isSome then pure ()
          else failAt line "invalid syntax for function call expression"
        Template.argumentsFrom expr line true ((args.add? a).getD args) n) := by
      refine Passes.bind (h.argument fun a r x r' ok => ?_) fun a => ih _ _
      split at ok
      · exact (pure_eq_ok.mp ok).2.symm
      · exact absurd ok failAt_ne_ok
    refine Passes.bind (passes_currentIs _) fun _ => ?_
    refine Passes.ite (passes_pure _) (Passes.ite ?_ more)
    refine Passes.bind (passes_expectSymbol _) fun _ => ?_
    exact Passes.bind (passes_currentIs _) fun _ => Passes.ite (passes_pure _) more

theorem Passes.callArguments (h : Passes expr) : Passes (callArguments expr) := by
  refine Passes.bind (passes_expectSymbol _) fun l => Passes.bind passes_bound fun n => ?_
  refine Passes.bind (h.argumentsFrom _ _ _ _) fun args => ?_
  exact Passes.bind (passes_expectSymbol _) fun _ => passes_pure _

theorem Passes.optionalArguments (h : Passes expr) : Passes (optionalArguments expr) :=
  Passes.bind (passes_currentIs _) fun _ => Passes.ite h.callArguments (passes_pure _)

theorem Passes.oneFilter (h : Passes expr) (e : Option Expr) : Passes (oneFilter expr e) := by
  refine Passes.bind passes_dottedName fun _ => Passes.bind h.optionalArguments fun _ => ?_
  exact passes_pure _

theorem Passes.filters (h : Passes expr) (n : Nat) (e : Option Expr) :
    Passes (filters expr n e) := by
  induction n generalizing e with
  | zero => exact passes_pure _
  | succ n ih =>
    refine Passes.bind (passes_skipIf rfl) fun _ => Passes.ite ?_ (passes_pure _)
    exact Passes.bind (h.oneFilter e) fun _ => ih _

theorem Passes.slicePart (h : Passes expr) : Passes (slicePart expr) :=
  passes_current fun _ => (Passes.ite (passes_pure _) (h.map some)).at_ _

theorem Passes.subscript (h : Passes expr) : Passes (subscript expr) := by
  -- Every part of a slice may be missing, so it is read from any of its colons on.
  have step (start stop : Option Expr) : Passes (do
      let step ← if ← skipIf (.symbol .colon) then Template.slicePart expr else pure none
      return Expr.slice start stop step) := by
    refine Passes.bind (passes_skipIf rfl) fun _ => Passes.ite ?_ (passes_pure _)
    exact Passes.bind h.slicePart fun _ => passes_pure _
  have rest (start : Option Expr) : Passes (do
      if ← skipIf (.symbol .colon) then
        let stop ← if ← currentIs (.symbol .colon) then pure none else Template.slicePart expr
        let step ← if ← skipIf (.symbol .colon) then Template.slicePart expr else pure none
        return Expr.slice start stop step
      else return start.getD default) := by
    refine Passes.bind (passes_skipIf rfl) fun _ => Passes.ite ?_ (passes_pure _)
    refine Passes.bind (passes_currentIs _) fun _ => Passes.ite (step start none) ?_
    exact Passes.bind h.slicePart fun stop => step start stop
  refine Passes.bind (passes_currentIs _) fun _ => Passes.ite (rest none) ?_
  exact Passes.bind (h.map some) fun start => rest start

/-- An accessor relies on the bracket or the point that it starts with. -/
theorem Passes.accessor (h : Passes expr) (e : Expr) {t : Token} (ht : t.isInner = true) :
    PassesAt t (accessor expr e) := by
  refine PassesAt.advance_bind ht fun l => Passes.ite ?_ ?_
  · refine passes_advance (fun key => ?_) fun key r x outer => ?_
    · split
      · exact passes_pure _
      · exact passes_pure _
      · exact passes_failAt _ _
    · cases token : key.token with
      | name s => rw [token] at outer; exact Bool.noConfusion outer
      | integer n => rw [token] at outer; exact Bool.noConfusion outer
      | _ => exact failAt_ne_ok
  · refine Passes.bind passes_bound fun n => Passes.bind (h.subscript.listItems _ _ _ n) fun _ => ?_
    refine Passes.bind (passes_expectSymbol _) fun _ => ?_
    split
    · exact passes_pure _
    · exact passes_pure _

theorem Passes.accessors (h : Passes expr) (n : Nat) (e : Expr) : Passes (accessors expr n e) := by
  induction n generalizing e with
  | zero => exact passes_pure _
  | succ n ih =>
    refine passes_current fun l => ?_
    split
    · next token =>
      rw [token]
      exact PassesAt.bind (h.accessor e rfl) fun _ => ih _
    · next token =>
      rw [token]
      exact PassesAt.bind (h.accessor e rfl) fun _ => ih _
    · exact Passes.at_ (Passes.bind h.callArguments fun _ => ih _) _
    · exact (passes_pure _).at_ _

theorem Passes.testOf {operand : Parse Expr} (h : Passes expr) (hoperand : Passes operand)
    (e : Expr) (line : Nat) : Passes (testOf expr operand e line) := by
  refine Passes.bind (passes_skipIf rfl) fun negated => Passes.bind passes_dottedName fun _ => ?_
  refine passes_current fun l => Passes.at_ ?_ _
  refine Passes.ite (Passes.bind h.callArguments fun _ => passes_pure _) ?_
  refine Passes.ite (Passes.ite ?_ ?_) (passes_pure _)
  · exact Passes.bind (passes_fail _) fun _ => passes_pure _
  · exact Passes.bind hoperand fun _ => passes_pure _

theorem Passes.trailers {operand : Parse Expr} (h : Passes expr) (hoperand : Passes operand)
    (n : Nat) (e : Expr) : Passes (trailers expr operand n e) := by
  induction n generalizing e with
  | zero => exact passes_pure _
  | succ n ih =>
    refine passes_current fun l => ?_
    -- What trails is told by the next token, and what is read then goes on in the same way.
    by_cases bar : (l.token == .symbol .bar) = true
    · rw [if_pos bar]
      refine Passes.at_ (Passes.bind passes_bound fun n => ?_) _
      exact Passes.bind (h.filters n _) fun _ => ih _
    rw [if_neg bar]
    by_cases is : (l.token == .name "is") = true
    · rw [if_pos is, eq_of_beq is]
      refine PassesAt.advance_bind rfl fun _ => ?_
      exact Passes.bind (h.testOf hoperand e _) fun _ => ih _
    rw [if_neg is]
    exact Passes.at_ (Passes.ite (Passes.bind h.callArguments fun _ => ih _) (passes_pure _)) _

theorem passes_adjacentTexts (n : Nat) (s : String) : Passes (adjacentTexts n s) := by
  induction n generalizing s with
  | zero => exact passes_pure _
  | succ n ih =>
    refine passes_current fun l => ?_
    split
    · next token =>
      rw [token]
      exact PassesAt.advance_bind rfl fun _ => ih _
    · exact (passes_pure _).at_ _

theorem Passes.entry (h : Passes expr) : Passes (entry expr) := by
  refine Passes.bind h fun _ => Passes.bind (passes_expectSymbol _) fun _ => ?_
  exact Passes.bind h fun _ => passes_pure _

theorem Passes.primary (h : Passes expr) : Passes (primary expr) := by
  refine passes_current fun l => ?_
  cases l.token with
  | name s => exact PassesAt.advance_bind rfl fun _ => passes_pure _
  | string s =>
    refine PassesAt.advance_bind rfl fun _ => Passes.bind passes_bound fun n => ?_
    exact Passes.bind (passes_adjacentTexts n s) fun _ => passes_pure _
  | integer n => exact PassesAt.advance_bind rfl fun _ => passes_pure _
  | float x => exact PassesAt.advance_bind rfl fun _ => passes_pure _
  | symbol s =>
    cases s with
    | openParen =>
      refine PassesAt.advance_bind rfl fun _ => Passes.bind passes_bound fun n => ?_
      refine Passes.bind (h.tupleItems _ n) fun _ => ?_
      refine Passes.bind (passes_ofTupleItems _ _) fun _ => ?_
      exact Passes.bind (passes_expectSymbol _) fun _ => passes_pure _
    | openBracket =>
      refine PassesAt.advance_bind rfl fun _ => Passes.bind passes_bound fun n => ?_
      refine Passes.bind (h.listItems _ _ _ n) fun _ => ?_
      exact Passes.bind (passes_expectSymbol _) fun _ => passes_pure _
    | openBrace =>
      refine PassesAt.advance_bind rfl fun _ => Passes.bind passes_bound fun n => ?_
      refine Passes.bind (h.entry.listItems _ _ _ n) fun _ => ?_
      exact Passes.bind (passes_expectSymbol _) fun _ => passes_pure _
    | _ => exact (passes_failAt _ _).at_ _
  | _ => exact (passes_failAt _ _).at_ _

theorem Passes.operand (h : Passes expr) : Passes (operand expr) :=
  Passes.bind h.primary fun e => Passes.bind passes_bound fun n => h.accessors n e

theorem Passes.signed (h : Passes expr) (n : Nat) : Passes (signed expr n) := by
  induction n with
  | zero => exact h.operand
  | succ n ih =>
    have sign (op : UnaryOp) : Passes (do
        let e ← Template.signed expr n
        Template.accessors expr (← bound) (.unary op e)) :=
      Passes.bind ih fun e => Passes.bind passes_bound fun n => h.accessors n _
    refine Passes.bind (passes_skipIf rfl) fun _ => Passes.ite (sign .neg) ?_
    exact Passes.bind (passes_skipIf rfl) fun _ => Passes.ite (sign .pos) h.operand

theorem Passes.unaryLevel (h : Passes expr) : Passes (unaryLevel expr) := by
  refine Passes.bind passes_bound fun n => Passes.bind (h.signed n) fun e => ?_
  exact Passes.bind passes_bound fun n => h.trailers h.operand n e

end Following

theorem passes_exprFrom (n : Nat) (withChoice : Bool) : Passes (exprFrom n withChoice) := by
  induction n generalizing withChoice with
  | zero => exact passes_fail _
  | succ n ih =>
    have level := (ih true).unaryLevel.orLevel
    exact Passes.ite level.choiceLevel level

theorem passes_expr : Passes expr :=
  Passes.bind passes_bound fun n => passes_exprFrom n true

theorem passes_tupleExpr (withChoice : Bool) (endWords : List String) :
    Passes (tupleExpr withChoice endWords) := by
  have item : Passes (do exprFrom (← bound) withChoice) :=
    Passes.bind passes_bound fun n => passes_exprFrom n withChoice
  refine Passes.bind passes_bound fun n => Passes.bind (item.tupleItems _ n) fun _ => ?_
  exact passes_ofTupleItems _ _

theorem passes_place (attributes : Bool) : Passes (place attributes) := by
  refine passes_current fun l => Passes.at_ (Passes.bind passes_expr.primary fun e => ?_) _
  split
  · refine passes_currentIs_bind (PassesAt.ite ?_ ((passes_pure _).at_ _)) ?_
    · refine PassesAt.advance_bind rfl fun _ => ?_
      exact Passes.bind passes_expectName fun _ => passes_pure _
    · rw [Bool.and_false]
      exact passes_pure _
  · split
    · exact passes_pure _
    · exact passes_pure _

theorem passes_target (attributes : Bool) (endWords : List String) :
    Passes (target attributes endWords) := by
  refine passes_current fun l => Passes.at_ (Passes.bind passes_bound fun n => ?_) _
  refine Passes.bind ((passes_place attributes).tupleItems _ n) fun found => ?_
  split
  · exact passes_pure _
  · exact passes_failAt _ _
  · exact passes_current fun _ => (passes_fail _).at_ _
  · split
    · exact passes_pure _
    · exact passes_failAt _ _

theorem passes_nameTarget : Passes nameTarget :=
  Passes.bind passes_expectName fun _ => Passes.ite (passes_failAt _ _) (passes_pure _)

end Template

end Stencil
