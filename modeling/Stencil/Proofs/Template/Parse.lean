import Stencil.Proofs.Template.Target

/-!
# The References of a Parsed Template

A template that can be parsed has the references of its tags, in their order.

Parsing goes through the tokens once and passes every tag: outside of tags it
takes a text, a tag that prints, or a statement, and each statement accounts
for its own tag and those in its bodies. A statement with bodies has the
references of its bodies, in their order, and so has the text between its first
tag and its last. A statement that refers to a template has no body, and what
follows its target is exactly what may follow a target, since the tag has to
close there.

The count that bounds a loop over statements exceeds the tokens that are left,
so the loop ends only where the tokens do or where a body is closed.

## Theorems

* `accounts_loopStmt`, `accounts_branchStmt` and the like: Statements with
  bodies.
* `statementOf?_accounts`: Every statement accounts for its tag.
* `statementsFrom_covers`, `statements_cover`: Statements, and bodies.
* `references_of_parse`: A template that is parsed is whole, and its
  references are those of its tags.
-/

namespace Stencil

namespace Template

section Statements

variable {cut : List Token} {body : Body}

theorem accounts_rest {ends : List String} (hbody : BodyCovers cut body)
    (hends : ∀ w ∈ ends, IsEnd w) :
    Accounts cut references [] (Prod.fst <$> wholeBody body ends) := by
  refine Accounts.bind (accounts_wholeBody hbody hends) fun found => accounts_pure ?_
  rw [List.nil_append]

/-- A statement that is made of one body. -/
theorem accounts_oneBody {ends : List String} (hbody : BodyCovers cut body)
    (hends : ∀ w ∈ ends, IsEnd w) {make : List Stmt → Stmt}
    (made : ∀ inner, (make inner).references = references inner) :
    Accounts cut Stmt.references [] (do
      let (inner, _) ← wholeBody body ends
      return make inner) :=
  Accounts.bind (accounts_wholeBody hbody hends) fun found => accounts_pure (made found.1)

theorem accounts_loopStmt (hbody : BodyCovers cut body) :
    Accounts cut Stmt.references [] (loopStmt body) := by
  -- Whether there is a test or not, the bodies come behind it.
  have rest (target : Target) (items : Expr) (test : Option Expr) :
      Accounts cut Stmt.references [] (do
        let recursive ← skipIf (.name "recursive")
        let (inner, word) ← wholeBody body ["endfor", "else"]
        let otherwise ←
          if word == "endfor" then pure []
          else Prod.fst <$> wholeBody body ["endfor"]
        return .loop target items inner otherwise test recursive) := by
    refine Passes.accounts (passes_skipIf rfl) fun recursive => ?_
    refine Accounts.bind (accounts_wholeBody hbody (by decide)) fun found => ?_
    refine Accounts.ite (accounts_pure ?_) ?_
    · rw [Stmt.references_loop, references_nil, List.append_nil, List.nil_append]
    · refine Accounts.bind (accounts_rest hbody (by decide)) fun otherwise => accounts_pure ?_
      rw [Stmt.references_loop, List.nil_append]
  refine Passes.accounts (passes_expect rfl) fun _ => ?_
  refine Passes.accounts (passes_target _ _) fun target => ?_
  refine Passes.accounts (passes_expect rfl) fun _ => ?_
  refine Passes.accounts (passes_tupleExpr _ _) fun items => ?_
  refine Passes.accounts (passes_skipIf rfl) fun found => ?_
  refine Accounts.ite ?_ (rest target items none)
  exact Passes.accounts (passes_expr.map some) fun test => rest target items test

theorem accounts_otherBranches (hbody : BodyCovers cut body) (n : Nat) (word : String) :
    Accounts cut (fun found => references found.1 ++ references found.2) []
      (otherBranches body n word) := by
  induction n generalizing word with
  | zero => exact accounts_pure rfl
  | succ n ih =>
    refine Accounts.ite ?_ (Accounts.ite ?_ (accounts_pure rfl))
    · refine Passes.accounts (passes_tupleExpr _ _) fun test => ?_
      refine Accounts.bind (accounts_wholeBody hbody (by decide)) fun inner => ?_
      refine Accounts.bind (ih _) fun others => accounts_pure ?_
      simp only [references_cons, Stmt.references_branch, references_nil, List.append_nil,
        List.nil_append, List.append_assoc]
    · exact Accounts.bind (accounts_wholeBody hbody (by decide)) fun found => accounts_pure rfl

theorem accounts_branchStmt (hbody : BodyCovers cut body) :
    Accounts cut Stmt.references [] (branchStmt body) := by
  refine Passes.accounts (passes_expect rfl) fun _ => ?_
  refine Passes.accounts (passes_tupleExpr _ _) fun test => ?_
  refine Accounts.bind (accounts_wholeBody hbody (by decide)) fun inner => ?_
  refine Passes.accounts passes_bound fun n => ?_
  refine Accounts.bind (accounts_otherBranches hbody n _) fun others => accounts_pure ?_
  rw [Stmt.references_branch, List.nil_append, List.append_assoc]

theorem passes_parameter (needsDefault : Bool) : Passes (parameter needsDefault) := by
  refine Passes.bind passes_nameTarget fun name => Passes.bind (passes_skipIf rfl) fun _ => ?_
  refine Passes.ite (Passes.bind passes_expr fun _ => passes_pure _) ?_
  exact Passes.ite (passes_fail _) (passes_pure _)

theorem passes_parametersFrom (started needsDefault : Bool) (n : Nat) :
    Passes (parametersFrom started needsDefault n) := by
  induction n generalizing started needsDefault with
  | zero => exact passes_pure _
  | succ n ih =>
    have more : Passes (do
        let p ← parameter needsDefault
        return p :: (← parametersFrom true p.2.isSome n)) :=
      Passes.bind (passes_parameter _) fun p => Passes.bind (ih _ _) fun _ => passes_pure _
    refine Passes.bind (passes_currentIs _) fun _ => Passes.ite (passes_pure _) ?_
    exact Passes.ite (Passes.bind (passes_expectSymbol _) fun _ => more) more

theorem passes_parameters : Passes parameters := by
  refine Passes.bind (passes_expectSymbol _) fun _ => Passes.bind passes_bound fun n => ?_
  refine Passes.bind (passes_parametersFrom _ _ n) fun found => ?_
  exact Passes.bind (passes_expectSymbol _) fun _ => passes_pure _

theorem accounts_defineStmt (hbody : BodyCovers cut body) (word : String) :
    AccountsAt (.name word) cut Stmt.references [] (defineStmt body) := by
  refine accountsAt_advance rfl fun l => Passes.accounts passes_nameTarget fun name => ?_
  refine Passes.accounts passes_parameters fun ps => ?_
  exact accounts_oneBody hbody (by decide) fun inner => Stmt.references_define _ _ _ _

theorem accounts_callStmt (hbody : BodyCovers cut body) (word : String) :
    AccountsAt (.name word) cut Stmt.references [] (callStmt body) := by
  refine accountsAt_advance rfl fun l => Passes.accounts (passes_currentIs _) fun _ => ?_
  refine Accounts.ite (Passes.accounts passes_parameters fun ps => ?_)
    (Passes.accounts (passes_pure []) fun ps => ?_)
  -- What is called is read in the same way after parameters and without any.
  all_goals
    refine Passes.accounts passes_expr fun e => ?_
    split
    · exact accounts_oneBody hbody (by decide) fun inner => Stmt.references_callBlock _ _ _ _ _
    · exact accounts_failAt _ _

theorem accounts_filterStmt (hbody : BodyCovers cut body) (word : String) :
    AccountsAt (.name word) cut Stmt.references [] (filterStmt body) := by
  refine accountsAt_advance rfl fun l => Passes.accounts (passes_expr.oneFilter _) fun first => ?_
  refine Passes.accounts passes_bound fun n => Passes.accounts (passes_expr.filters n _) fun _ => ?_
  exact accounts_oneBody hbody (by decide) fun inner => Stmt.references_filterBlock _ _

theorem passes_bindings (started : Bool) (n : Nat) : Passes (bindings started n) := by
  induction n generalizing started with
  | zero => exact passes_pure _
  | succ n ih =>
    have more : Passes (do
        let t ← target false []
        let _ ← expectSymbol .assign
        let e ← expr
        return (t, e) :: (← bindings true n)) := by
      refine Passes.bind (passes_target _ _) fun t => ?_
      refine Passes.bind (passes_expectSymbol _) fun _ => ?_
      exact Passes.bind passes_expr fun e => Passes.bind (ih true) fun _ => passes_pure _
    refine Passes.bind (passes_currentIs _) fun _ => Passes.ite (passes_pure _) ?_
    exact Passes.ite (Passes.bind (passes_expectSymbol _) fun _ => more) more

theorem accounts_scopeStmt (hbody : BodyCovers cut body) (word : String) :
    AccountsAt (.name word) cut Stmt.references [] (scopeStmt body) := by
  refine accountsAt_advance rfl fun l => Passes.accounts passes_bound fun n => ?_
  refine Passes.accounts (passes_bindings false n) fun found => ?_
  exact accounts_oneBody hbody (by decide) fun inner => Stmt.references_scope _ _ _

theorem accounts_settingStmt (hbody : BodyCovers cut body) (word : String) :
    AccountsAt (.name word) cut Stmt.references [] (settingStmt body) := by
  refine accountsAt_advance rfl fun l => Passes.accounts passes_expr fun e => ?_
  exact accounts_oneBody hbody (by decide) fun inner => Stmt.references_setting _ _

theorem accounts_blockStmt (hbody : BodyCovers cut body) (word : String) :
    AccountsAt (.name word) cut Stmt.references [] (blockStmt body) := by
  refine accountsAt_advance rfl fun l => Passes.accounts passes_expectName fun name => ?_
  refine Passes.accounts (passes_skipIf rfl) fun isScoped => ?_
  refine Passes.accounts (passes_skipIf rfl) fun isRequired => ?_
  have made (inner : List Stmt) : Accounts cut Stmt.references (references inner) (do
      let _ ← skipIf (.name name.1)
      return .block name.1 inner isScoped isRequired l.line) :=
    Passes.accounts (passes_skipIf rfl) fun _ => accounts_pure (Stmt.references_block _ _ _ _ _)
  -- The body of a required block is looked at, but no token is read for that.
  have rest : Accounts cut Stmt.references [] (do
      let (inner, _) ← wholeBody body ["endblock"]
      if isRequired && !inner.all Stmt.isBlankData then
        fail "Required blocks can only contain comments or whitespace"
      let _ ← skipIf (.name name.1)
      return .block name.1 inner isScoped isRequired l.line) := by
    refine Accounts.bind (accounts_wholeBody hbody (by decide)) fun found => ?_
    exact Accounts.ite (Passes.accounts (passes_fail _) fun _ => made found.1) (made found.1)
  refine Passes.accounts (passes_currentIs _) fun _ => ?_
  exact Accounts.ite (Passes.accounts (passes_fail _) fun _ => rest) rest

theorem accounts_assignStmt (hbody : BodyCovers cut body) (word : String) :
    AccountsAt (.name word) cut Stmt.references [] (assignStmt body) := by
  refine accountsAt_advance rfl fun l => Passes.accounts (passes_target _ _) fun t => ?_
  refine Passes.accounts (passes_skipIf rfl) fun _ => Accounts.ite ?_ ?_
  · exact Passes.accounts (passes_tupleExpr _ _) fun e => accounts_pure rfl
  · refine Passes.accounts passes_bound fun n => ?_
    refine Passes.accounts (passes_expr.filters n _) fun filter => ?_
    exact accounts_oneBody hbody (by decide) fun inner => Stmt.references_capture _ _ _

end Statements

section Bodies

variable {cut : List Token} {body : Body}

theorem AccountsAt.one {t : Token} {p : Parse Stmt} (h : AccountsAt t cut Stmt.references [] p) :
    AccountsAt t cut references [] (do return [← p]) := by
  intro r ss r' token hr ok
  rcases bind_eq_ok.mp ok with ⟨s, r₁, h₁, h₂⟩
  rcases pure_eq_ok.mp h₂ with ⟨rfl, rfl⟩
  rcases h token hr h₁ with ⟨inside, found, covers, total⟩
  exact ⟨inside, found, covers, (references_singleton s).trans total⟩

theorem accounts_printed (started : Bool) (n : Nat) :
    Accounts cut references [] (printed started n) := by
  induction n generalizing started with
  | zero => exact accounts_pure rfl
  | succ n ih =>
    have more : Accounts cut references [] (do
        let e ← expr
        return .print e :: (← printed true n)) := by
      refine Passes.accounts passes_expr fun e => Accounts.bind (ih true) fun rest => ?_
      refine accounts_pure ?_
      rw [references_cons, List.nil_append]
      rfl
    refine Passes.accounts (passes_currentIs _) fun _ => Accounts.ite (accounts_pure rfl) ?_
    exact Accounts.ite (Passes.accounts (passes_expectSymbol _) fun _ => more) more

theorem statementOf?_accounts (hbody : BodyCovers cut body) {word : String}
    {p : Parse (List Stmt)} (h : statementOf? body word = some p) : AccountsTag cut word p := by
  unfold statementOf? at h
  -- Of all words only those of references make one themselves.
  split at h
  · cases h
    exact AccountsAt.tag (by decide) ((accounts_loopStmt hbody).at_ _).one
  · cases h
    exact AccountsAt.tag (by decide) ((accounts_branchStmt hbody).at_ _).one
  · cases h
    exact AccountsAt.tag (by decide) (accounts_blockStmt hbody _).one
  · cases h
    exact accountsTag_inheritStmt
  · cases h
    refine AccountsAt.tag (by decide) (accountsAt_advance rfl fun _ => ?_)
    exact Passes.accounts passes_bound fun n => accounts_printed false n
  · cases h
    exact AccountsAt.tag (by decide) (accounts_defineStmt hbody _).one
  · cases h
    exact accountsTag_embedStmt
  · cases h
    exact accountsTag_importNamesStmt
  · cases h
    exact accountsTag_importStmt
  · cases h
    exact AccountsAt.tag (by decide) (accounts_assignStmt hbody _).one
  · cases h
    exact AccountsAt.tag (by decide) (accounts_scopeStmt hbody _).one
  · cases h
    exact AccountsAt.tag (by decide) (accounts_settingStmt hbody _).one
  · cases h
    exact AccountsAt.tag (by decide) (accounts_callStmt hbody _).one
  · cases h
    exact AccountsAt.tag (by decide) (accounts_filterStmt hbody _).one
  · exact absurd h (Option.some_ne_none _).symm

/-- A statement accounts for the tag that it starts in and for those that it
passes. -/
theorem statement_eq_ok (hbody : BodyCovers cut body) {r r' : Reader} {ss : List Stmt}
    (hr : Inside .block cut r.tokens) (h : statement body r = .ok (ss, r'))
    (closes : r'.token = .closeBlock) : Inside .block cut r'.tokens ∧
      IsLegal (tagTokens r.tokens) ∧ ∃ found, Covers r found r' ∧
        (isSingle (tagTokens r.tokens) = true →
          references ss = tagReference (tagTokens r.tokens) ++ found) := by
  rcases bind_eq_ok.mp h with ⟨l, r₁, h₁, h₂⟩
  rcases current_eq_ok h₁ with ⟨token, rfl⟩
  cases ht : l.token with
  | name word =>
    simp only [ht] at h₂
    cases hp : statementOf? body word with
    | none =>
      simp only [hp] at h₂
      rcases bind_eq_ok.mp h₂ with ⟨_, _, _, failed⟩
      exact absurd failed failAt_ne_ok
    | some p =>
      simp only [hp] at h₂
      rcases bind_eq_ok.mp h₂ with ⟨_, r₂, h₃, h₄⟩
      rcases bind_eq_ok.mp h₄ with ⟨found, r₃, h₅, h₆⟩
      rcases bind_eq_ok.mp h₆ with ⟨_, r₄, h₇, h₈⟩
      rcases pure_eq_ok.mp h₈ with ⟨rfl, rfl⟩
      -- What is open is noted for reports; the tokens are the same.
      have opened := modify_eq_ok h₃
      have closed := modify_eq_ok h₇
      subst opened closed
      have first : Covers r₁ [] { r₁ with opened := word :: r₁.opened } := Covers.of_tokens rfl rfl
      have last : Covers r₃ [] { r₃ with opened := r₃.opened.tail } := Covers.of_tokens rfl rfl
      have own := statementOf?_accounts hbody hp
      rcases @own { r₁ with opened := word :: r₁.opened } found r₃ (token.symm.trans ht) hr h₅
        closes with ⟨inside, legal, refs, covers, total⟩
      refine ⟨inside, legal, refs, ?_, total⟩
      have all := (first.trans covers).trans last
      rwa [List.nil_append, List.append_nil] at all
  | _ =>
    simp only [ht] at h₂
    exact absurd h₂ failAt_ne_ok

theorem IsCut.head {ts : List Token} (h : IsCut ts) {t : Token} {us : List Token}
    (same : ts = t :: us) : ∃ kind : TagKind, t = kind.open := by
  cases h with
  | nil => exact absurd same.symm (List.cons_ne_nil _ _)
  | inside kind _ =>
    injection same with first _
    exact ⟨kind, first.symm⟩

/-- Outside of all tags there is text, or a tag opens, or the tokens end. -/
theorem Outside.cases {ts : List Token} (hcut : IsCut cut) (h : Outside cut ts) :
    (ts = [] ∧ cut = []) ∨ (∃ s us, ts = .data s :: us ∧ Outside cut us) ∨
      ∃ (kind : TagKind) (us : List Token), ts = kind.open :: us ∧ Inside kind cut us := by
  cases h with
  | done =>
    cases hc : cut with
    | nil => exact .inl ⟨rfl, rfl⟩
    | cons t us =>
      rcases hcut.head hc with ⟨kind, rfl⟩
      refine .inr (.inr ⟨kind, us, rfl, ?_⟩)
      have all : Outside cut (kind.open :: us) := hc ▸ Outside.done
      rw [hc] at all hcut
      exact all.enter hcut
  | data s rest => exact .inr (.inl ⟨s, _, rfl, rest⟩)
  | tag kind inner rest =>
    exact .inr (.inr ⟨kind, _, rfl, _, _, rfl, inner, .inr ⟨_, rfl, rest⟩⟩)

/-- Passing a text, or the token that opens a tag that prints. -/
theorem covers_of_advance {t : Token} {l : Lexeme} {r r' : Reader} (h : advance r = .ok (l, r'))
    (tokens : r.tokens = t :: r'.tokens) (ht : t ≠ .openBlock) : Covers r [] r' := by
  rcases advance_eq_ok h with ⟨-, -, mistake, live⟩
  refine Covers.of_blockTags ?_ ⟨[t], tokens.symm⟩ mistake live
  rw [tokens]
  cases t with
  | openBlock => exact absurd rfl ht
  | _ => rfl

/-- Passing the token that opens a statement adds its tag. -/
theorem covers_of_open {l : Lexeme} {r r₁ r' : Reader} {found : List (Tag × String)}
    (h : advance r = .ok (l, r₁)) (tokens : r.tokens = .openBlock :: r₁.tokens)
    (legal : IsLegal (tagTokens r₁.tokens)) {own : List (Tag × String)}
    (refs : isSingle (tagTokens r₁.tokens) = true →
      own = tagReference (tagTokens r₁.tokens) ++ found)
    (covers : Covers r₁ found r') : Covers r own r' := by
  rcases advance_eq_ok h with ⟨-, -, mistake, live⟩
  rcases covers.tags with ⟨tags, same, hlegal, hfound⟩
  -- The tag that opens comes first, and those that were passed behind it.
  refine ⟨⟨tagTokens r₁.tokens :: tags, ?_, ?_, fun single => ?_⟩, ?_,
    covers.mistake.trans mistake, fun hr => covers.live (live hr)⟩
  · rw [tokens, blockTags, same]
    rfl
  · intro t ht
    rcases List.mem_cons.mp ht with rfl | ht
    · exact legal
    · exact hlegal t ht
  · rw [refs (single _ List.mem_cons_self),
      hfound fun t ht => single t (List.mem_cons_of_mem _ ht)]
    rfl
  · rw [tokens]
    exact covers.passed.trans (List.suffix_cons _ _)

/-- A tag that prints is passed as a whole. -/
theorem print_eq_ok {r r₁ r₂ r₃ : Reader} {a b : Lexeme} {e : Expr}
    (tokens : r.tokens = .openPrint :: r₁.tokens) (hr : Inside .print cut r₁.tokens)
    (h₁ : advance r = .ok (a, r₁)) (h₂ : tupleExpr true [] r₁ = .ok (e, r₂))
    (h₃ : expect .closePrint r₂ = .ok (b, r₃)) :
    Covers r [] r₃ ∧ Outside cut r₃.tokens ∧ r₃.tokens.length < r.tokens.length := by
  have steps := passes_tupleExpr true [] h₂
  rcases covers_of_close .print (steps.inside hr) h₃ with ⟨closed, outside⟩
  refine ⟨((covers_of_advance h₁ tokens Token.noConfusion).trans steps.covers).trans closed,
    outside, ?_⟩
  rw [tokens]
  exact Nat.lt_succ_of_le (closed.passed.trans steps.covers.passed).length_le

/-- A statement is passed with its tag and the tags in it. -/
theorem block_eq_ok (hbody : BodyCovers cut body) {r r₁ r₂ r₃ : Reader} {a b : Lexeme}
    {ss : List Stmt} (tokens : r.tokens = .openBlock :: r₁.tokens)
    (hr : Inside .block cut r₁.tokens) (h₁ : advance r = .ok (a, r₁))
    (h₂ : statement body r₁ = .ok (ss, r₂)) (h₃ : expect .closeBlock r₂ = .ok (b, r₃)) :
    Covers r (references ss) r₃ ∧ Outside cut r₃.tokens ∧
      r₃.tokens.length < r.tokens.length := by
  rcases statement_eq_ok hbody hr h₂ (expect_eq_ok h₃).1 with ⟨inside, legal, refs, covers, total⟩
  rcases covers_of_close .block inside h₃ with ⟨closed, outside⟩
  have all := (covers_of_open h₁ tokens legal total covers).trans closed
  rw [List.append_nil] at all
  refine ⟨all, outside, ?_⟩
  rw [tokens]
  exact Nat.lt_succ_of_le (closed.passed.trans covers.passed).length_le

/-- A tag that ends a body refers to no template. -/
theorem end_eq_ok {word : String} (hword : IsEnd word) {r r₁ : Reader} {a : Lexeme}
    (tokens : r.tokens = .openBlock :: r₁.tokens) (h : advance r = .ok (a, r₁))
    (token : r₁.token = .name word) : Covers r [] r₁ := by
  have ending := Reader.tokens_of_token token Token.noConfusion
  refine covers_of_open h tokens ?_ (fun _ => ?_) (Reader.Steps.refl _).covers
  · rw [ending]
    exact hword.isLegal _
  · rw [ending, hword.tagReference]
    rfl

theorem statementsFrom_covers (hcut : IsCut cut) (hbody : BodyCovers cut body)
    {ends : List String} (hends : ∀ w ∈ ends, IsEnd w) (n : Nat) {r r' : Reader}
    {found : List Stmt} (hn : r.tokens.length < n) (hr : Outside cut r.tokens)
    (h : statementsFrom body ends n r = .ok (found, r')) :
    Covers r (references found) r' ∧ ((r'.tokens = [] ∧ cut = []) ∨
      (Inside .block cut r'.tokens ∧ ∃ w ∈ ends, r'.token = .name w)) := by
  induction n generalizing r found with
  | zero => exact absurd hn (Nat.not_lt_zero _)
  | succ n ih =>
    rcases bind_eq_ok.mp h with ⟨l, r₁, h₁, h₂⟩
    have token := (current_eq_ok h₁).1
    rw [(current_eq_ok h₁).2] at h₂
    rcases hr.cases hcut with ⟨none, whole⟩ | ⟨s, us, tokens, rest⟩ | ⟨kind, us, tokens, inside⟩
    · have eof : l.token = .eof := by
        rw [token, Reader.token, none]
        rfl
      simp only [eof] at h₂
      rcases pure_eq_ok.mp h₂ with ⟨rfl, rfl⟩
      exact ⟨(Reader.Steps.refl _).covers, .inl ⟨none, whole⟩⟩
    · have here := Reader.token_of_tokens tokens
      rw [here] at token
      simp only [token] at h₂
      rcases bind_eq_ok.mp h₂ with ⟨_, r₂, h₃, h₄⟩
      rcases bind_eq_ok.mp h₄ with ⟨more, r₃, h₅, h₆⟩
      rcases pure_eq_ok.mp h₆ with ⟨rfl, rfl⟩
      have passed := tokens_of_advance h₃ here Token.noConfusion
      -- The count goes down with the tokens, so it does not run out.
      have same := (List.cons.inj (tokens.symm.trans passed)).2
      rw [passed, List.length_cons] at hn
      rcases ih (by omega) (same ▸ rest) h₅ with ⟨covers, after⟩
      rw [references_cons]
      exact ⟨(covers_of_advance h₃ passed Token.noConfusion).trans covers, after⟩
    · have here := Reader.token_of_tokens tokens
      rw [here] at token
      cases kind with
      | print =>
        simp only [token, TagKind.open] at h₂
        rcases bind_eq_ok.mp h₂ with ⟨_, r₂, h₃, h₄⟩
        rcases bind_eq_ok.mp h₄ with ⟨e, r₃, h₅, h₆⟩
        rcases bind_eq_ok.mp h₆ with ⟨_, r₄, h₇, h₈⟩
        rcases bind_eq_ok.mp h₈ with ⟨more, r₅, h₉, h₁₀⟩
        rcases pure_eq_ok.mp h₁₀ with ⟨rfl, rfl⟩
        have passed := tokens_of_advance h₃ here Token.noConfusion
        have same := (List.cons.inj (tokens.symm.trans passed)).2
        rcases print_eq_ok passed (same ▸ inside) h₃ h₅ h₇ with ⟨before, outside, shorter⟩
        rcases ih (by omega) outside h₉ with ⟨covers, after⟩
        rw [references_cons]
        exact ⟨before.trans covers, after⟩
      | block =>
        simp only [token, TagKind.open] at h₂
        rcases bind_eq_ok.mp h₂ with ⟨_, r₂, h₃, h₄⟩
        rcases bind_eq_ok.mp h₄ with ⟨next, r₃, h₅, h₆⟩
        have first := (current_eq_ok h₅).1
        rw [(current_eq_ok h₅).2] at h₆
        have passed := tokens_of_advance h₃ here Token.noConfusion
        have same := (List.cons.inj (tokens.symm.trans passed)).2
        by_cases stops : (ends.any fun w => next.token == .name w) = true
        · rw [if_pos stops] at h₆
          rcases pure_eq_ok.mp h₆ with ⟨rfl, rfl⟩
          rcases List.any_eq_true.mp stops with ⟨w, hw, hnext⟩
          -- The word ends the body, and it is left for what called it.
          have word : r₂.token = .name w := first.symm.trans (eq_of_beq hnext)
          exact ⟨end_eq_ok (hends w hw) passed h₃ word, .inr ⟨same ▸ inside, w, hw, word⟩⟩
        · rw [if_neg stops] at h₆
          rcases bind_eq_ok.mp h₆ with ⟨own, r₄, h₇, h₈⟩
          rcases bind_eq_ok.mp h₈ with ⟨_, r₅, h₉, h₁₀⟩
          rcases bind_eq_ok.mp h₁₀ with ⟨more, r₆, h₁₁, h₁₂⟩
          rcases pure_eq_ok.mp h₁₂ with ⟨rfl, rfl⟩
          rcases block_eq_ok hbody passed (same ▸ inside) h₃ h₇ h₉ with ⟨before, outside, shorter⟩
          rcases ih (by omega) outside h₁₁ with ⟨covers, after⟩
          rw [references_append]
          exact ⟨before.trans covers, after⟩

end Bodies

theorem statements_cover {cut : List Token} (hcut : IsCut cut) (n : Nat) :
    BodyCovers cut (statements n) := by
  induction n with
  | zero => exact fun _ _ _ _ _ _ h => absurd h fail_ne_ok
  | succ n ih =>
    intro ends r found r' hends hr h
    rcases bind_eq_ok.mp h with ⟨_, r₁, h₁, h₂⟩
    rcases bind_eq_ok.mp h₂ with ⟨m, r₂, h₃, h₄⟩
    rcases bind_eq_ok.mp h₄ with ⟨ss, r₃, h₅, h₆⟩
    rcases bind_eq_ok.mp h₆ with ⟨_, r₄, h₇, h₈⟩
    rcases pure_eq_ok.mp h₈ with ⟨rfl, rfl⟩
    -- What is waited for is noted for reports only.
    have waits := modify_eq_ok h₁
    have waited := modify_eq_ok h₇
    rcases bound_eq_ok h₃ with ⟨rfl, rfl⟩
    subst waits waited
    rcases statementsFrom_covers (r := { r with awaited := ends :: r.awaited }) hcut ih hends _
      (Nat.lt_succ_self _) hr h₅ with ⟨covers, after⟩
    have first : Covers r [] { r with awaited := ends :: r.awaited } := Covers.of_tokens rfl rfl
    have last : Covers r₃ [] { r₃ with awaited := r₃.awaited.tail } := Covers.of_tokens rfl rfl
    have all := (first.trans covers).trans last
    rw [List.nil_append, List.append_nil] at all
    exact ⟨all, after⟩

/-- Parsing the tokens of a text starts where they do, and not behind a
mistake. -/
theorem Lexemes.parse_eq_ok {α : Type} {ls : Lexemes} {p : Parse α} {a : α}
    (h : ls.parse p = .ok a) : ∃ r r' : Reader, r.items = ls.items ∧ r.mistake = ls.mistake ∧
      r.IsLive ∧ p r = .ok (a, r') := by
  -- A mistake is reported at once if there is no token in front of it.
  have start (live : ls.mistake ≠ none → ls.items ≠ [])
      (ok : (p.run ⟨ls.items, ls.mistake, 1, [], []⟩).map Prod.fst = .ok a) :
      ∃ r r' : Reader, r.items = ls.items ∧ r.mistake = ls.mistake ∧ r.IsLive ∧
        p r = .ok (a, r') := by
    refine ⟨⟨ls.items, ls.mistake, 1, [], []⟩, ?_⟩
    cases hp : p.run ⟨ls.items, ls.mistake, 1, [], []⟩ with
    | error e =>
      rw [hp] at ok
      exact absurd ok (by simp only [Except.map, reduceCtorEq, not_false_eq_true])
    | ok x =>
      rw [hp] at ok
      injection ok with ok
      exact ⟨x.2, rfl, rfl, live, ok ▸ hp⟩
  unfold Lexemes.parse at h
  split at h
  · exact absurd h (by simp only [reduceCtorEq, not_false_eq_true])
  · next other =>
    refine start (fun present none => ?_) h
    cases hm : ls.mistake with
    | none => exact present hm
    | some m => exact other m none hm

/-- A template that can be parsed is not cut off and has no mistake, its tags
can be parsed, and its references are those of its tags. -/
theorem references_of_parse {text : String} {stmts : List Stmt} {cut : List Token}
    (hcut : IsCut cut) (hr : Outside cut ((tokens text).items.map (·.token)))
    (h : parse text = .ok stmts) :
    cut = [] ∧ (tokens text).mistake = none ∧
      (∀ tag ∈ blockTags ((tokens text).items.map (·.token)), IsLegal tag) ∧
      ((∀ tag ∈ blockTags ((tokens text).items.map (·.token)), isSingle tag = true) →
        references stmts =
          (blockTags ((tokens text).items.map (·.token))).flatMap tagReference) := by
  rcases Lexemes.parse_eq_ok h with ⟨r, r', items, mistake, live, ok⟩
  rw [← items] at hr ⊢
  rcases bind_eq_ok.mp ok with ⟨n, r₁, h₁, h₂⟩
  rcases bound_eq_ok h₁ with ⟨rfl, rfl⟩
  rcases statementsFrom_covers hcut (statements_cover hcut _)
    (fun _ hw => absurd hw List.not_mem_nil) _ (Nat.lt_succ_self _) hr h₂ with
    ⟨covers, ⟨none, whole⟩ | ⟨-, w, hw, -⟩⟩
  · rcases covers.tags with ⟨tags, same, legal, refs⟩
    rw [none, blockTags, List.append_nil] at same
    refine ⟨whole, ?_, ?_, ?_⟩
    · -- The end of the tokens is reached, so no mistake stands there.
      rw [← mistake, ← covers.mistake]
      cases hm : r'.mistake with
      | none => rfl
      | some m =>
        have present := covers.live live (by rw [hm]; exact Option.some_ne_none m)
        exact absurd (List.map_eq_nil_iff.mp none) present
    · change ∀ tag ∈ blockTags r₁.tokens, IsLegal tag
      rw [same]
      exact legal
    · change (∀ tag ∈ blockTags r₁.tokens, isSingle tag = true) → references stmts =
        (blockTags r₁.tokens).flatMap tagReference
      rw [same]
      exact refs
  · exact absurd hw List.not_mem_nil

end Template

end Stencil
