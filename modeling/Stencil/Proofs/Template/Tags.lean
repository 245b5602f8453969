import Stencil.Reference.Directive
import Stencil.Template.Token.Scan
import Stencil.Proofs.Template.Reader

/-!
# Tags in a List of Tokens

The statement tags that a list of tokens holds, and what one of them refers
to.

Tokens follow each other as texts and tags do: outside of tags there is text
or a tag, and inside of a tag there is nothing but inner tokens up to the one
that closes it. A text may end, or be given up, inside of a tag, so a list may
have a last tag that is cut off; `Outside` keeps that rest apart, so that it
can be followed through a whole run of the parser.

A tag refers to another template if its first word is that of such a tag, its
second token is a text, and the rest is what may follow a target.

## Main definitions

* `blockTags`: The statement tags of a list of tokens.
* `fits`: What may follow the target of a tag.
* `tagReference`: The reference that a tag makes.
* `Outside`, `Inside`: How tokens follow each other.

## Theorems

* `Reader.Steps.blockTags`, `Reader.Steps.inside`: Passing inner tokens leaves
  neither the tag nor the tags after it.
* `Outside.enter`, `Inside.leave`: Opening and closing a tag.
-/

namespace Stencil

namespace Template

/-- The tokens up to the end of the tag. -/
def tagTokens (ts : List Token) : List Token :=
  ts.takeWhile (· != .closeBlock)

/-- The statement tags among tokens, without the tokens that open and close
them. -/
def blockTags : List Token → List (List Token)
  | [] => []
  | .openBlock :: ts => tagTokens ts :: blockTags ts
  | _ :: ts => blockTags ts

/-- The tag that refers to a template by a word. -/
def tagOf? (word : String) : Option Tag :=
  Reference.allTags.find? (·.keyword == word)

/-- Words about the context, or nothing. -/
def fitsContext : List Token → Bool
  | [] => true
  | [.name a, .name b] => (a == "with" || a == "without") && b == "context"
  | _ => false

/-- The tokens may follow the target of a tag. -/
def fits : Tag → List Token → Bool
  | .includes, .name "ignore" :: .name "missing" :: ts => fitsContext ts
  | .includes, ts => fitsContext ts
  | .inherits, ts => ts.isEmpty
  | .imports, .name "as" :: .name _ :: ts => fitsContext ts
  | .importsFrom, .name "import" :: .name _ :: _ => true
  | _, _ => false

/-- The reference that a tag makes, if it makes one. -/
def tagReference : List Token → List (Tag × String)
  | .name word :: .string s :: ts =>
    match tagOf? word with
    | some tag => if fits tag ts then [(tag, s)] else []
    | none => []
  | _ => []

theorem tagTokens_append {ts : List Token} (h : ∀ t ∈ ts, t.isInner = true) (us : List Token) :
    tagTokens (ts ++ us) = ts ++ tagTokens us := by
  refine List.takeWhile_append_of_pos fun t ht => ?_
  have inner := h t ht
  cases t with
  | closeBlock => exact Bool.noConfusion inner
  | _ => rfl

theorem blockTags_append {ts : List Token} (h : ∀ t ∈ ts, t.isInner = true) (us : List Token) :
    blockTags (ts ++ us) = blockTags us := by
  induction ts with
  | nil => rfl
  | cons t ts ih =>
    have inner := h t List.mem_cons_self
    have rest := ih fun u hu => h u (List.mem_cons_of_mem _ hu)
    cases t with
    | openBlock => exact Bool.noConfusion inner
    | _ => exact rest

/-- The tokens from outside of all tags on. The rest `cut` is not followed. -/
inductive Outside (cut : List Token) : List Token → Prop where
  /-- Only the rest is left. -/
  | done : Outside cut cut
  /-- Some text. -/
  | data (s : String) {ts : List Token} : Outside cut ts → Outside cut (.data s :: ts)
  /-- A tag. -/
  | tag (kind : TagKind) {inner ts : List Token} : (∀ t ∈ inner, t.isInner = true) →
      Outside cut ts → Outside cut (kind.open :: (inner ++ kind.close :: ts))

/-- Nothing, or a tag that is not closed. -/
inductive IsCut : List Token → Prop where
  /-- Nothing. -/
  | nil : IsCut []
  /-- A tag that is not closed. -/
  | inside (kind : TagKind) {inner : List Token} : (∀ t ∈ inner, t.isInner = true) →
      IsCut (kind.open :: inner)

/-- The tokens from a place in a tag on: inner ones, and the one that closes
the tag unless it is cut off. -/
def Inside (kind : TagKind) (cut ts : List Token) : Prop :=
  ∃ inner rest, ts = inner ++ rest ∧ (∀ t ∈ inner, t.isInner = true) ∧
    (rest = [] ∨ ∃ us, rest = kind.close :: us ∧ Outside cut us)

theorem TagKind.close_isInner (kind : TagKind) : kind.close.isInner = false := by
  cases kind <;> rfl

theorem TagKind.open_injective {a b : TagKind} (h : a.open = b.open) : a = b := by
  cases a <;> cases b <;> first | rfl | exact Token.noConfusion h

theorem Outside.enter {kind : TagKind} {cut ts : List Token} (hcut : IsCut cut)
    (h : Outside cut (kind.open :: ts)) : Inside kind cut ts := by
  generalize hall : kind.open :: ts = all at h
  cases h with
  | done =>
    cases hcut with
    | nil => exact absurd hall (List.cons_ne_nil _ _)
    | inside kind' inner =>
      injection hall with _ same
      exact ⟨ts, [], (List.append_nil _).symm, same ▸ inner, .inl rfl⟩
  | data s _ =>
    injection hall with first _
    cases kind <;> exact Token.noConfusion first
  | tag kind' inner rest =>
    injection hall with first same
    rw [TagKind.open_injective first]
    exact ⟨_, _, same, inner, .inr ⟨_, rfl, rest⟩⟩

theorem Inside.leave {kind : TagKind} {cut ts : List Token}
    (h : Inside kind cut (kind.close :: ts)) : Outside cut ts := by
  rcases h with ⟨inner, rest, hts, hinner, hrest⟩
  cases inner with
  | cons t inner =>
    injection hts with first _
    have := hinner t List.mem_cons_self
    rw [← first, kind.close_isInner] at this
    exact Bool.noConfusion this
  | nil =>
    rcases hrest with rfl | ⟨us, rfl, outside⟩
    · exact absurd hts (List.cons_ne_nil _ _)
    · injection hts with _ same
      rw [same]
      exact outside

theorem Reader.Steps.blockTags {r r' : Reader} (h : r.Steps r') :
    blockTags r.tokens = blockTags r'.tokens := by
  rcases h.passed with ⟨ts, tokens, inner⟩
  rw [tokens, blockTags_append inner]

theorem Reader.Steps.inside {r r' : Reader} (h : r.Steps r') {kind : TagKind} {cut : List Token}
    (hr : Inside kind cut r.tokens) : Inside kind cut r'.tokens := by
  rcases h.passed with ⟨ts, tokens, hts⟩
  rcases hr with ⟨inner, rest, same, hinner, hrest⟩
  rw [tokens] at same
  rcases List.append_eq_append_iff.mp same with ⟨more, rfl, after⟩ | ⟨more, rfl, after⟩
  · exact ⟨more, rest, after, fun t ht => hinner t (List.mem_append_right _ ht), hrest⟩
  · -- What is passed cannot reach beyond the inner tokens of the tag.
    cases more with
    | nil => exact ⟨[], rest, after.symm, fun _ ht => absurd ht List.not_mem_nil, hrest⟩
    | cons t more =>
      rcases hrest with rfl | ⟨us, rfl, -⟩
      · exact absurd after.symm (List.cons_ne_nil _ _)
      · injection after with first _
        have := hts t (List.mem_append_right _ List.mem_cons_self)
        rw [← first, kind.close_isInner] at this
        exact Bool.noConfusion this

end Template

end Stencil
