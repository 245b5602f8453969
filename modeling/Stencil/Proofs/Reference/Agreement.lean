import Stencil.Proofs.Reference.Position
import Stencil.Proofs.Reference.Region
import Stencil.Proofs.Reference.Written
import Stencil.Proofs.Template.Parse
import Stencil.Proofs.Template.Respelled

/-!
# Scanned and Parsed References

The references that the scanner finds are those of the parsed template.

The text of a template that can be parsed falls into regions, and so do its
characters with the line breaks as they stand. The parser takes the references
of a template from the statements among the regions, and the scanner finds those
that are spaced. It is enough that no region looks like another one, and that
the target of a statement is neither in parentheses nor joined from texts. Then
the scanner reports nothing but references of the template, in their order, and
misses just the ones without a blank around the target.

## Main definitions

* `Region.isSingle`: A statement has one text as its target, or none.

## Theorems

* `Region.Respells.tokens`, `Region.Respells.isApart`: Line breaks are no matter.
* `map_unified_scan`: What the scanner finds.
* `scan_eq_references`: The scanner agrees with the parser.
-/

namespace Stencil

namespace Template

open Text Reference

/-- The target of a statement is not a text in parentheses, and no text follows
it. -/
def Region.isSingle : Region → Bool
  | .tag .block _ ps _ => Template.isSingle (spoken ps)
  | _ => true

section Respelled

variable {ps' ps : List Spelled}

theorem spoken_eq_filterMap (ps : List Spelled) :
    spoken ps = (ps.map (·.token)).filterMap id := by
  rw [List.filterMap_map]
  rfl

theorem spoken_congr (h : ps'.map (·.token) = ps.map (·.token)) : spoken ps' = spoken ps := by
  rw [spoken_eq_filterMap, spoken_eq_filterMap, h]

theorem startsApart_congr (h : ps'.map (·.token) = ps.map (·.token)) :
    startsApart ps' = startsApart ps := by
  have head := congrArg List.head? h
  rw [List.head?_map, List.head?_map] at head
  rw [startsApart, startsApart, ← Option.all_map, head, Option.all_map]

/-- Pieces that start with the same token. -/
theorem exists_of_tokens {t : Option Token} {w : List Char}
    (h : ps'.map (·.token) = (⟨t, w⟩ :: ps).map (·.token)) :
    ∃ w' qs', ps' = ⟨t, w'⟩ :: qs' ∧ qs'.map (·.token) = ps.map (·.token) := by
  rcases List.map_eq_cons_iff.mp h with ⟨p, qs', rfl, rfl, rest⟩
  exact ⟨p.chars, qs', rfl, rest⟩

theorem map_token_behind (h : ps'.map (·.token) = ps.map (·.token)) :
    (behind ps').map (·.token) = (behind ps).map (·.token) := by
  fun_induction behind ps generalizing ps' with
  | case1 => rw [List.map_eq_nil_iff.mp h]; rfl
  | case2 t w ps =>
    rcases exists_of_tokens h with ⟨w', qs', rfl, rest⟩
    exact rest
  | case3 w ps ih =>
    rcases exists_of_tokens h with ⟨w', qs', rfl, rest⟩
    exact (ih rest :)

theorem isSpaced_congr (h : ps'.map (·.token) = ps.map (·.token)) :
    isSpaced ps' = isSpaced ps := by
  have tokens := map_token_behind h
  rw [isSpaced, isSpaced]
  generalize behind ps' = us' at tokens ⊢
  generalize behind ps = us at tokens ⊢
  -- Both sides ask for the same tokens, so they ask in the same way.
  split
  · next w n v qs =>
    rcases exists_of_tokens tokens.symm with ⟨w', vs, rfl, rest⟩
    rcases exists_of_tokens rest with ⟨v', qs', rfl, last⟩
    dsimp only
    rw [startsApart_congr last, spoken_congr last]
  · next other =>
    split
    · next w n v qs =>
      rcases exists_of_tokens tokens with ⟨w', vs, rfl, rest⟩
      rcases exists_of_tokens rest with ⟨v', qs', rfl, -⟩
      exact absurd rfl (other w' n v' qs')
    · rfl

namespace Region.Respells

variable {r' r : Region}

/-- All that is told by the tokens of a region is the same. -/
theorem tokens (h : r'.Respells r) : r'.reference = r.reference ∧ r'.isSpaced = r.isSpaced ∧
    r'.statement? = r.statement? := by
  cases h with
  | raw => exact ⟨rfl, rfl, rfl⟩
  | @tag kind _ _ _ _ _ same =>
    cases kind with
    | print => exact ⟨rfl, rfl, rfl⟩
    | block =>
      have words := spoken_congr same
      exact ⟨congrArg tagReference words, isSpaced_congr same, congrArg some words⟩

/-- Line breaks are no matter to what a region looks like. -/
theorem isApart (h : r'.Respells r) (apart : r.IsApart) : r'.IsApart := by
  cases h with
  | @raw body' body same =>
    rw [Region.IsApart, ← same] at apart
    exact fun found => apart (infix_unifyBreaks (by decide) (by decide) found)
  | @tag kind opening closing' closing ps' ps tokens same all =>
    rcases apart with ⟨⟨comment, block⟩, whole⟩
    rw [List.cons_append, List.tail_cons, ← all] at comment block
    refine ⟨⟨fun found => comment ?_, fun found => block ?_⟩, fun isBlock refers => ?_⟩
    · exact infix_unifyBreaks (by decide) (by decide) found
    · exact infix_unifyBreaks (by decide) (by decide) found
    · rw [spoken_congr tokens] at refers
      rcases whole isBlock refers with ⟨close, slash⟩
      rw [← same] at close slash
      exact ⟨fun found => close (infix_unifyBreaks (by decide) (by decide) found),
        fun mem => slash (mem_unifyBreaks mem (by decide))⟩

end Region.Respells

/-- Regions that are others but for their line breaks have the same references
and statements. -/
theorem regions_congr {rs' rs : List Region} (h : List.Forall₂ Region.Respells rs' rs) :
    (rs'.filter Region.isSpaced).flatMap Region.reference =
        (rs.filter Region.isSpaced).flatMap Region.reference ∧
      rs'.filterMap Region.statement? = rs.filterMap Region.statement? := by
  induction h with
  | nil => exact ⟨rfl, rfl⟩
  | cons head _ ih =>
    rcases head.tokens with ⟨reference, isSpaced, statement⟩
    rw [flatMap_filter_cons, flatMap_filter_cons, isSpaced, reference, ih.1,
      List.filterMap_cons, List.filterMap_cons, statement, ih.2]
    exact ⟨rfl, rfl⟩

theorem forall_isApart {rs' rs : List Region} (h : List.Forall₂ Region.Respells rs' rs)
    (apart : ∀ r ∈ rs, r.IsApart) : ∀ r ∈ rs', r.IsApart := by
  induction h with
  | nil => exact fun r' hr' => absurd hr' List.not_mem_nil
  | cons head _ ih =>
    intro r' hr'
    rcases List.mem_cons.mp hr' with rfl | hr'
    · exact head.isApart (apart _ List.mem_cons_self)
    · exact ih (fun r hr => apart r (List.mem_cons_of_mem _ hr)) r' hr'

end Respelled

section Texts

variable {text : String}

/-- The references that the scanner finds are those of the statements that are
spaced. -/
theorem map_unified_scan (outside : Outside [] (tokens text).tokens)
    (whole : (tokens text).mistake = none) (apart : ∀ r ∈ regions text, r.IsApart)
    (legal : ∀ ts ∈ blockTags (tokens text).tokens, IsLegal ts) :
    (scan text).map Directive.unified =
      ((regions text).filter Region.isSpaced).flatMap Region.reference := by
  rcases fallsInto_regions outside whole with ⟨falls, tags⟩
  -- The scanner of tokens reads the text with unified line breaks, the other one as it is.
  rcases falls.respell rfl with ⟨rs, falls, same⟩
  rcases regions_congr same with ⟨refs, statements⟩
  rw [tags, ← statements] at legal
  exact (falls.lists (forall_isApart same apart) legal 1).trans refs

theorem flatMap_tagReference (rs : List Region) :
    (rs.filterMap Region.statement?).flatMap tagReference = rs.flatMap Region.reference := by
  induction rs with
  | nil => rfl
  | cons r rs ih =>
    rw [List.flatMap_cons, ← ih]
    cases r with
    | raw => rfl
    | tag kind => cases kind <;> rfl

/-- Where all statements that refer to a template are spaced, none is left out. -/
theorem flatMap_filter_isSpaced {rs : List Region}
    (h : ∀ r ∈ rs, r.reference ≠ [] → r.isSpaced = true) :
    (rs.filter Region.isSpaced).flatMap Region.reference = rs.flatMap Region.reference := by
  induction rs with
  | nil => rfl
  | cons r rs ih =>
    rw [flatMap_filter_cons, ih fun r hr => h r (List.mem_cons_of_mem _ hr), List.flatMap_cons]
    split
    · rfl
    · next unspaced =>
      rw [not_not.mp (mt (h r List.mem_cons_self) unspaced)]

theorem isSingle_of_statement? {rs : List Region} (h : ∀ r ∈ rs, r.isSingle = true) :
    ∀ ts ∈ rs.filterMap Region.statement?, Template.isSingle ts = true := by
  intro ts hts
  rcases List.mem_filterMap.mp hts with ⟨r, hr, statement⟩
  have single := h r hr
  cases r with
  | raw => exact absurd statement (Option.some_ne_none ts).symm
  | tag kind =>
    cases kind with
    | print => exact absurd statement (Option.some_ne_none ts).symm
    | block => exact Option.some.inj statement ▸ single

/-- A name without line feeds is the same with unified line breaks. -/
theorem key_of_unified {d : Directive}
    (h : '\r' ∉ d.name.toList ∨ '\n' ∉ d.unified.2.toList) : d.key = d.unified := by
  have same : unifyBreaks d.name.toList = d.name.toList := by
    rcases h with return_notMem | feed_notMem
    · exact unifyBreaks_of_notMem return_notMem
    · rw [Directive.unified, String.toList_ofList] at feed_notMem
      exact unifyBreaks_eq_self feed_notMem
  rw [Directive.key, Directive.unified, same, String.ofList_toList]

/-- The scanner of references agrees with the parser. In a template that can be
parsed, in which no region looks like another one and every target is a single
one, it lists the references of the template that have blanks around their
targets, in order, and nothing else. If all have them, it lists all. The names
are the same but for line breaks in them, so without such breaks they are the
same. -/
theorem scan_eq_references {stmts : List Stmt} (h : parse text = .ok stmts)
    (apart : ∀ r ∈ regions text, r.IsApart) (single : ∀ r ∈ regions text, r.isSingle = true) :
    references stmts = (regions text).flatMap Region.reference ∧
      (scan text).map Directive.unified =
        ((regions text).filter Region.isSpaced).flatMap Region.reference ∧
      ((∀ r ∈ regions text, r.reference ≠ [] → r.isSpaced = true) →
        (scan text).map Directive.unified = references stmts ∧
          ('\r' ∉ text.toList ∨ (∀ k ∈ references stmts, '\n' ∉ k.2.toList) →
            (scan text).map Directive.key = references stmts)) := by
  rcases outside_tokens text with ⟨cut, hcut, outside⟩
  -- Parsing succeeds, so no tag is cut off and there is no mistake.
  rcases references_of_parse hcut outside h with ⟨rfl, whole, legal, total⟩
  have tags := (fallsInto_regions outside whole).2
  have parsed : references stmts = (regions text).flatMap Region.reference := by
    rw [total (tags ▸ isSingle_of_statement? single), ← flatMap_tagReference, ← tags]
    rfl
  have scanned := map_unified_scan outside whole apart legal
  refine ⟨parsed, scanned, fun spaced => ?_⟩
  have agreed : (scan text).map Directive.unified = references stmts := by
    rw [parsed, scanned, flatMap_filter_isSpaced spaced]
  refine ⟨agreed, fun plain => ?_⟩
  rw [← agreed]
  refine List.map_congr_left fun d hd => key_of_unified ?_
  -- Without carriage returns or without line feeds, a name is unified as it stands.
  refine plain.imp (fun none => return_notMem_of_mem_scan none hd) fun none => ?_
  exact none _ (agreed ▸ List.mem_map_of_mem hd)

end Texts

/-- A raw block with a value in it, a comment with a reference, and references
that are apart and spaced. -/
def apartReferences : String :=
  "\x7b% raw %\x7d\x7b\x7b x \x7d\x7d\x7b% endraw %\x7d\x7b# \x7b% include 'n' %\x7d #\x7d" ++
    "\x7b%- extends 'a' %\x7d\x7b% include \"b\" ignore missing %\x7d"

theorem scan_eq_references_apart :
    ∃ stmts, parse apartReferences = .ok stmts ∧
      (∀ r ∈ regions apartReferences, r.IsApart) ∧
      (∀ r ∈ regions apartReferences, r.isSingle = true) ∧
      (∀ r ∈ regions apartReferences, r.reference ≠ [] → r.isSpaced = true) ∧
      '\r' ∉ apartReferences.toList ∧
      references stmts = [(.inherits, "a"), (.includes, "b")] ∧
      (scan apartReferences).map Directive.key = references stmts := by
  have parsed : (parse apartReferences).toOption.isSome = true := by decide +kernel
  have plain : '\r' ∉ apartReferences.toList := by decide +kernel
  have found : (∀ r ∈ regions apartReferences,
      r.IsApart ∧ r.isSingle = true ∧ (r.reference ≠ [] → r.isSpaced = true)) ∧
      (regions apartReferences).flatMap Region.reference =
        [(.inherits, "a"), (.includes, "b")] := by
    decide +kernel
  have apart := fun r hr => (found.1 r hr).1
  have single := fun r hr => (found.1 r hr).2.1
  have spaced := fun r hr => (found.1 r hr).2.2
  cases hp : parse apartReferences with
  | error e =>
    rw [hp] at parsed
    exact Bool.noConfusion parsed
  | ok stmts =>
    rcases scan_eq_references hp apart single with ⟨refs, -, agreed⟩
    exact ⟨stmts, rfl, apart, single, spaced, plain, refs.trans found.2,
      (agreed spaced).2 (.inl plain)⟩

end Template

end Stencil
