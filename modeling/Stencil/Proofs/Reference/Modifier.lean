import Stencil.Proofs.Template.Target
import Stencil.Proofs.Template.Word

/-!
# Modifiers in Characters and in Tokens

What may follow the target of a tag, told by the characters and by the tokens.

The scanner of references and the parser of templates have a rule of their own
for the words behind a target. On the pieces of one tag the two rules agree,
but for two things that only characters show: whether there is a blank behind
the target, and whether the name that macros get is made of word characters
alone. `tailFits_spelling_iff` says so for all four tags.

The parser makes sure that a name follows the word that asks for one. The
scanner does not look for it behind `import`, so that is a hypothesis here.

## Main definitions

* `givesWord`: The name that macros get is made of word characters.
* `AsksName`: A name follows the word that asks for one.

## Theorems

* `Reads.context_iff`: The words about the context.
* `tailFits_spelling_iff`: What may follow a target.
-/

namespace Stencil

namespace Template

open Text Reference

/-- The name that the macros of a template get, if one is given behind the
target, is made of word characters. -/
def givesWord : List Token → Bool
  | .name "as" :: .name a :: _ => a.toList.all isWordChar
  | _ => true

/-- Behind a target, a name follows the word that asks for one. -/
def AsksName (tag : Tag) (ts : List Token) : Prop :=
  ∀ v us, ts = .name v :: us → (tag = .imports ∧ v = "as") ∨ (tag = .importsFrom ∧ v = "import") →
    (us.head?.getD .eof).isName = true

theorem AsksName.exists_name {tag : Tag} {v : String} {us : List Token}
    (h : AsksName tag (.name v :: us))
    (words : (tag = .imports ∧ v = "as") ∨ (tag = .importsFrom ∧ v = "import")) :
    ∃ a ts, us = .name a :: ts := by
  have named := h v us rfl words
  cases us with
  | nil => exact Bool.noConfusion named
  | cons t ts =>
    cases t with
    | name a => exact ⟨a, ts, rfl⟩
    | _ => exact Bool.noConfusion named

variable {ps : List Spelled} {after : List Char}

/-- No word goes on where there is a gap. -/
theorem continuesWord_gap (g : Gap) (rest : List Char) :
    ∀ c ∈ (g.chars ++ rest).head?, continuesWord c = false := by
  intro c hc
  rw [List.head?_append_of_ne_nil _ g.ne_nil] at hc
  exact continuesWord_of_isBlank (g.blank c (List.mem_of_head? hc))

theorem continuesWord_context (context : Option ContextWords) (b : Space) :
    ∀ c ∈ (contextChars context ++ b.chars).head?, continuesWord c = false :=
  fun c hc => continuesWord_of_isBlank (isBlank_context context b c hc)

/-- The words about the context are the same in characters and in tokens. -/
theorem Reads.context_iff (h : Reads ps after) :
    (∃ (context : Option ContextWords) (b : Space), spelling ps = contextChars context ++ b.chars) ↔
      startsApart ps = true ∧ fitsContext (spoken ps) = true := by
  constructor
  · rintro ⟨context, b, hps⟩
    cases context with
    | none =>
      rcases h.spoken_space (b := b) hps with ⟨apart, none⟩
      exact ⟨apart, by rw [none]; rfl⟩
    | some w =>
      simp only [contextChars, ContextWords.chars, List.append_assoc] at hps
      -- Either word starts with a letter, so it is read as a name.
      have word : IsWord (if w.isWith then "with" else "without") ∧
          (if w.isWith then "with" else "without").toList.head?.any isDecimal = false := by
        cases w.isWith <;> decide
      rcases h.gapWord word.1 word.2 hps (continuesWord_gap w.inner _) with
        ⟨qs, apart, first, hqs, h⟩
      rcases h.gapWord (show IsWord "context" by decide) (by decide) hqs
        (continuesWord_context none b) with ⟨qs', -, second, hqs', h⟩
      rw [first, second, (h.spoken_space hqs').2]
      refine ⟨apart, ?_⟩
      cases w.isWith <;> rfl
  · rintro ⟨apart, fit⟩
    cases hps : spoken ps with
    | nil =>
      rcases (h.exists_space hps).2 with ⟨b, hb⟩
      exact ⟨none, b, hb⟩
    | cons t ts =>
      rw [hps] at fit
      -- The tokens show which of the two words it is; the blanks are those of the pieces.
      have words : ∃ isWith : Bool, t = .name (if isWith then "with" else "without") := by
        rcases (fitsContext_cases fit).1 with rfl | rfl
        · exact ⟨true, rfl⟩
        · exact ⟨false, rfl⟩
      rcases words with ⟨isWith, rfl⟩
      rcases h.exists_gapWord apart hps with ⟨g, qs, spelled, hqs, h, -, -, stop⟩
      rw [(fitsContext_cases fit).2] at hqs
      rcases h.exists_gapWord (h.apart stop hqs) hqs with ⟨g', qs', spelled', hqs', h, -⟩
      rcases (h.exists_space hqs').2 with ⟨b, hb⟩
      refine ⟨some ⟨g, isWith, g'⟩, b, ?_⟩
      rw [spelled, spelled', hb]
      simp only [contextChars, ContextWords.chars, List.append_assoc]

/-- Words about the context that follow a word are apart from it. -/
theorem Reads.apart_context (h : Reads ps after)
    (stop : ∀ c ∈ (spelling ps ++ after).head?, continuesWord c = false)
    (fit : fitsContext (spoken ps) = true) : startsApart ps = true := by
  cases hps : spoken ps with
  | nil => exact (h.exists_space hps).1
  | cons t ts =>
    rw [hps] at fit
    rcases (fitsContext_cases fit).1 with rfl | rfl
    · exact h.apart stop hps
    · exact h.apart stop hps

theorem fits_includes_iff {ts : List Token} :
    fits .includes ts = true ↔
      (∃ us, ts = .name "ignore" :: .name "missing" :: us ∧ fitsContext us = true) ∨
        fitsContext ts = true := by
  constructor
  · intro h
    unfold fits at h
    split at h
    · exact .inl ⟨_, rfl, h⟩
    · exact .inr h
    · next other => exact Tag.noConfusion other
    · next other => exact Tag.noConfusion other
    · next other => exact Tag.noConfusion other
    · exact Bool.noConfusion h
  · rintro (⟨us, rfl, h⟩ | h)
    · exact h
    · exact fits_of_fitsContext h

theorem Reads.includes_iff (h : Reads ps after) :
    tailFits .includes (spelling ps) = true ↔
      startsApart ps = true ∧ fits .includes (spoken ps) = true := by
  rw [tailFits_includes_iff, fits_includes_iff]
  constructor
  · rintro ⟨missing, context, b, hps⟩
    cases missing with
    | none =>
      rcases h.context_iff.mp ⟨context, b, hps⟩ with ⟨apart, fit⟩
      exact ⟨apart, .inr fit⟩
    | some gaps =>
      simp only [missingChars, List.append_assoc] at hps
      -- Each word that is found takes off one token, and the rest is about the context.
      rcases h.gapWord (show IsWord "ignore" by decide) (by decide) hps
        (continuesWord_gap gaps.2 _) with ⟨qs, apart, first, hqs, h⟩
      rcases h.gapWord (show IsWord "missing" by decide) (by decide) hqs
        (continuesWord_context context b) with ⟨qs', -, second, hqs', h⟩
      refine ⟨apart, .inl ⟨spoken qs', by rw [first, second], ?_⟩⟩
      exact (h.context_iff.mp ⟨context, b, hqs'⟩).2
  · rintro ⟨apart, ⟨us, hps, fit⟩ | fit⟩
    · rcases h.exists_gapWord apart hps with ⟨g, qs, spelled, hqs, h, -, -, stop⟩
      rcases h.exists_gapWord (h.apart stop hqs) hqs with ⟨g', qs', spelled', rfl, h, -, -, stop⟩
      rcases h.context_iff.mpr ⟨h.apart_context stop fit, fit⟩ with ⟨context, b, hb⟩
      refine ⟨some (g, g'), context, b, ?_⟩
      rw [spelled, spelled', hb]
      simp only [missingChars, List.append_assoc]
    · rcases h.context_iff.mpr ⟨apart, fit⟩ with ⟨context, b, hb⟩
      exact ⟨none, context, b, hb⟩

theorem Reads.inherits_iff (h : Reads ps after) :
    tailFits .inherits (spelling ps) = true ↔
      startsApart ps = true ∧ fits .inherits (spoken ps) = true := by
  rw [tailFits_inherits_iff]
  constructor
  · rintro ⟨b, hps⟩
    rcases h.spoken_space hps with ⟨apart, none⟩
    exact ⟨apart, by rw [none]; rfl⟩
  · rintro ⟨-, fit⟩
    exact (h.exists_space (List.isEmpty_iff.mp fit)).2

theorem fits_imports_iff {ts : List Token} :
    fits .imports ts = true ↔
      ∃ a us, ts = .name "as" :: .name a :: us ∧ fitsContext us = true := by
  constructor
  · intro h
    unfold fits at h
    split at h
    · next other => exact Tag.noConfusion other
    · next other _ => exact Tag.noConfusion other
    · next other => exact Tag.noConfusion other
    · exact ⟨_, _, rfl, h⟩
    · next other => exact Tag.noConfusion other
    · exact Bool.noConfusion h
  · rintro ⟨a, us, rfl, h⟩
    exact h

theorem Reads.imports_iff (h : Reads ps after) (named : AsksName .imports (spoken ps)) :
    tailFits .imports (spelling ps) = true ↔
      startsApart ps = true ∧ fits .imports (spoken ps) = true ∧ givesWord (spoken ps) = true := by
  rw [tailFits_imports_iff, fits_imports_iff]
  constructor
  · rintro ⟨gap, inner, name, context, b, hps⟩
    rcases h.gapWord (show IsWord "as" by decide) (by decide) hps (continuesWord_gap inner _) with
      ⟨qs, apart, first, hqs, h⟩
    rw [first] at named
    rcases named.exists_name (.inl ⟨rfl, rfl⟩) with ⟨a, ts, second⟩
    -- The scanner reads the name as a run of word characters. It is a token because nothing that
    -- continues a word comes behind it.
    have solid := name.notBlank (contextChars context ++ b.chars)
    rcases h.gap hqs solid with ⟨w, rs, rfl, hrs, h⟩
    rcases h.eq_cons (show spoken rs = _ from second) (hrs ▸ solid) with ⟨v, rs', rfl, hrs'⟩
    rcases h.name ((spelling_cons _ _).symm.trans hrs)
      (fun c hc => continuesWord_of_isWordChar (name.word c hc))
      (continuesWord_context context b) with ⟨same, rest⟩
    refine ⟨apart, ⟨a, ts, by rw [first, second], ?_⟩, ?_⟩
    · rw [← hrs']
      exact (h.2.context_iff.mp ⟨context, b, rest⟩).2
    · rw [first, second, givesWord, same, List.all_eq_true]
      exact name.word
  · rintro ⟨apart, ⟨a, us, hps, fit⟩, word⟩
    rw [hps, givesWord, List.all_eq_true] at word
    rcases h.exists_gapWord apart hps with ⟨g, qs, spelled, hqs, h, -, -, stop⟩
    rcases h.exists_gapWord (h.apart stop hqs) hqs with
      ⟨g', qs', spelled', rfl, h, present, -, stop⟩
    rcases h.context_iff.mpr ⟨h.apart_context stop fit, fit⟩ with ⟨context, b, hb⟩
    -- The name has word characters only by hypothesis: a token may have marks in it.
    exact ⟨g, g', ⟨a.toList, present, word⟩, context, b, by rw [spelled, spelled', hb]⟩

theorem fits_importsFrom_iff {ts : List Token} :
    fits .importsFrom ts = true ↔ ∃ v us, ts = .name "import" :: .name v :: us := by
  constructor
  · intro h
    unfold fits at h
    split at h
    · next other => exact Tag.noConfusion other
    · next other _ => exact Tag.noConfusion other
    · next other => exact Tag.noConfusion other
    · next other => exact Tag.noConfusion other
    · exact ⟨_, _, rfl⟩
    · exact Bool.noConfusion h
  · rintro ⟨v, us, rfl⟩
    rfl

theorem Reads.importsFrom_iff (h : Reads ps after) (named : AsksName .importsFrom (spoken ps)) :
    tailFits .importsFrom (spelling ps) = true ↔
      startsApart ps = true ∧ fits .importsFrom (spoken ps) = true := by
  rw [tailFits_importsFrom_iff, fits_importsFrom_iff]
  constructor
  · rintro ⟨gap, inner, c, rest, -, hps⟩
    rcases h.gapWord (show IsWord "import" by decide) (by decide) hps
      (continuesWord_gap inner _) with ⟨qs, apart, first, hqs, h⟩
    rw [first] at named
    -- The scanner asks for anything behind the word, the parser for a name.
    rcases named.exists_name (.inr ⟨rfl, rfl⟩) with ⟨v, us, second⟩
    exact ⟨apart, v, us, by rw [first, second]⟩
  · rintro ⟨apart, v, us, hps⟩
    rcases h.exists_gapWord apart hps with ⟨g, qs, spelled, hqs, h, -, -, stop⟩
    rcases h.exists_gapWord (h.apart stop hqs) hqs with ⟨g', qs', spelled', -, -, present, word, -⟩
    rcases List.exists_cons_of_ne_nil present with ⟨c, cs, hc⟩
    refine ⟨g, g', c, cs ++ spelling qs', ?_, by rw [spelled, spelled', hc]; rfl⟩
    exact isBlank_of_continuesWord (word c (by rw [hc]; exact List.mem_cons_self))

/-- What follows a target fits in characters just if it fits in tokens, is apart
from the target, and gives the macros a name that is a word. -/
theorem tailFits_spelling_iff {tag : Tag} (h : Reads ps after) (named : AsksName tag (spoken ps)) :
    tailFits tag (spelling ps) = true ↔
      startsApart ps = true ∧ fits tag (spoken ps) = true ∧ givesWord (spoken ps) = true := by
  cases tag with
  | imports => exact h.imports_iff named
  | includes =>
    -- The other tags give the macros no name, so nothing is asked of it.
    rw [h.includes_iff]
    refine and_congr_right fun _ => (and_iff_left_of_imp fun fit => ?_).symm
    rcases fits_includes_iff.mp fit with ⟨us, hps, -⟩ | fit
    · rw [hps]
      rfl
    · cases hps : spoken ps with
      | nil => rfl
      | cons t ts =>
        rw [hps] at fit
        rcases (fitsContext_cases fit).1 with rfl | rfl <;> rfl
  | inherits =>
    rw [h.inherits_iff]
    refine and_congr_right fun _ => (and_iff_left_of_imp fun fit => ?_).symm
    rw [List.isEmpty_iff.mp fit]
    rfl
  | importsFrom =>
    rw [h.importsFrom_iff named]
    refine and_congr_right fun _ => (and_iff_left_of_imp fun fit => ?_).symm
    rcases fits_importsFrom_iff.mp fit with ⟨v, us, hps⟩
    rw [hps]
    rfl

end Template

end Stencil
