import Stencil.Config.Load

/-!
# Accepted Configurations

What the checks of a configuration leave to be relied on.

A configuration is made from fields, and each field is read by a check of its
own. A configuration that was accepted has therefore passed all of them, and
what is true of the outcome of one check is true of the field: a directory of
outputs is a path that was read from a text, and an extension is not empty.

## Main definitions

* `Config.Accepted`: The configuration was made from fields.
* `Config.Reads`: Every field of it has passed its check.

## Theorems

* `Config.accepted_default`: The configuration in which nothing is set is one.
* `Config.ofFields_eq_ok_iff`: What a configuration is made from.
* `Config.Accepted.outputDir`: Where outputs go was read from a text.
* `Config.Accepted.extension`: The extension is not empty.
* `Config.accepted_of_load`: The configuration of a tree is one.
-/

namespace Stencil

namespace Config

/-- The configuration was made from fields. -/
def Accepted (c : Config) : Prop :=
  ∃ fields, ofFields fields = .ok c

theorem accepted_default : Accepted default :=
  ⟨[], rfl⟩

/-- A function and its argument have both been accepted. -/
theorem apply_eq_ok {α β : Type} {f : Checked (α → β)} {x : Checked α} {b : β}
    (h : f.apply x = .ok b) : ∃ g a, f = .ok g ∧ x = .ok a ∧ g a = b := by
  cases f with
  | error cs => cases x <;> exact absurd h (by simp only [Checked.apply, reduceCtorEq,
      not_false_eq_true])
  | ok g =>
      cases x with
      | error cs => exact absurd h (by simp only [Checked.apply, reduceCtorEq, not_false_eq_true])
      | ok a => exact ⟨g, a, rfl, rfl, Except.ok.inj h⟩

/-- Every field of the configuration has passed its check. -/
structure Reads (fields : Fields) (c : Config) : Prop where
  querySuffixes :
    field fields "query_suffixes" default.querySuffixes readSuffixes = .ok c.querySuffixes
  partialSuffixes :
    field fields "partial_suffixes" default.partialSuffixes readSuffixes = .ok c.partialSuffixes
  macroSuffixes :
    field fields "macro_suffixes" default.macroSuffixes readSuffixes = .ok c.macroSuffixes
  partialsDir :
    field fields "partials_dir" default.partialsDir
      (fun place d => (readOption (readText place) d).map (·.bind barePartialsDir)) =
        .ok c.partialsDir
  outputDir :
    field fields "output_dir" default.outputDir (fun place => readOption (readPath place)) =
      .ok c.outputDir
  extension :
    field fields "extension" default.extension
      (fun place d => checkRule place bareExtension (readText place d)) = .ok c.extension
  header : field fields "header" default.header readText = .ok c.header
  context : field fields "context" default.context readContext = .ok c.context
  workers :
    field fields "workers" default.workers (fun place => readOption (readIntFrom 1 place)) =
      .ok c.workers
  includeIgnored :
    field fields "include_ignored" default.includeIgnored readBool = .ok c.includeIgnored
  verbose : field fields "verbose" default.verbose readBool = .ok c.verbose

/-- A configuration is made from fields iff each field passes its check and
    there is no other field. -/
theorem ofFields_eq_ok_iff {fields : Fields} {c : Config} :
    ofFields fields = .ok c ↔ Reads fields c ∧ unknownFields fields = .ok () := by
  constructor
  · intro h
    -- The last check comes off first.
    rcases apply_eq_ok h with ⟨_, _, h₁, hunknown, hc⟩
    rcases apply_eq_ok h₁ with ⟨_, _, h₂, hverbose, rfl⟩
    rcases apply_eq_ok h₂ with ⟨_, _, h₃, hignored, rfl⟩
    rcases apply_eq_ok h₃ with ⟨_, _, h₄, hworkers, rfl⟩
    rcases apply_eq_ok h₄ with ⟨_, _, h₅, hcontext, rfl⟩
    rcases apply_eq_ok h₅ with ⟨_, _, h₆, hheader, rfl⟩
    rcases apply_eq_ok h₆ with ⟨_, _, h₇, hextension, rfl⟩
    rcases apply_eq_ok h₇ with ⟨_, _, h₈, hdir, rfl⟩
    rcases apply_eq_ok h₈ with ⟨_, _, h₉, hpartials, rfl⟩
    rcases apply_eq_ok h₉ with ⟨_, _, h₁₀, hmacro, rfl⟩
    rcases apply_eq_ok h₁₀ with ⟨_, _, h₁₁, hpartial, rfl⟩
    rcases apply_eq_ok h₁₁ with ⟨_, _, h₁₂, hquery, rfl⟩
    rw [← Except.ok.inj h₁₂] at hc
    rw [← hc]
    exact ⟨⟨hquery, hpartial, hmacro, hpartials, hdir, hextension, hheader, hcontext, hworkers,
      hignored, hverbose⟩, hunknown⟩
  · intro ⟨h, hunknown⟩
    simp only [ofFields, h.querySuffixes, h.partialSuffixes, h.macroSuffixes, h.partialsDir,
      h.outputDir, h.extension, h.header, h.context, h.workers, h.includeIgnored, h.verbose,
      hunknown, Checked.apply]

/-- A field that passed its check has its default or was read. -/
theorem field_eq_ok {α : Type} {fields : Fields} {name : String} {default v : α}
    {read : List String → Datum → Checked α} (h : field fields name default read = .ok v) :
    v = default ∨ ∃ d, read [name] d = .ok v := by
  rw [field] at h
  rcases hlookup : fields.lookup name with _ | d
  · rw [hlookup] at h
    exact Or.inl (Except.ok.inj h).symm
  · rw [hlookup] at h
    exact Or.inr ⟨d, h⟩

/-- Every field of a configuration that was accepted passed its check. -/
theorem Accepted.exists_reads {c : Config} (h : c.Accepted) : ∃ fields, Reads fields c := by
  rcases h with ⟨fields, h⟩
  exact ⟨fields, (ofFields_eq_ok_iff.mp h).1⟩

/-- A directory of outputs was read from a text. -/
theorem Accepted.outputDir {c : Config} (h : c.Accepted) {dir : Path}
    (hdir : c.outputDir = some dir) : ∃ s, dir = Path.ofString s := by
  rcases h.exists_reads with ⟨fields, hreads⟩
  have hfield := hreads.outputDir
  rw [hdir] at hfield
  rcases field_eq_ok hfield with heq | ⟨d, hd⟩
  · exact absurd heq (Option.some_ne_none dir)
  · cases d with
    | text s => exact ⟨s, (Option.some.inj (Except.ok.inj hd)).symm⟩
    | null => exact absurd (Except.ok.inj hd) (Option.some_ne_none dir).symm
    | _ => exact absurd hd (by simp only [readOption, readPath, complain, Except.map,
        reduceCtorEq, not_false_eq_true])

/-- What passed a rule was read, and the rule was applied to it. -/
theorem checkRule_eq_ok {α β : Type} {place : List String} {rule : α → Except String β}
    {x : Checked α} {b : β} (h : checkRule place rule x = .ok b) :
    ∃ a, x = .ok a ∧ rule a = .ok b := by
  rcases x with cs | a
  · simp only [checkRule, reduceCtorEq] at h
  · rcases hrule : rule a with m | b'
    · rw [checkRule, hrule] at h
      cases h
    · rw [checkRule, hrule] at h
      exact ⟨a, rfl, hrule.trans (congrArg _ (Except.ok.inj h))⟩

/-- The extension is what the check of a text left. -/
theorem Accepted.exists_extension {c : Config} (h : c.Accepted) :
    ∃ s, bareExtension s = .ok c.extension := by
  rcases h.exists_reads with ⟨fields, hreads⟩
  rcases field_eq_ok hreads.extension with heq | ⟨d, hd⟩
  · exact ⟨"sql", by rw [heq]; rfl⟩
  · rcases checkRule_eq_ok hd with ⟨s, _, hs⟩
    exact ⟨s, hs⟩

theorem bareExtension_eq_ok {s ext : String} (h : bareExtension s = .ok ext) :
    ext ≠ "" ∧ ext = Text.trimLeft (Text.trim s) (· == '.') := by
  rw [bareExtension] at h
  by_cases hempty : (Text.trimLeft (Text.trim s) (· == '.')).isEmpty = true
  · rw [if_pos hempty] at h
    cases h
  · rw [if_neg hempty] at h
    rw [← Except.ok.inj h]
    rw [String.isEmpty_iff] at hempty
    exact ⟨hempty, rfl⟩

/-- The extension of outputs is not empty. -/
theorem Accepted.extension {c : Config} (h : c.Accepted) : c.extension ≠ "" := by
  rcases h.exists_extension with ⟨s, hs⟩
  exact (bareExtension_eq_ok hs).1

theorem barePartialsDir_eq_some {s dir : String} (h : barePartialsDir s = some dir) :
    dir ≠ "" ∧ dir = Text.trim (Text.replaceAll "\\" "/" s) (· == '/') := by
  rw [barePartialsDir] at h
  by_cases hempty : (Text.trim (Text.replaceAll "\\" "/" s) (· == '/')).isEmpty = true
  · rw [if_pos hempty] at h
    cases h
  · rw [if_neg hempty] at h
    rw [← Option.some.inj h]
    rw [String.isEmpty_iff] at hempty
    exact ⟨hempty, rfl⟩

/-- What a document stands for was made from fields. -/
theorem accepted_of_ofDatum {path : Path} {d : Datum} {c : Config}
    (h : ofDatum path d = .ok c) : c.Accepted := by
  unfold ofDatum at h
  by_cases hempty : d.isEmpty = true
  · rw [if_pos hempty, Except.ok.injEq] at h
    exact h ▸ accepted_default
  · rw [if_neg hempty] at h
    cases d with
    | map es =>
        rcases hes : fieldsOf? es with _ | fields
        · simp only [hes, reduceCtorEq] at h
        · rcases hfields : ofFields fields with cs | c'
          · simp only [hes, hfields] at h
            cases h
          · simp only [hes, hfields] at h
            exact ⟨fields, Except.ok.inj h ▸ hfields⟩
    | _ => simp only [reduceCtorEq] at h

theorem accepted_of_read {fs : FileSystem} {path : Path} {c : Config}
    (h : read fs path = .ok c) : c.Accepted := by
  unfold read at h
  rcases hread : fs.read path with why | bytes
  · simp only [hread, reduceCtorEq] at h
  · rcases hdecode : Text.Utf8.decode bytes with why | text
    · simp only [hread, hdecode, reduceCtorEq] at h
    · simp only [hread, hdecode] at h
      rcases hdocument : documentOf path text with why | d
      · rw [hdocument] at h
        exact absurd h (by simp only [bind, Except.bind, reduceCtorEq, not_false_eq_true])
      · rw [hdocument] at h
        exact accepted_of_ofDatum h

theorem accepted_of_readFirst {fs : FileSystem} {c : Config} (paths : List Path)
    (h : readFirst fs paths = .ok c) : c.Accepted := by
  induction paths with
  | nil => exact Except.ok.inj h ▸ accepted_default
  | cons p ps ih =>
      rw [readFirst] at h
      rcases hthere : fs.exists? p with why | there
      · simp only [hthere, reduceCtorEq] at h
      · cases there with
        | true =>
            simp only [hthere] at h
            exact accepted_of_read h
        | false =>
            simp only [hthere] at h
            exact ih h

/-- The configuration of a tree was made from fields, or from none. -/
theorem accepted_of_load {fs : FileSystem} {root : Path} {file : Option Path} {c : Config}
    (h : load fs root file = .ok c) : c.Accepted := by
  cases file with
  | none => exact accepted_of_readFirst _ h
  | some path =>
      rw [load] at h
      rcases hthere : fs.exists? path with why | there
      · simp only [hthere, reduceCtorEq] at h
      · cases there with
        | true =>
            simp only [hthere] at h
            exact accepted_of_read h
        | false => simp only [hthere, reduceCtorEq] at h

end Config

end Stencil
