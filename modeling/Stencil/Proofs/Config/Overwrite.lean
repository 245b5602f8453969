import Stencil.Proofs.Config.Override

/-!
# Writing Settings over a File

What is left of the settings of a file after others have been written over
them.

The settings of a tree come from a file, which is named or found at its root, or
from nowhere. What is then written over them is a list with a value or nothing
for each of some fields. A field with nothing keeps what it had, and any other
field takes the value, if that passes by itself.

The extension is the exception. It is checked once more if any field takes a
value, so it can change although it has nothing written over it.

## Main definitions

* `Config.Found`: The file that configures a tree, and what it says.
* `Config.Mergeable`: There is a context to be merged, if there is one at all.
* `Config.Overwritten`: What is left after writing, be there something to write
  or not.

## Theorems

* `Config.load_eq_ok_iff`: Which file is read.
* `Config.Accepted.overwritten`: Overriding is writing over.
* `Config.Accepted.override_invalid`: A value that does not pass by itself is
  refused.
* `Config.Overwritten.outputDir`, `Config.Overwritten.header`,
  `Config.Overwritten.workers`: A field has the value that is written over it, or
  the one it had.
-/

namespace Stencil

namespace Config

/-! ### Files -/

/-- What a tree is configured by: the file that is named, or the first of two
    that exists at its root, or the defaults. -/
inductive Found (fs : FileSystem) (root : Path) : Option Path → Config → Prop where
  /-- A file is named, and it exists. -/
  | named {path : Path} {c : Config} (hthere : fs.exists? path = .ok true)
      (h : read fs path = .ok c) : Found fs root (some path) c
  /-- The first file exists. -/
  | first {c : Config} (hthere : fs.exists? (root.child "sqlweld.yaml") = .ok true)
      (h : read fs (root.child "sqlweld.yaml") = .ok c) : Found fs root none c
  /-- Only the second one does. -/
  | second {c : Config} (hfirst : fs.exists? (root.child "sqlweld.yaml") = .ok false)
      (hthere : fs.exists? (root.child "sqlweld.yml") = .ok true)
      (h : read fs (root.child "sqlweld.yml") = .ok c) : Found fs root none c
  /-- Neither does. -/
  | neither (hfirst : fs.exists? (root.child "sqlweld.yaml") = .ok false)
      (hsecond : fs.exists? (root.child "sqlweld.yml") = .ok false) : Found fs root none default

theorem load_eq_ok_iff {fs : FileSystem} {root : Path} {file : Option Path} {c : Config} :
    load fs root file = .ok c ↔ Found fs root file c := by
  constructor
  · intro h
    cases file with
    | some path =>
        rw [load] at h
        rcases hthere : fs.exists? path with why | there
        · simp only [hthere, reduceCtorEq] at h
        · cases there with
          | true =>
              simp only [hthere] at h
              exact .named hthere h
          | false => simp only [hthere, reduceCtorEq] at h
    | none =>
        rw [load, fileNames, List.map_cons, List.map_cons, List.map_nil, readFirst] at h
        rcases hfirst : fs.exists? (root.child "sqlweld.yaml") with why | there
        · simp only [hfirst, reduceCtorEq] at h
        · cases there with
          | true =>
              simp only [hfirst] at h
              exact .first hfirst h
          | false =>
              simp only [hfirst, readFirst] at h
              rcases hsecond : fs.exists? (root.child "sqlweld.yml") with why | there
              · simp only [hsecond, reduceCtorEq] at h
              · cases there with
                | true =>
                    simp only [hsecond] at h
                    exact .second hfirst hsecond h
                | false =>
                    simp only [hsecond, Except.ok.injEq] at h
                    exact h ▸ .neither hfirst hsecond
  · intro h
    cases h with
    | named hthere h => rw [load, hthere]; exact h
    | first hthere h =>
        rw [load, fileNames, List.map_cons, readFirst, hthere]
        exact h
    | second hfirst hthere h =>
        rw [load, fileNames, List.map_cons, List.map_cons, readFirst, hfirst]
        simp only [readFirst, hthere]
        exact h
    | neither hfirst hsecond =>
        rw [load, fileNames, List.map_cons, List.map_cons, List.map_nil, readFirst, hfirst]
        simp only [readFirst, hsecond]

/-! ### Single fields -/

section Single

variable {c₁ : Config}

theorem reads_of_singleton {name : String} {d : Datum} (h : ofFields [(name, d)] = .ok c₁) :
    Reads [(name, d)] c₁ :=
  (ofFields_eq_ok_iff.mp h).1

theorem outputDir_of_singleton {s : String} (h : ofFields [("output_dir", .text s)] = .ok c₁) :
    c₁.outputDir = some (Path.ofString s) :=
  (Except.ok.inj (reads_of_singleton h).outputDir).symm

theorem bareExtension_of_singleton {s : String} (h : ofFields [("extension", .text s)] = .ok c₁) :
    bareExtension s = .ok c₁.extension := by
  have hfield := (reads_of_singleton h).extension
  rw [field_of_lookup List.lookup_cons_self] at hfield
  rcases checkRule_eq_ok hfield with ⟨a, ha, hbare⟩
  cases ha
  exact hbare

theorem header_of_singleton {s : String} (h : ofFields [("header", .text s)] = .ok c₁) :
    c₁.header = s :=
  (Except.ok.inj (reads_of_singleton h).header).symm

theorem workers_of_singleton {n : Int} (h : ofFields [("workers", .int n)] = .ok c₁) :
    c₁.workers = some n ∧ 1 ≤ n := by
  have hfield := (reads_of_singleton h).workers
  rw [field_of_lookup List.lookup_cons_self] at hfield
  simp only [readOption, readIntFrom, readInt] at hfield
  by_cases hsmall : n < 1
  · rw [if_pos hsmall] at hfield
    cases hfield
  · rw [if_neg hsmall] at hfield
    exact ⟨(Except.ok.inj hfield).symm, Int.not_lt.mp hsmall⟩

theorem includeIgnored_of_singleton (h : ofFields [("include_ignored", .bool true)] = .ok c₁) :
    c₁.includeIgnored = true :=
  (Except.ok.inj (reads_of_singleton h).includeIgnored).symm

theorem verbose_of_singleton (h : ofFields [("verbose", .bool true)] = .ok c₁) :
    c₁.verbose = true :=
  (Except.ok.inj (reads_of_singleton h).verbose).symm

end Single

/-! ### Writing over fields -/

/-- What is left of a configuration after others have been written over it, be
    there something to write or not. -/
structure Overwritten (c : Config) (overrides : Fields) (c' : Config) : Prop where
  /-- It was made from fields. -/
  before : c.Accepted
  /-- So is what is left of it. -/
  after : c'.Accepted
  /-- Fields that are not overridden are left alone, but for the extension. -/
  kept : ∀ name, ¬ Named overrides name → name ≠ "extension" →
    c'.fields.lookup name = c.fields.lookup name
  /-- The extension is left alone unless it starts with a blank and something is
      overridden. -/
  extension : ¬ Named overrides "extension" → c'.extension = c.extension ∨
    ((∃ o ∈ overrides, o.2 ≠ .null) ∧ ¬ c.BareStart ∧ bareExtension c.extension = .ok c'.extension)
  /-- A field that is overridden is what the value gives by itself. -/
  taken : ∀ name d, (name, d) ∈ overrides → d ≠ .null → name ≠ "context" →
    ∃ c₁, ofFields [(name, d)] = .ok c₁ ∧ c'.fields.lookup name = c₁.fields.lookup name
  /-- The entries of a context are written into the one that was there. -/
  merged : ∀ more, ("context", contextDatum more) ∈ overrides →
    c'.context = more.foldl (fun done e => setField done e.1 e.2) c.context

section Overwritten

variable {c c' : Config} {overrides : Fields} {name : String} {d : Datum}

/-- There is a context to be merged, if there is one at all. -/
def Mergeable (overrides : Fields) : Prop :=
  ∀ d, ("context", d) ∈ overrides → d ≠ .null → ∃ es, d = .map es

theorem Mergeable.lookup (hmap : Mergeable overrides) (h : (overrides.map Prod.fst).Nodup) :
    ∀ d, (activeOverrides overrides).lookup "context" = some d → ∃ es, d = .map es := by
  intro d hd
  rcases (lookup_active_iff h).mp hd with ⟨hmem, hnull⟩
  exact hmap d hmem hnull

/-- Overriding is overwriting. -/
theorem Accepted.overwritten (hc : c.Accepted) (h : (overrides.map Prod.fst).Nodup)
    (hmap : Mergeable overrides) (hok : c.override overrides = .ok c') :
    Overwritten c overrides c' := by
  -- Without anything to write the fields are not checked, and with something they are.
  by_cases hnull : ∀ o ∈ overrides, o.2 = .null
  · rw [override_of_all_null c overrides hnull, Except.ok.injEq] at hok
    subst hok
    refine ⟨hc, hc, fun _ _ _ => rfl, fun _ => Or.inl rfl, fun name d hmem hd => ?_,
      fun more hmem => ?_⟩
    · exact absurd (hnull _ hmem) hd
    · exact absurd (hnull _ hmem) Datum.noConfusion
  · simp only [not_forall] at hnull
    rcases hnull with ⟨o, ho, hd⟩
    have hactive : activeOverrides overrides ≠ [] :=
      List.ne_nil_of_mem (mem_activeOverrides.mpr ⟨ho, hd⟩)
    rw [override_of_map hactive (hmap.lookup h), mapError_eq_ok_iff] at hok
    have hleft := hc.overridden h hok
    refine ⟨hc, ⟨_, hok⟩, hleft.kept, fun hnot => ?_, hleft.taken, hleft.merged_texts⟩
    by_cases hbare : c.BareStart
    · exact Or.inl ((hleft.extension_iff hnot).mpr hbare)
    · exact Or.inr ⟨⟨o, ho, hd⟩, hbare, hleft.extension hnot⟩

/-- An override that would not pass by itself does not pass. -/
theorem Accepted.override_invalid (hc : c.Accepted) (h : (overrides.map Prod.fst).Nodup)
    (hmap : Mergeable overrides) (hmem : (name, d) ∈ overrides) (hd : d ≠ .null)
    (hbad : ∀ c₁, ofFields [(name, d)] ≠ .ok c₁) :
    ∃ cs, c.override overrides = .error (.invalid cs) := by
  have hactive : activeOverrides overrides ≠ [] :=
    List.ne_nil_of_mem (mem_activeOverrides.mpr ⟨hmem, hd⟩)
  rw [override_of_map hactive (hmap.lookup h)]
  rcases hok : ofFields (c.rewritten overrides) with cs | c'
  · exact ⟨cs, rfl⟩
  · rcases ((hc.exists_ofFields_iff h (hmap.lookup h)).mp ⟨c', hok⟩).1 _ hmem hd with ⟨c₁, hc₁⟩
    exact absurd hc₁ (hbad c₁)

/-- Values that pass by themselves can be written over a configuration whose
    extension does not start with a blank. -/
theorem Accepted.exists_override (hc : c.Accepted) (h : (overrides.map Prod.fst).Nodup)
    (hmap : Mergeable overrides) (hbare : c.BareStart)
    (halone : ∀ o ∈ overrides, o.2 ≠ .null → ∃ c₁, ofFields [o] = .ok c₁) :
    ∃ c', c.override overrides = .ok c' := by
  by_cases hnull : ∀ o ∈ overrides, o.2 = .null
  · exact ⟨c, override_of_all_null c overrides hnull⟩
  · simp only [not_forall] at hnull
    rcases hnull with ⟨o, ho, hd⟩
    have hactive : activeOverrides overrides ≠ [] :=
      List.ne_nil_of_mem (mem_activeOverrides.mpr ⟨ho, hd⟩)
    rcases (hc.exists_ofFields_iff h (hmap.lookup h)).mpr
      ⟨halone, fun _ => ⟨_, hc.bareExtension_iff.mpr hbare⟩⟩ with ⟨c', hc'⟩
    refine ⟨c', ?_⟩
    rw [override_of_map hactive (hmap.lookup h), mapError_eq_ok_iff]
    exact hc'

theorem named_iff (h : (overrides.map Prod.fst).Nodup) (hmem : (name, d) ∈ overrides) :
    Named overrides name ↔ d ≠ .null := by
  constructor
  · rintro ⟨d', hmem', hd'⟩
    have heq := (lookup_eq_some_iff h).mpr hmem
    rw [(lookup_eq_some_iff h).mpr hmem', Option.some.injEq] at heq
    exact heq ▸ hd'
  · exact fun hd => ⟨d, hmem, hd⟩

theorem not_named_of_notMem (hnot : name ∉ overrides.map Prod.fst) : ¬ Named overrides name :=
  fun ⟨_, hmem, _⟩ => hnot (List.mem_map_of_mem hmem)

theorem Overwritten.outputDir (hover : Overwritten c overrides c')
    (h : (overrides.map Prod.fst).Nodup) {o : Option Path}
    (hmem : ("output_dir", o.elim .null fun p => .text p.text) ∈ overrides) :
    c'.outputDir = (o.map fun p => Path.ofString p.text).or c.outputDir := by
  cases o with
  | none =>
      have hkept := hover.kept "output_dir"
        (fun hnamed => (named_iff h hmem).mp hnamed rfl) (by decide)
      -- Paths that were read from texts are determined by their texts.
      refine ofOption_inj (fun _ => Datum.noConfusion) (fun p q hp hq htext => ?_)
        (Option.some.inj hkept)
      rcases hover.after.outputDir hp with ⟨s, rfl⟩
      rcases hover.before.outputDir hq with ⟨t, rfl⟩
      rw [← Path.ofString_text s, Datum.text.inj htext, Path.ofString_text]
  | some p =>
      rcases hover.taken _ _ hmem Datum.noConfusion (by decide) with ⟨c₁, hc₁, hsame⟩
      have hdir := outputDir_of_singleton hc₁
      have htext : ofOption (fun p => .text p.text) c'.outputDir =
          ofOption (fun p => Datum.text p.text) c₁.outputDir := Option.some.inj hsame
      rw [Option.map_some, Option.some_or, ← hdir]
      refine ofOption_inj (fun _ => Datum.noConfusion) (fun q r hq hr htext => ?_) htext
      rcases hover.after.outputDir hq with ⟨s, rfl⟩
      rcases Accepted.outputDir ⟨_, hc₁⟩ hr with ⟨t, rfl⟩
      rw [← Path.ofString_text s, Datum.text.inj htext, Path.ofString_text]

theorem Overwritten.extension_of_some (hover : Overwritten c overrides c') {s : String}
    (hmem : ("extension", .text s) ∈ overrides) : bareExtension s = .ok c'.extension := by
  rcases hover.taken _ _ hmem Datum.noConfusion (by decide) with ⟨c₁, hc₁, hsame⟩
  have hext : c'.extension = c₁.extension := Datum.text.inj (Option.some.inj hsame)
  rw [hext]
  exact bareExtension_of_singleton hc₁

theorem Overwritten.header (hover : Overwritten c overrides c')
    (h : (overrides.map Prod.fst).Nodup) {o : Option String}
    (hmem : ("header", o.elim .null .text) ∈ overrides) : c'.header = o.getD c.header := by
  cases o with
  | none =>
      have hkept := hover.kept "header"
        (fun hnamed => (named_iff h hmem).mp hnamed rfl) (by decide)
      exact Datum.text.inj (Option.some.inj hkept)
  | some s =>
      rcases hover.taken _ _ hmem Datum.noConfusion (by decide) with ⟨c₁, hc₁, hsame⟩
      have hheader : c'.header = c₁.header := Datum.text.inj (Option.some.inj hsame)
      exact hheader.trans (header_of_singleton hc₁)

theorem Overwritten.workers (hover : Overwritten c overrides c')
    (h : (overrides.map Prod.fst).Nodup) {o : Option Int}
    (hmem : ("workers", o.elim .null .int) ∈ overrides) :
    c'.workers = o.or c.workers ∧ ∀ n ∈ o, 1 ≤ n := by
  have hinj : ∀ {o o' : Option Int}, some (ofOption Datum.int o) = some (ofOption Datum.int o') →
      o = o' := fun heq => ofOption_inj (fun _ => Datum.noConfusion)
        (fun _ _ _ _ => Datum.int.inj) (Option.some.inj heq)
  cases o with
  | none =>
      have hkept := hover.kept "workers"
        (fun hnamed => (named_iff h hmem).mp hnamed rfl) (by decide)
      exact ⟨hinj hkept, fun n hn => absurd hn (Option.not_mem_none n)⟩
  | some n =>
      rcases hover.taken _ _ hmem Datum.noConfusion (by decide) with ⟨c₁, hc₁, hsame⟩
      rcases workers_of_singleton hc₁ with ⟨hworkers, hleast⟩
      exact ⟨(hinj hsame).trans hworkers, fun m hm => Option.some.inj hm ▸ hleast⟩

/-- A flag can be set, and it is left alone otherwise. -/
theorem Overwritten.flag (hover : Overwritten c overrides c')
    (h : (overrides.map Prod.fst).Nodup) {get : Config → Bool} {name : String}
    (hget : ∀ c : Config, c.fields.lookup name = some (.bool (get c)))
    (hset : ∀ c₁, ofFields [(name, .bool true)] = .ok c₁ → get c₁ = true)
    (hext : name ≠ "extension") (hcontext : name ≠ "context") {b : Bool}
    (hmem : (name, if b then .bool true else .null) ∈ overrides) :
    get c' = (b || get c) := by
  cases b with
  | false =>
      have hkept := hover.kept name (fun hnamed => (named_iff h hmem).mp hnamed rfl) hext
      rw [hget, hget] at hkept
      exact Datum.bool.inj (Option.some.inj hkept)
  | true =>
      rcases hover.taken _ _ hmem Datum.noConfusion hcontext with ⟨c₁, hc₁, hsame⟩
      rw [hget, hget] at hsame
      exact (Datum.bool.inj (Option.some.inj hsame)).trans (hset c₁ hc₁)

theorem Overwritten.includeIgnored (hover : Overwritten c overrides c')
    (h : (overrides.map Prod.fst).Nodup) {b : Bool}
    (hmem : ("include_ignored", if b then .bool true else .null) ∈ overrides) :
    c'.includeIgnored = (b || c.includeIgnored) :=
  hover.flag h (fun _ => rfl) (fun _ => includeIgnored_of_singleton) (by decide) (by decide) hmem

theorem Overwritten.verbose (hover : Overwritten c overrides c')
    (h : (overrides.map Prod.fst).Nodup) {b : Bool}
    (hmem : ("verbose", if b then .bool true else .null) ∈ overrides) :
    c'.verbose = (b || c.verbose) :=
  hover.flag h (fun _ => rfl) (fun _ => verbose_of_singleton) (by decide) (by decide) hmem

end Overwritten

end Config

end Stencil
