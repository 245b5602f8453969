import Stencil.Proofs.Config.Field

/-!
# Overriding Settings

Which fields of a configuration change when some of them are overridden.

Overriding takes the fields of a configuration as data, writes the overriding
values over some of them, and checks them all again. A field of the outcome is
compared with the one that the overriding value gives by itself, or with the one
that was there.

For the second comparison the value that was there has to pass its check once
more and be left alone by it. All fields do except the extension, which can
start with a blank. It is taken away when any other field is overridden, and if
blanks and dots are all there is, then the configuration cannot be overridden
at all, although no override is to blame.

## Main definitions

* `Config.Named`: A field is overridden.
* `Config.BareStart`: The extension does not start with a blank.
* `Config.rewritten`: The fields that are checked in the end.
* `Config.Overridden`: What overriding leaves of a configuration.

## Theorems

* `Config.lookup_rewritten`, `Config.lookup_rewritten_context`: What stands under
  a name in the end.
* `Config.Accepted.overridden`: What is left once the fields have passed.
* `Config.Accepted.exists_ofFields_iff`: When they pass.
* `Config.override_answers`: Overriding changes what it names, and it fails for
  an override or for the extension.
* `Config.not_override_keeps`: It can change the extension without naming it.
-/

namespace Stencil

namespace Config

/-- A field is overridden: a value is given for it, and not nothing. -/
def Named (overrides : Fields) (name : String) : Prop :=
  ∃ d, (name, d) ∈ overrides ∧ d ≠ .null

/-- The extension does not start with a blank. -/
def BareStart (c : Config) : Prop :=
  ∀ ch ∈ c.extension.toList.head?, Text.isBlank ch = false

/-- The fields that are checked in the end. -/
def rewritten (c : Config) (overrides : Fields) : Fields :=
  ((activeOverrides overrides).filter (·.1 != "context")).foldl
    (fun fs o => setField fs o.1 o.2)
    (match (activeOverrides overrides).lookup "context" with
      | some (.map es) => setField c.fields "context" (mergeContext c.context es)
      | _ => c.fields)

section Override

variable {c c' : Config} {overrides : Fields} {name : String}

theorem mem_activeOverrides {o : String × Datum} :
    o ∈ activeOverrides overrides ↔ o ∈ overrides ∧ o.2 ≠ .null := by
  rw [activeOverrides, List.mem_filter]
  refine and_congr_right fun _ => ?_
  cases o.2 <;> simp only [ne_eq, reduceCtorEq, not_false_eq_true, not_true_eq_false,
    Bool.false_eq_true]

theorem nodup_activeOverrides (h : (overrides.map Prod.fst).Nodup) :
    ((activeOverrides overrides).map Prod.fst).Nodup :=
  h.sublist (List.filter_sublist.map Prod.fst)

theorem lookup_active_iff (h : (overrides.map Prod.fst).Nodup) {d : Datum} :
    (activeOverrides overrides).lookup name = some d ↔ (name, d) ∈ overrides ∧ d ≠ .null := by
  rw [lookup_eq_some_iff (nodup_activeOverrides h), mem_activeOverrides]

theorem lookup_active_of_not_named (h : (overrides.map Prod.fst).Nodup)
    (hnot : ¬ Named overrides name) : (activeOverrides overrides).lookup name = none := by
  rcases hlookup : (activeOverrides overrides).lookup name with _ | d
  · rfl
  · exact absurd ⟨d, (lookup_active_iff h).mp hlookup⟩ hnot

/-- Overriding checks the rewritten fields, if the context can be merged. -/
theorem override_of_map (hactive : activeOverrides overrides ≠ [])
    (hmap : ∀ d, (activeOverrides overrides).lookup "context" = some d → ∃ es, d = .map es) :
    c.override overrides = (ofFields (c.rewritten overrides)).mapError .invalid := by
  rw [override, override?, rewritten]
  simp only [List.isEmpty_eq_false_iff.mpr hactive, Bool.false_eq_true, if_false]
  rcases hlookup : (activeOverrides overrides).lookup "context" with _ | d
  · simp only [pure, Except.pure, bind, Except.bind]
    rcases ofFields _ with cs | c'
    · rfl
    · rfl
  · rcases hmap d hlookup with ⟨es, rfl⟩
    simp only [pure, Except.pure, bind, Except.bind]
    rcases ofFields _ with cs | c'
    · rfl
    · rfl

/-- The context is merged first, so one that is no map is noticed before
    anything is checked. -/
theorem override_of_not_map {d : Datum}
    (hlookup : (activeOverrides overrides).lookup "context" = some d) (hmap : ∀ es, d ≠ .map es) :
    c.override overrides = .error .contextNotMap := by
  have hactive : activeOverrides overrides ≠ [] := by
    intro hnil
    rw [hnil, List.lookup_nil] at hlookup
    exact Option.some_ne_none d hlookup.symm
  rw [override, override?]
  simp only [List.isEmpty_eq_false_iff.mpr hactive, Bool.false_eq_true, if_false, hlookup]
  cases d with
  | map es => exact absurd rfl (hmap es)
  | _ => rfl

/-- What stands under a name in the end: an override, or what stood there. -/
theorem lookup_rewritten (h : (overrides.map Prod.fst).Nodup) (hne : name ≠ "context") :
    (c.rewritten overrides).lookup name =
      ((activeOverrides overrides).lookup name).or (c.fields.lookup name) := by
  have hnodup : (((activeOverrides overrides).filter (·.1 != "context")).map Prod.fst).Nodup :=
    (nodup_activeOverrides h).sublist (List.filter_sublist.map Prod.fst)
  have hrest : ((activeOverrides overrides).filter (·.1 != "context")).lookup name =
      (activeOverrides overrides).lookup name := by
    refine Option.ext fun d => ?_
    rw [lookup_eq_some_iff hnodup, lookup_eq_some_iff (nodup_activeOverrides h), List.mem_filter]
    exact and_iff_left (bne_iff_ne.mpr hne)
  rw [rewritten, lookup_foldl_setField hnodup, hrest]
  congr 1
  split
  · rw [lookup_setField, if_neg hne]
  · rfl

/-- Under the name of the context stands what was there, with the overriding
    context merged in. -/
theorem lookup_rewritten_context (h : (overrides.map Prod.fst).Nodup) :
    (c.rewritten overrides).lookup "context" =
      match (activeOverrides overrides).lookup "context" with
      | some (.map es) => some (mergeContext c.context es)
      | _ => some (contextDatum c.context) := by
  have hnodup : (((activeOverrides overrides).filter (·.1 != "context")).map Prod.fst).Nodup :=
    (nodup_activeOverrides h).sublist (List.filter_sublist.map Prod.fst)
  -- The context is not among what is written over it afterwards.
  have hrest : ((activeOverrides overrides).filter (·.1 != "context")).lookup "context" = none := by
    rw [List.lookup_eq_none_iff]
    intro f hf
    rw [bne_comm]
    exact (List.mem_filter.mp hf).2
  rw [rewritten, lookup_foldl_setField hnodup, hrest, Option.none_or]
  split
  · rw [lookup_setField, if_pos rfl]
  · rfl

theorem lookup_rewritten_of_named (h : (overrides.map Prod.fst).Nodup) {d : Datum}
    (hd : (name, d) ∈ overrides ∧ d ≠ .null) (hne : name ≠ "context") :
    (c.rewritten overrides).lookup name = some d := by
  rw [lookup_rewritten h hne, (lookup_active_iff h).mpr hd, Option.some_or]

theorem lookup_rewritten_of_not_named (h : (overrides.map Prod.fst).Nodup)
    (hnot : ¬ Named overrides name) :
    (c.rewritten overrides).lookup name = c.fields.lookup name := by
  have hnone := lookup_active_of_not_named h hnot
  by_cases hne : name = "context"
  · rw [hne] at hnone ⊢
    rw [lookup_rewritten_context h, hnone]
    rfl
  · rw [lookup_rewritten h hne, hnone, Option.none_or]

/-- Writing over fields brings in no names but those of overrides. -/
theorem mem_names_rewritten (hname : name ∈ (c.rewritten overrides).map Prod.fst) :
    name ∈ (activeOverrides overrides).map Prod.fst ∨ name ∈ fieldNames := by
  rw [rewritten, mem_names_foldl_setField] at hname
  rcases hname with hname | hname
  · exact Or.inl ((List.filter_sublist.map Prod.fst).mem hname)
  · refine Or.inr ?_
    split at hname
    · rcases (mem_names_setField _).mp hname with heq | hmem
      · rw [heq]
        decide
      · exact hmem
    · exact hname

theorem reads_context {d : Datum} {v : Fields} (h : readContext ["context"] d = .ok v) :
    Reads [("context", d)] { default with context := v } :=
  ⟨rfl, rfl, rfl, rfl, rfl, rfl, rfl, h, rfl, rfl, rfl⟩

theorem reads_extension {s ext : String} (h : bareExtension s = .ok ext) :
    Reads [("extension", .text s)] { default with extension := ext } := by
  refine ⟨rfl, rfl, rfl, rfl, rfl, ?_, rfl, rfl, rfl, rfl, rfl⟩
  rw [field_of_lookup (List.lookup_cons_self), readText, checkRule, h]
  rfl

/-- What overriding leaves of a configuration. -/
structure Overridden (c : Config) (overrides : Fields) (c' : Config) : Prop where
  /-- Fields that are not overridden are left alone, but for the extension. -/
  kept : ∀ name, ¬ Named overrides name → name ≠ "extension" →
    c'.fields.lookup name = c.fields.lookup name
  /-- The extension is checked once more. -/
  extension : ¬ Named overrides "extension" → bareExtension c.extension = .ok c'.extension
  /-- It is left alone iff it does not start with a blank. -/
  extension_iff : ¬ Named overrides "extension" → (c'.extension = c.extension ↔ c.BareStart)
  /-- A field that is overridden is what the value gives by itself. -/
  taken : ∀ name d, (name, d) ∈ overrides → d ≠ .null → name ≠ "context" →
    ∃ c₁, ofFields [(name, d)] = .ok c₁ ∧ c'.fields.lookup name = c₁.fields.lookup name
  /-- A context is merged with the one that was there, and read. -/
  merged : ∀ es, ("context", .map es) ∈ overrides →
    readContext ["context"] (mergeContext c.context es) = .ok c'.context
  /-- If its keys are texts, its entries are written into the one that was there. -/
  merged_texts : ∀ more, ("context", contextDatum more) ∈ overrides →
    c'.context = more.foldl (fun done e => setField done e.1 e.2) c.context

/-- The extension that is checked once more is left alone iff it does not start
    with a blank. -/
theorem Accepted.bareExtension_iff (hc : c.Accepted) :
    bareExtension c.extension = .ok c.extension ↔ c.BareStart := by
  rcases hc.exists_extension with ⟨s, hs⟩
  exact Config.bareExtension_iff hs

theorem Accepted.overridden (hc : c.Accepted) (h : (overrides.map Prod.fst).Nodup)
    (hok : ofFields (c.rewritten overrides) = .ok c') : Overridden c overrides c' := by
  rcases ofFields_eq_ok_iff.mp hok with ⟨hreads, hunknown⟩
  rcases hc.reads with ⟨s, _, hown⟩
  have hext : ¬ Named overrides "extension" → bareExtension c.extension = .ok c'.extension := by
    intro hnot
    have hfield := hreads.extension
    have hlookup : (c.rewritten overrides).lookup "extension" = some (.text c.extension) :=
      lookup_rewritten_of_not_named h hnot
    rw [field_of_lookup hlookup] at hfield
    rcases checkRule_eq_ok hfield with ⟨ext, htext, hbare⟩
    cases htext
    exact hbare
  have hmerged : ∀ es, ("context", .map es) ∈ overrides →
      readContext ["context"] (mergeContext c.context es) = .ok c'.context := by
    intro es hmem
    have hactive := (lookup_active_iff h).mpr ⟨hmem, Datum.noConfusion⟩
    have hlookup := @lookup_rewritten_context c overrides h
    rw [hactive] at hlookup
    exact (field_of_lookup hlookup).symm.trans hreads.context
  refine ⟨fun name hnot hne => ?_, hext, fun hnot => ?_, fun name d hmem hd hne => ?_, hmerged,
    fun more hmem => ?_⟩
  · refine lookup_fields_of_reads hreads hown ?_
    rw [lookup_rewritten_of_not_named h hnot, lookup_setField, if_neg hne]
  · rw [← hc.bareExtension_iff, hext hnot, Except.ok.injEq]
  · have hlookup := @lookup_rewritten_of_named c overrides name h d ⟨hmem, hd⟩ hne
    have hname : name ∈ fieldNames :=
      unknownFields_eq_ok_iff.mp hunknown (name, d) (mem_of_lookup hlookup)
    rcases ofFields_singleton_iff.mpr ⟨hname, _, _, hreads, hlookup⟩ with ⟨c₁, hc₁⟩
    refine ⟨c₁, hc₁, lookup_fields_of_reads hreads (ofFields_eq_ok_iff.mp hc₁).1 ?_⟩
    rw [hlookup, List.lookup_cons_self]
  · have hread := hmerged _ hmem
    rw [mergeContext_texts hc.nodup_context,
      readContext_contextDatum (nodup_foldl_setField hc.nodup_context more)] at hread
    exact (Except.ok.inj hread).symm

/-- The rewritten fields pass iff each override passes by itself, and the
    extension passes once more if it is not overridden. -/
theorem Accepted.exists_ofFields_iff (hc : c.Accepted) (h : (overrides.map Prod.fst).Nodup)
    (hmap : ∀ d, (activeOverrides overrides).lookup "context" = some d → ∃ es, d = .map es) :
    (∃ c', ofFields (c.rewritten overrides) = .ok c') ↔
      (∀ o ∈ overrides, o.2 ≠ .null → ∃ c₁, ofFields [o] = .ok c₁) ∧
        (¬ Named overrides "extension" → ∃ ext, bareExtension c.extension = .ok ext) := by
  constructor
  · rintro ⟨c', hok⟩
    have hleft := hc.overridden h hok
    refine ⟨fun o ho hnull => ?_, fun hnot => ⟨_, hleft.extension hnot⟩⟩
    rcases o with ⟨name, d⟩
    by_cases hname : name = "context"
    · subst hname
      rcases hmap d ((lookup_active_iff h).mpr ⟨ho, hnull⟩) with ⟨es, rfl⟩
      rcases exists_readContext_mergeContext.mp ⟨_, hleft.merged es ho⟩ with ⟨v, hv⟩
      exact ofFields_singleton_iff.mpr ⟨by decide, _, _, reads_context hv, List.lookup_cons_self⟩
    · rcases hleft.taken name d ho hnull hname with ⟨c₁, hc₁, _⟩
      exact ⟨c₁, hc₁⟩
  · rintro ⟨halone, hext⟩
    rcases hc.reads with ⟨s, _, hown⟩
    -- Each field is read from fields that are known to pass: those of an override by itself,
    -- or those of the configuration as it was.
    have heach : ∀ name ∈ fieldNames, ∃ more c₁, Reads more c₁ ∧
        (c.rewritten overrides).lookup name = more.lookup name := by
      intro name _
      by_cases hnamed : Named overrides name
      · rcases hnamed with ⟨d, hmem, hnull⟩
        rcases halone (name, d) hmem hnull with ⟨c₁, hc₁⟩
        have hreads := (ofFields_eq_ok_iff.mp hc₁).1
        by_cases hname : name = "context"
        · -- What passes by itself passes after it is merged in.
          subst hname
          have hactive := (lookup_active_iff h).mpr ⟨hmem, hnull⟩
          rcases hmap d hactive with ⟨es, rfl⟩
          have hread := (field_of_lookup List.lookup_cons_self).symm.trans hreads.context
          rcases (@exists_readContext_mergeContext _ c.context es).mpr ⟨_, hread⟩ with ⟨v, hv⟩
          refine ⟨_, _, reads_context hv, ?_⟩
          rw [lookup_rewritten_context h, hactive, List.lookup_cons_self]
        · refine ⟨_, c₁, hreads, ?_⟩
          rw [lookup_rewritten_of_named h ⟨hmem, hnull⟩ hname, List.lookup_cons_self]
      · by_cases hname : name = "extension"
        · subst hname
          rcases hext hnamed with ⟨ext, hbare⟩
          refine ⟨_, _, reads_extension hbare, ?_⟩
          rw [lookup_rewritten_of_not_named h hnamed, List.lookup_cons_self]
          rfl
        · refine ⟨_, c, hown, ?_⟩
          rw [lookup_rewritten_of_not_named h hnamed, lookup_setField, if_neg hname]
    rcases exists_reads_of_each heach with ⟨c', hreads⟩
    refine ⟨c', ofFields_eq_ok_iff.mpr ⟨hreads, unknownFields_eq_ok_iff.mpr fun f hf => ?_⟩⟩
    rcases mem_names_rewritten (List.mem_map_of_mem hf) with hname | hname
    · rcases List.mem_map.mp hname with ⟨o, ho, heq⟩
      rcases mem_activeOverrides.mp ho with ⟨hmem, hnull⟩
      rcases halone o hmem hnull with ⟨c₁, hc₁⟩
      rw [← heq]
      exact (ofFields_singleton_iff.mp ⟨c₁, hc₁⟩).1
    · exact hname

/-- Overriding nothing gives the configuration itself. Overriding something
    changes what it names, merges contexts, and checks the extension once more;
    it fails if the context is no map, or if an override would not pass by
    itself, or if the extension does not pass once more, and then it starts with
    a blank. -/
theorem override_answers (hc : c.Accepted) (h : (overrides.map Prod.fst).Nodup) :
    ((∀ o ∈ overrides, o.2 = .null) → c.override overrides = .ok c) ∧
      ((∃ o ∈ overrides, o.2 ≠ .null) →
        (∀ c', c.override overrides = .ok c' → Overridden c overrides c') ∧
        ((∃ c', c.override overrides = .ok c') ↔
          (∀ o ∈ overrides, o.2 ≠ .null → ∃ c₁, ofFields [o] = .ok c₁) ∧
            (¬ Named overrides "extension" → ∃ ext, bareExtension c.extension = .ok ext)) ∧
        (c.override overrides = .error .contextNotMap ↔
          ∃ d, ("context", d) ∈ overrides ∧ d ≠ .null ∧ ∀ es, d ≠ .map es) ∧
        ∀ cs, c.override overrides = .error (.invalid cs) →
          (∃ o ∈ overrides, o.2 ≠ .null ∧ ∃ cs', ofFields [o] = .error cs') ∨
            ¬ Named overrides "extension" ∧ ¬ c.BareStart) := by
  refine ⟨override_of_all_null c overrides, ?_⟩
  rintro ⟨o, ho, hnull⟩
  have hactive : activeOverrides overrides ≠ [] :=
    List.ne_nil_of_mem (mem_activeOverrides.mpr ⟨ho, hnull⟩)
  by_cases hmap : ∀ d, (activeOverrides overrides).lookup "context" = some d → ∃ es, d = .map es
  · have hoverride := @override_of_map c overrides hactive hmap
    have hiff := hc.exists_ofFields_iff h hmap
    have hok : ∀ c', c.override overrides = .ok c' ↔ ofFields (c.rewritten overrides) = .ok c' :=
      fun c' => hoverride ▸ mapError_eq_ok_iff
    refine ⟨fun c' hc' => hc.overridden h ((hok c').mp hc'), (exists_congr hok).trans hiff, ?_,
      fun cs hcs => ?_⟩
    · constructor
      · intro herror
        rw [hoverride] at herror
        rcases hfields : ofFields (c.rewritten overrides) with cs | c'
        · rw [hfields] at herror
          cases herror
        · rw [hfields] at herror
          cases herror
      · rintro ⟨d, hmem, hd, hno⟩
        rcases hmap d ((lookup_active_iff h).mpr ⟨hmem, hd⟩) with ⟨es, hes⟩
        exact absurd hes (hno es)
    · by_contra hnone
      rw [not_or] at hnone
      have hall : ∃ c', ofFields (c.rewritten overrides) = .ok c' := by
        refine hiff.mpr ⟨fun o ho hnull => ?_, fun hnot => ⟨c.extension, ?_⟩⟩
        · rcases hone : ofFields [o] with cs' | c₁
          · exact absurd ⟨o, ho, hnull, cs', hone⟩ hnone.1
          · exact ⟨c₁, rfl⟩
        · exact hc.bareExtension_iff.mpr (not_not.mp fun hblank => hnone.2 ⟨hnot, hblank⟩)
      rcases hall with ⟨c', hc'⟩
      rw [(hok c').mpr hc'] at hcs
      cases hcs
  · simp only [not_forall] at hmap
    rcases hmap with ⟨d, hlookup, hno⟩
    have hno' : ∀ es, d ≠ .map es := fun es heq => hno ⟨es, heq⟩
    have herror := @override_of_not_map c overrides d hlookup hno'
    rcases (lookup_active_iff h).mp hlookup with ⟨hmem, hd⟩
    have hbad : ¬ ∃ c₁, ofFields [("context", d)] = .ok c₁ := by
      rintro ⟨c₁, hc₁⟩
      have hread := (field_of_lookup List.lookup_cons_self).symm.trans
        (ofFields_eq_ok_iff.mp hc₁).1.context
      rcases exists_readContext_iff.mp ⟨_, hread⟩ with ⟨es, hes, _⟩
      exact hno' es hes
    rw [herror]
    refine ⟨fun c' hc' => absurd hc' (by simp only [reduceCtorEq, not_false_eq_true]), ?_, ?_,
      fun cs hcs => absurd hcs (by simp only [Except.error.injEq, reduceCtorEq,
        not_false_eq_true])⟩
    · refine ⟨fun ⟨c', hc'⟩ => absurd hc' (by simp only [reduceCtorEq, not_false_eq_true]),
        fun hall => absurd (hall.1 _ hmem hd) hbad⟩
    · exact ⟨fun _ => ⟨d, hmem, hd, hno'⟩, fun _ => rfl⟩

end Override

theorem accepted_withExtension {s ext : String} (h : bareExtension s = .ok ext) :
    (withExtension ext).Accepted := by
  refine ⟨[("extension", .text s)], ofFields_eq_ok_iff.mpr ⟨reads_extension h, ?_⟩⟩
  exact unknownFields_eq_ok_iff.mpr (by simp only [List.mem_singleton, forall_eq]; decide)

/-- An override that is nothing names nothing. -/
theorem override_answers_workers :
    ∃ c', default.override [("workers", .int 2), ("header", .null)] = .ok c' ∧
      Overridden default [("workers", .int 2), ("header", .null)] c' := by
  rcases (override_answers accepted_default
    (show ([("workers", .int 2), ("header", .null)].map Prod.fst : List String).Nodup by decide)).2
    ⟨("workers", .int 2), List.mem_cons_self, Datum.noConfusion⟩ with ⟨hleft, hiff, _, _⟩
  have halone : ∀ o ∈ [("workers", Datum.int 2), ("header", .null)], o.2 ≠ .null →
      ∃ c₁, ofFields [o] = .ok c₁ := by
    intro o ho hnull
    simp only [List.mem_cons, List.not_mem_nil, or_false] at ho
    rcases ho with rfl | rfl
    · exact ⟨_, rfl⟩
    · exact absurd rfl hnull
  rcases hiff.mpr ⟨halone, fun _ => ⟨"sql", rfl⟩⟩ with ⟨c', hc'⟩
  exact ⟨c', hc', hleft c' hc'⟩

/-- An extension that starts with a blank loses it when the number of renders
    is overridden. If blanks and dots are all there is, then the number cannot be
    overridden, although it passes by itself. -/
theorem not_override_keeps :
    (ofFields [("extension", .text ". sql")] = .ok (withExtension " sql") ∧
      ∃ c', (withExtension " sql").override [("workers", .int 2)] = .ok c' ∧
        c'.extension = "sql" ∧ (withExtension " sql").extension = " sql") ∧
    ofFields [("extension", .text ". .")] = .ok (withExtension " .") ∧
      (∃ c₁, ofFields [("workers", .int 2)] = .ok c₁) ∧
      ∃ cs, (withExtension " .").override [("workers", .int 2)] = .error (.invalid cs) := by
  have hnames : ([("workers", Datum.int 2)].map Prod.fst).Nodup := List.nodup_singleton _
  have hoverride : ∀ c : Config, c.override [("workers", .int 2)] =
      (ofFields (c.rewritten [("workers", .int 2)])).mapError .invalid := by
    intro c
    refine override_of_map (List.cons_ne_nil _ _) (fun d hd => ?_)
    cases hd
  have hnot : ¬ Named [("workers", .int 2)] "extension" := by
    rintro ⟨d, hmem, _⟩
    exact absurd (congrArg Prod.fst (List.mem_singleton.mp hmem))
      (show "extension" ≠ "workers" by decide)
  have hsql : (withExtension " sql").Accepted := accepted_withExtension (s := ". sql") rfl
  have hdot : (withExtension " .").Accepted := accepted_withExtension (s := ". .") rfl
  refine ⟨⟨rfl, ?_⟩, rfl, ⟨_, rfl⟩, ?_⟩
  · have halone : ∀ o ∈ [("workers", Datum.int 2)], o.2 ≠ .null → ∃ c₁, ofFields [o] = .ok c₁ := by
      intro o ho _
      rw [List.mem_singleton.mp ho]
      exact ⟨_, rfl⟩
    rcases (hsql.exists_ofFields_iff hnames (fun d hd => by cases hd)).mpr
      ⟨halone, fun _ => ⟨"sql", rfl⟩⟩ with ⟨c', hc'⟩
    have hext := (hsql.overridden hnames hc').extension hnot
    exact ⟨c', (hoverride _).trans (mapError_eq_ok_iff.mpr hc'), (Except.ok.inj hext).symm, rfl⟩
  · rw [hoverride]
    rcases hfields : ofFields ((withExtension " .").rewritten [("workers", .int 2)]) with cs | c'
    · exact ⟨cs, rfl⟩
    · cases (hdot.overridden hnames hfields).extension hnot

end Config

end Stencil
