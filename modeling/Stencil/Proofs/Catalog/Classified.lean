import Stencil.Proofs.Catalog.Flat
import Stencil.Proofs.Config.Valid
import Stencil.Proofs.Output.Apart

/-!
# Classified Names

What a file name is classified as, whatever order suffixes are listed in.

Suffixes are tried one after the other, and the first that fits decides. That
the longest one decides is due to the check of a configuration, which puts
suffixes in order of their length. Suffixes of one length need no order among
themselves: a name ends in at most one text of each length, so two of them that
both fit are the same. What decides about a name is therefore the set of
suffixes that a configuration was given for each kind, and neither the order
they were given in nor how often.

The suffix that is found is cut off to name a template. It is never all of the
name, so something is left, and it has no slash in it, so what is left is in the
same directory.

## Main definitions

* `Kind.rank`: How early a kind is tried.
* `Kind.fieldName`, `Config.suffixes`: Where the suffixes of a kind are given, and
  where they are kept.
* `Config.Gives`: The fields give a suffix for a kind.
* `EndsIn`: A name is more than a suffix and ends in it.
* `Designates`: What a name should be classified as.
* `Relisted`: Fields that list the same suffixes in another way.

## Theorems

* `hasSuffix_iff`: The test for a suffix finds it.
* `find?_hasSuffix_iff`: The first suffix in order is the longest.
* `classify_eq_some_iff`: Which kind decides.
* `Config.mem_suffixes_iff`: A configuration has the suffixes that it was given.
* `Relisted.exists_ofFields`: Listing suffixes in another way is accepted.
* `Catalog.Regular.path_eq`: A template is named by its path without the suffix.
* `classify_longest`: All of it.
-/

namespace Stencil

/-- How early a kind is tried. -/
def Kind.rank : Kind → Nat
  | .macroModule => 0
  | .fragment => 1
  | .query => 2

/-- The field that gives the suffixes of a kind. -/
def Kind.fieldName : Kind → String
  | .query => "query_suffixes"
  | .fragment => "partial_suffixes"
  | .macroModule => "macro_suffixes"

/-- The suffixes that a configuration has for a kind. -/
def Config.suffixes (c : Config) : Kind → List String
  | .query => c.querySuffixes
  | .fragment => c.partialSuffixes
  | .macroModule => c.macroSuffixes

/-- The fields give a suffix for a kind: they list it, or they say nothing about
    the kind and it is one by default. -/
def Config.Gives (fields : Config.Fields) (kind : Kind) (suffix : String) : Prop :=
  (fields.lookup kind.fieldName = none ∧ suffix ∈ default.suffixes kind) ∨
    ∃ ds, fields.lookup kind.fieldName = some (.list ds) ∧ ∃ d ∈ ds, textOf? d = some suffix

/-- The name ends in the suffix, and something stands before it. -/
def EndsIn (name suffix : String) : Prop :=
  ∃ stem, stem ≠ "" ∧ name = stem ++ suffix

/-- A name should be classified as a kind with a suffix. -/
structure Designates (gives : Kind → String → Prop) (name : String) (kind : Kind)
    (suffix : String) : Prop where
  /-- It is a suffix for the kind. -/
  given : gives kind suffix
  /-- The name ends in it. -/
  endsIn : EndsIn name suffix
  /-- The name ends in no longer one for the kind. -/
  longest : ∀ s, gives kind s → EndsIn name s → s.length ≤ suffix.length
  /-- The name ends in none for a kind that is tried earlier. -/
  first : ∀ k : Kind, k.rank < kind.rank → ∀ s, gives k s → ¬ EndsIn name s

/-- The fields are the same, but lists of suffixes may have their items in
    another order, and more or fewer times. -/
def Relisted (fields fields' : Config.Fields) : Prop :=
  ∀ name, fields'.lookup name = fields.lookup name ∨
    ∃ (kind : Kind) (ds ds' : List Datum), name = kind.fieldName ∧
      fields.lookup name = some (.list ds) ∧ fields'.lookup name = some (.list ds') ∧
      ∀ d, d ∈ ds' ↔ d ∈ ds

section Names

variable {name suffix s : String}

/-- The test for a suffix finds it and nothing else. -/
theorem hasSuffix_iff : hasSuffix name suffix = true ↔ EndsIn name suffix := by
  constructor
  · exact exists_stem_of_hasSuffix
  · rintro ⟨stem, hstem, rfl⟩
    have hpos : 0 < stem.length := by
      rw [← String.length_toList, List.length_pos_iff, ne_eq, String.toList_eq_nil_iff]
      exact hstem
    rw [hasSuffix, Bool.and_eq_true, decide_eq_true_iff, Text.endsWith, Text.startsWith_iff,
      List.reverse_prefix, String.toList_append, String.length_append]
    exact ⟨List.suffix_append _ _, by omega⟩

/-- A name ends in one text of each length. -/
theorem EndsIn.eq_of_length (h : EndsIn name suffix) (h' : EndsIn name s)
    (hlength : suffix.length = s.length) : suffix = s := by
  rcases h with ⟨stem, _, rfl⟩
  rcases h' with ⟨stem', _, heq⟩
  have hchars := congrArg String.toList heq
  rw [String.toList_append, String.toList_append] at hchars
  rw [← String.length_toList, ← String.length_toList] at hlength
  exact String.toList_inj.mp (List.append_inj' hchars hlength).2

/-- Of suffixes in order of their length the first that fits is the longest. -/
theorem find?_hasSuffix_iff {ss : List String}
    (hordered : ss.Pairwise fun a b => b.length ≤ a.length) :
    ss.find? (hasSuffix name) = some suffix ↔
      suffix ∈ ss ∧ EndsIn name suffix ∧ ∀ s ∈ ss, EndsIn name s → s.length ≤ suffix.length := by
  constructor
  · intro hfind
    rcases List.find?_eq_some_iff_append.mp hfind with ⟨hends, before, after, rfl, hbefore⟩
    refine ⟨List.mem_append_right _ List.mem_cons_self, hasSuffix_iff.mp hends, fun s hs hs' => ?_⟩
    rcases List.mem_append.mp hs with hmem | hmem
    · -- What comes before the first that fits does not fit.
      have hnot := hbefore s hmem
      rw [hasSuffix_iff.mpr hs'] at hnot
      exact absurd hnot Bool.false_ne_true
    · rcases List.mem_cons.mp hmem with rfl | hmem
      · exact Nat.le_refl _
      · exact (List.pairwise_cons.mp (List.pairwise_append.mp hordered).2.1).1 s hmem
  · rintro ⟨hmem, hends, hlongest⟩
    rcases hfind : ss.find? (hasSuffix name) with _ | t
    · exact absurd (hasSuffix_iff.mpr hends) (List.find?_eq_none.mp hfind suffix hmem)
    · -- Both are the longest, so they have one length.
      rcases List.find?_eq_some_iff_append.mp hfind with ⟨ht, before, after, rfl, hbefore⟩
      have hle := hlongest t (List.mem_append_right _ List.mem_cons_self) (hasSuffix_iff.mp ht)
      have hge : suffix.length ≤ t.length := by
        rcases List.mem_append.mp hmem with hmem | hmem
        · have hnot := hbefore suffix hmem
          rw [hasSuffix_iff.mpr hends] at hnot
          exact absurd hnot Bool.false_ne_true
        · rcases List.mem_cons.mp hmem with rfl | hmem
          · exact Nat.le_refl _
          · exact (List.pairwise_cons.mp (List.pairwise_append.mp hordered).2.1).1 suffix hmem
      rw [(hasSuffix_iff.mp ht).eq_of_length hends (Nat.le_antisymm hle hge)]

/-- The first kind that has a suffix for the name decides, with the first one
    that it has. -/
theorem classify_eq_some_iff {c : Config} {kind : Kind} :
    classify name c = some (kind, suffix) ↔
      (c.suffixes kind).find? (hasSuffix name) = some suffix ∧
        ∀ k : Kind, k.rank < kind.rank → (c.suffixes k).find? (hasSuffix name) = none := by
  -- No kind is before macro modules, one is before fragments, and two are before queries.
  have hearlier : (∀ k : Kind, k.rank < kind.rank → (c.suffixes k).find? (hasSuffix name) = none) ↔
      (0 < kind.rank → c.macroSuffixes.find? (hasSuffix name) = none) ∧
      (1 < kind.rank → c.partialSuffixes.find? (hasSuffix name) = none) := by
    constructor
    · exact fun h => ⟨h .macroModule, h .fragment⟩
    · rintro ⟨hmodule, hpartial⟩ k hk
      cases k with
      | macroModule => exact hmodule hk
      | fragment => exact hpartial hk
      | query => cases kind <;> exact absurd hk (by decide)
  rw [hearlier]
  simp only [classify, candidates, List.findSome?_cons, List.findSome?_nil]
  rcases hmodule : c.macroSuffixes.find? (hasSuffix name) with _ | m
  · rcases hpartial : c.partialSuffixes.find? (hasSuffix name) with _ | p
    · rcases hquery : c.querySuffixes.find? (hasSuffix name) with _ | q
      · cases kind <;> simp [Config.suffixes, hmodule, hpartial, hquery]
      · cases kind <;> simp [Config.suffixes, hmodule, hpartial, hquery]
    · cases kind <;> simp [Config.suffixes, Kind.rank, hmodule, hpartial]
  · cases kind <;> simp [Config.suffixes, Kind.rank, hmodule]

end Names

namespace Config

variable {fields : Fields} {c : Config}

/-- Suffixes that are accepted are those that were given, in order. -/
theorem perm_orderSuffixes {ss ts : List String} (h : orderSuffixes ss = .ok ts) : ts.Perm ss := by
  rw [orderSuffixes] at h
  by_cases hempty : ss.isEmpty = true
  · rw [if_pos hempty] at h
    cases h
  · rw [if_neg hempty] at h
    rcases hfind : ss.find? fun s => !Text.startsWith ['.'] s.toList || s.length < 2 with _ | s
    · simp only [hfind, Except.ok.injEq] at h
      rw [← h]
      exact List.mergeSort_perm ss _
    · simp only [hfind, reduceCtorEq] at h

/-- The suffixes of a kind have passed the check of their field. -/
theorem Reads.suffixes (h : Reads fields c) (kind : Kind) :
    field fields kind.fieldName (default.suffixes kind) readSuffixes = .ok (c.suffixes kind) := by
  cases kind with
  | query => exact h.querySuffixes
  | fragment => exact h.partialSuffixes
  | macroModule => exact h.macroSuffixes

/-- A configuration has the suffixes that it was given. -/
theorem mem_suffixes_iff (h : Reads fields c) {kind : Kind} {s : String} :
    s ∈ c.suffixes kind ↔ Gives fields kind s := by
  have hfield := h.suffixes kind
  rw [field] at hfield
  rcases hlookup : fields.lookup kind.fieldName with _ | d
  · rw [hlookup, Except.ok.injEq] at hfield
    simp only [Gives, hlookup, hfield, true_and, reduceCtorEq, false_and, exists_false, or_false]
  · rw [hlookup] at hfield
    rcases checkRule_eq_ok hfield with ⟨ss, hread, horder⟩
    rw [(perm_orderSuffixes horder).mem_iff]
    cases d with
    | list ds =>
        -- The items are texts, and these are the suffixes.
        have hitems : ds.map textOf? = ss.map some := by
          rw [← List.forall₂_eq_eq_eq, List.forall₂_map_left_iff, List.forall₂_map_right_iff]
          exact readItems_eq_ok_iff.mp hread
        rw [← @List.mem_map_of_injective _ _ _ (fun _ _ => Option.some.inj), ← hitems, List.mem_map]
        simp only [Gives, hlookup, reduceCtorEq, false_and, false_or, Option.some.injEq,
          Datum.list.injEq, exists_eq_left']
    | _ => simp only [readTexts, complain, reduceCtorEq] at hread

/-- The suffixes of a kind are in order of their length. -/
theorem Reads.ordered_suffixes (h : Reads fields c) (kind : Kind) :
    (c.suffixes kind).Pairwise fun a b => b.length ≤ a.length := by
  rcases field_eq_ok (h.suffixes kind) with hdefault | ⟨d, hd⟩
  · rw [hdefault]
    cases kind with
    | _ => decide
  · rcases checkRule_eq_ok hd with ⟨ss, _, horder⟩
    exact (orderSuffixes_eq_ok horder).2.2

end Config

/-- What a name is classified as is decided by the suffixes that were given. -/
theorem classify_eq_some_iff_designates {fields : Config.Fields} {c : Config}
    (h : Config.Reads fields c) {name : String} {kind : Kind} {suffix : String} :
    classify name c = some (kind, suffix) ↔
      Designates (Config.Gives fields) name kind suffix := by
  have hnone : ∀ k : Kind, (c.suffixes k).find? (hasSuffix name) = none ↔
      ∀ s, Config.Gives fields k s → ¬ EndsIn name s := by
    intro k
    simp only [List.find?_eq_none, hasSuffix_iff, Config.mem_suffixes_iff h]
  rw [classify_eq_some_iff, find?_hasSuffix_iff (h.ordered_suffixes kind)]
  simp only [hnone, Config.mem_suffixes_iff h]
  constructor
  · rintro ⟨⟨hgiven, hends, hlongest⟩, hfirst⟩
    exact ⟨hgiven, hends, hlongest, hfirst⟩
  · intro hd
    exact ⟨⟨hd.given, hd.endsIn, hd.longest⟩, hd.first⟩

/-- A name that no suffix fits is that of no template. -/
theorem classify_eq_none_iff {fields : Config.Fields} {c : Config} (h : Config.Reads fields c)
    {name : String} : classify name c = none ↔
      ∀ kind suffix, Config.Gives fields kind suffix → ¬ EndsIn name suffix := by
  simp only [← Config.mem_suffixes_iff h, ← hasSuffix_iff]
  simp only [classify, candidates, List.findSome?_eq_none_iff, List.forall_mem_cons,
    Option.map_eq_none_iff, List.find?_eq_none, List.not_mem_nil, false_implies, implies_true,
    and_true]
  constructor
  · rintro ⟨hmodule, hpartial, hquery⟩ kind
    cases kind with
    | query => exact hquery
    | fragment => exact hpartial
    | macroModule => exact hmodule
  · exact fun hall => ⟨hall .macroModule, hall .fragment, hall .query⟩

namespace Relisted

variable {fields fields' : Config.Fields}

/-- The same suffixes are given. -/
theorem gives_iff (h : Relisted fields fields') {kind : Kind} {suffix : String} :
    Config.Gives fields' kind suffix ↔ Config.Gives fields kind suffix := by
  rcases h kind.fieldName with hsame | ⟨_, ds, ds', _, hds, hds', hitems⟩
  · rw [Config.Gives, Config.Gives, hsame]
  · simp only [Config.Gives, hds, hds', reduceCtorEq, false_and, false_or, Option.some.injEq,
      Datum.list.injEq, exists_eq_left', hitems]

/-- Listing suffixes in another way is accepted. -/
theorem exists_ofFields (h : Relisted fields fields')
    (haccepted : ∃ c, Config.ofFields fields = .ok c) :
    ∃ c, Config.ofFields fields' = .ok c := by
  rw [Config.exists_ofFields_iff] at haccepted ⊢
  intro name d hd
  rcases h name with hsame | ⟨kind, ds, ds', rfl, hds, hds', hitems⟩
  · exact haccepted name d (hsame ▸ hd)
  · -- Whether a list is one of suffixes is a question about its items.
    have hvalid : ∀ d : Datum, Config.Valid kind.fieldName d ↔ Config.IsSuffixes d := by
      intro d
      cases kind <;> rfl
    rw [hds', Option.some.injEq] at hd
    rcases (hvalid _).mp (haccepted _ _ hds) with ⟨es, hes, hne, hall⟩
    rw [← Datum.list.inj hes] at hne hall
    rcases List.exists_mem_of_ne_nil ds hne with ⟨e, he⟩
    rw [← hd, hvalid]
    refine ⟨ds', rfl, List.ne_nil_of_mem ((hitems e).mpr he), fun e he => ?_⟩
    exact hall e ((hitems e).mp he)

end Relisted

namespace Catalog.Regular

variable {c : Catalog} {config : Config} {s : Source}

/-- A template is named by its path without the suffix, which leaves something
    of its own name. -/
theorem path_eq (h : c.Regular config) (hs : s ∈ c.sources) :
    s.path = s.logicalName ++ s.suffix ∧ baseName s.logicalName ≠ "" := by
  constructor
  · rcases h.exists_path_eq hs with ⟨dirs, stem, _, _, _, hpath, _⟩
    rcases exists_wayText_concat dirs with ⟨start, hstart⟩
    rw [hstart, ← String.append_assoc] at hpath
    rw [s.logicalName_of_path_eq hpath, hpath]
  · rcases h.exists_logicalName_eq hs with ⟨dirs, stem, hdirs, hstem, hslash, hname, _⟩
    -- No name on the way has a slash in it, so splitting the path gives the names back.
    have hpieces : ∀ n ∈ dirs ++ [stem], '/' ∉ n.toList := by
      intro n hn
      rcases List.mem_append.mp hn with hn | hn
      · exact (hdirs n hn).noSlash
      · rwa [List.mem_singleton.mp hn]
    have hsplit := Text.splitOnChar_joinStrings '/'
      (List.append_ne_nil_of_right_ne_nil dirs (List.cons_ne_nil stem [])) hpieces
    rw [baseName, hname, wayText, show ("/" : String) = String.ofList ['/'] from rfl, hsplit,
      List.getLastD_concat]
    exact hstem

end Catalog.Regular

/-- Names are classified by the first kind that has a suffix for them, with the
    longest that it has. What the suffixes are is said by the fields that the
    configuration was made from, and it does not matter in which order or how often
    these list them. In the catalog of a tree, what is left of a path without the
    suffix names the template, and not all of its own name is gone. -/
theorem classify_longest {fields : Config.Fields} {c : Config}
    (h : Config.ofFields fields = .ok c) :
    (∀ name kind suffix, classify name c = some (kind, suffix) ↔
      Designates (Config.Gives fields) name kind suffix) ∧
    (∀ name, classify name c = none ↔
      ∀ kind suffix, Config.Gives fields kind suffix → ¬ EndsIn name suffix) ∧
    (∀ fields', Relisted fields fields' → ∃ c', Config.ofFields fields' = .ok c' ∧
      ∀ name, classify name c' = classify name c) ∧
    ∀ (fs : FileSystem) (root : Path) (notes : Catalog.Notes) (catalog : Catalog), fs.Proper →
      Catalog.build fs root c = (notes, .ok catalog) → ∀ s ∈ catalog.sources,
        s.path = s.logicalName ++ s.suffix ∧ baseName s.logicalName ≠ "" := by
  have hreads := (Config.ofFields_eq_ok_iff.mp h).1
  refine ⟨fun name kind suffix => classify_eq_some_iff_designates hreads,
    fun name => classify_eq_none_iff hreads, fun fields' hrelisted => ?_,
    fun fs root notes catalog hfs hbuild s hs =>
      (Catalog.regular_of_build hfs hbuild).path_eq hs⟩
  rcases hrelisted.exists_ofFields ⟨c, h⟩ with ⟨c', hc'⟩
  refine ⟨c', hc', fun name => Option.ext fun answer => ?_⟩
  rcases answer with ⟨kind, suffix⟩
  -- Lists of the same suffixes give the same, and nothing else of the fields decides.
  have hgives : Config.Gives fields' = Config.Gives fields :=
    funext fun _ => funext fun _ => propext hrelisted.gives_iff
  rw [classify_eq_some_iff_designates (Config.ofFields_eq_ok_iff.mp hc').1, hgives,
    classify_eq_some_iff_designates hreads]

/-- Suffixes of queries, the shorter one twice and before the longer one. -/
def shuffledFields : Config.Fields :=
  [("query_suffixes", .list [.text ".tmpl", .text ".sql.tmpl", .text ".tmpl"]),
    ("include_ignored", .bool true)]

/-- The same suffixes in order. -/
def orderedFields : Config.Fields :=
  [("query_suffixes", .list [.text ".sql.tmpl", .text ".tmpl"]), ("include_ignored", .bool true)]

theorem relisted_shuffled : Relisted shuffledFields orderedFields := by
  intro name
  by_cases hname : name = "query_suffixes"
  · rw [hname]
    refine Or.inr ⟨.query, _, _, rfl, rfl, rfl, fun d => ?_⟩
    simp only [List.mem_cons, List.not_mem_nil, or_false]
    tauto
  · refine Or.inl ?_
    simp only [shuffledFields, orderedFields, List.lookup_cons, beq_eq_false_iff_ne.mpr hname]

/-- The suffixes of queries are those listed, and all others are by default. -/
theorem gives_shuffled_iff {kind : Kind} {s : String} :
    Config.Gives shuffledFields kind s ↔
      s ∈ if kind = .query then [".tmpl", ".sql.tmpl"] else Config.default.suffixes kind := by
  have hlisted : ∀ s : String, (∃ d ∈ [Datum.text ".tmpl", .text ".sql.tmpl", .text ".tmpl"],
      Config.textOf? d = some s) ↔ s ∈ [".tmpl", ".sql.tmpl"] := by
    intro s
    simp only [List.mem_cons, List.not_mem_nil, or_false, exists_eq_or_imp, exists_eq_left,
      Config.textOf?, Option.some.injEq, eq_comm (b := s)]
    tauto
  cases kind with
  | query =>
      rw [if_pos rfl, ← hlisted]
      constructor
      · rintro (⟨hnone, _⟩ | ⟨ds, hds, hs⟩)
        · exact absurd hnone (Option.some_ne_none _)
        · exact Datum.list.inj (Option.some.inj hds) ▸ hs
      · exact fun hs => Or.inr ⟨_, rfl, hs⟩
  | _ =>
      rw [if_neg (by decide)]
      constructor
      · rintro (⟨_, hs⟩ | ⟨ds, hds, _⟩)
        · exact hs
        · exact absurd hds (Option.some_ne_none _).symm
      · exact fun hs => Or.inl ⟨rfl, hs⟩

/-- A name that is nothing but the longer suffix has the shorter one. -/
theorem designates_shuffled :
    Designates (Config.Gives shuffledFields) ".sql.tmpl" .query ".tmpl" ∧
    Designates (Config.Gives shuffledFields) "a.sql.tmpl" .query ".sql.tmpl" := by
  have hspec : ∀ name suffix, suffix ∈ [".tmpl", ".sql.tmpl"] → hasSuffix name suffix = true →
      (∀ s ∈ [".tmpl", ".sql.tmpl"], hasSuffix name s = true → s.length ≤ suffix.length) →
      (∀ s ∈ Config.default.macroSuffixes ++ Config.default.partialSuffixes,
        hasSuffix name s = false) →
      Designates (Config.Gives shuffledFields) name .query suffix := by
    intro name suffix hmem hends hlongest hfirst
    refine ⟨gives_shuffled_iff.mpr hmem, hasSuffix_iff.mp hends, fun s hs hname => ?_,
      fun k hk s hs hname => ?_⟩
    · exact hlongest s (gives_shuffled_iff.mp hs) (hasSuffix_iff.mpr hname)
    · have hnot : hasSuffix name s = false := by
        refine hfirst s (List.mem_append.mpr ?_)
        cases k with
        | macroModule => exact Or.inl (gives_shuffled_iff.mp hs)
        | fragment => exact Or.inr (gives_shuffled_iff.mp hs)
        | query => exact absurd hk (Nat.lt_irrefl _)
      rw [hasSuffix_iff.mpr hname] at hnot
      exact absurd hnot.symm Bool.false_ne_true
  exact ⟨hspec _ _ (by decide) (by decide) (by decide) (by decide),
    hspec _ _ (by decide) (by decide) (by decide) (by decide)⟩

/-- Two names under suffixes that are out of order, and the catalog of both. -/
theorem classify_longest_shuffled : ∃ c notes catalog,
    Config.ofFields shuffledFields = .ok c ∧ classify ".sql.tmpl" c = some (.query, ".tmpl") ∧
    classify "a.sql.tmpl" c = some (.query, ".sql.tmpl") ∧
    (∃ c', Config.ofFields orderedFields = .ok c' ∧ ∀ name, classify name c' = classify name c) ∧
    Catalog.build (twoFiles ".sql.tmpl" "a.sql.tmpl" (Text.Utf8.encode "1")
      (Text.Utf8.encode "2")) ⟨"/", []⟩ c = (notes, .ok catalog) ∧
    ∃ s ∈ catalog.sources, s.path = ".sql.tmpl" ∧ s.path = s.logicalName ++ s.suffix ∧
      baseName s.logicalName ≠ "" := by
  have haccepted : ∃ c, Config.ofFields shuffledFields = .ok c := by
    rw [Config.exists_ofFields_iff]
    intro name d hd
    have hmem := mem_of_lookup hd
    simp only [shuffledFields, List.mem_cons, List.not_mem_nil, or_false, Prod.mk.injEq] at hmem
    rcases hmem with ⟨rfl, rfl⟩ | ⟨rfl, rfl⟩
    · refine ⟨_, rfl, List.cons_ne_nil _ _, fun e he => ?_⟩
      simp only [List.mem_cons, List.not_mem_nil, or_false] at he
      rcases he with rfl | rfl | rfl <;> exact ⟨_, rfl, by decide⟩
    · exact ⟨true, .bool true⟩
  rcases haccepted with ⟨c, hc⟩
  have hall : c.includeIgnored = true :=
    (Except.ok.inj (Config.ofFields_eq_ok_iff.mp hc).1.includeIgnored).symm
  rcases classify_longest hc with ⟨hclass, _, hrelisted, hcatalog⟩
  have hbare := (hclass _ _ _).mpr designates_shuffled.1
  have hlong := (hclass _ _ _).mpr designates_shuffled.2
  have hlt : ".sql.tmpl" < "a.sql.tmpl" := by decide
  have hleft : IsName ".sql.tmpl" := by decide
  have hright : IsName "a.sql.tmpl" := by decide
  have hbuild := Catalog.build_twoFiles _ _ hlt hleft hright hall
    (Catalog.readSource_of_root hleft (by decide) hbare
      (find?_twoFiles_left (Text.Utf8.encode "1") (Text.Utf8.encode "2")))
    (Catalog.readSource_of_root hright (by decide) hlong
      (find?_twoFiles_right (Text.Utf8.encode "1") (Text.Utf8.encode "2") hlt))
  refine ⟨c, _, _, hc, hbare, hlong, hrelisted _ relisted_shuffled, hbuild, ?_⟩
  have hmem : ∀ s t : Source,
      s ∈ (Catalog.ofSources ⟨"/", []⟩ [some s, some t].reduceOption).sources :=
    fun s t => List.mem_mergeSort.mpr (List.mem_cons_self (l := [t]))
  exact ⟨_, hmem _ _, rfl,
    hcatalog _ _ _ _ (proper_twoFiles _ _ hlt hleft hright) hbuild _ (hmem _ _)⟩

end Stencil
