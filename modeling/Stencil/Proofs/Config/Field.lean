import Mathlib.Data.List.Induction
import Stencil.Proofs.Config.Reload

/-!
# Fields One by One

What one field of a configuration comes to, whatever the others are.

A configuration is made from a list of fields, but what a field comes to is
decided by what stands under its own name. So two lists that hold the same under
a name agree on the field, whatever else they hold, and a list passes if under
each name it holds what passes in some other list. That makes it possible to
speak about one field at a time: what a value comes to by itself, it comes to in
any company.

Fields are written over by `setField`, which puts a value under a name and
leaves the other names alone. Contexts are written over in the same way, as data
or as names with values.

## Theorems

* `Config.lookup_fields_of_reads`: The same data gives the same field.
* `Config.exists_reads_of_each`: Fields pass together if each of them passes.
* `Config.ofFields_singleton_iff`: When a field passes by itself.
* `Config.fields_inj`: Configurations with the same fields are the same.
* `Config.lookup_setField`, `Config.lookup_foldl_setField`: What stands under a
  name after writing.
* `Config.Accepted.reads`: The fields of a configuration pass again.
* `Config.mergeContext_texts`: Merging contexts writes one over the other.
-/

namespace Stencil

namespace Config

/-! ### One field at a time -/

section Fields

variable {α : Type} {fields more : Fields} {name : String} {first v w : α}
  {read : List String → Datum → Checked α}

theorem field_of_lookup {d : Datum} (h : fields.lookup name = some d) :
    field fields name first read = read [name] d := by
  rw [field, h]

/-- What a field comes to is decided by its own data. -/
theorem field_congr (hsame : fields.lookup name = more.lookup name) :
    field fields name first read = field more name first read := by
  rw [field, field, hsame]

theorem eq_of_field (h : field fields name first read = .ok v)
    (h' : field more name first read = .ok w) (hsame : fields.lookup name = more.lookup name) :
    v = w := by
  rw [field_congr hsame, h'] at h
  exact (Except.ok.inj h).symm

theorem lookup_of_not_field {c : Config} (h : name ∉ fieldNames) : c.fields.lookup name = none := by
  rw [List.lookup_eq_none_iff]
  intro f hf
  rw [bne_iff_ne]
  intro heq
  rw [heq, ← names_fields c] at h
  exact h (List.mem_map_of_mem hf)

/-- The same data gives the same field. -/
theorem lookup_fields_of_reads {c c' : Config} (h : Reads fields c) (h' : Reads more c')
    (hsame : fields.lookup name = more.lookup name) :
    c.fields.lookup name = c'.fields.lookup name := by
  by_cases hname : name ∈ fieldNames
  -- Each field is checked on its own, so the same data leaves the same there.
  · simp only [fieldNames, List.mem_cons, List.not_mem_nil, or_false] at hname
    rcases hname with rfl | rfl | rfl | rfl | rfl | rfl | rfl | rfl | rfl | rfl | rfl
    · exact congrArg (fun v => some (ofTexts v))
        (eq_of_field h.querySuffixes h'.querySuffixes hsame)
    · exact congrArg (fun v => some (ofTexts v))
        (eq_of_field h.partialSuffixes h'.partialSuffixes hsame)
    · exact congrArg (fun v => some (ofTexts v))
        (eq_of_field h.macroSuffixes h'.macroSuffixes hsame)
    · exact congrArg (fun v => some (ofOption .text v))
        (eq_of_field h.partialsDir h'.partialsDir hsame)
    · exact congrArg (fun v => some (ofOption (fun p => .text p.text) v))
        (eq_of_field h.outputDir h'.outputDir hsame)
    · exact congrArg (fun v => some (Datum.text v)) (eq_of_field h.extension h'.extension hsame)
    · exact congrArg (fun v => some (Datum.text v)) (eq_of_field h.header h'.header hsame)
    · exact congrArg (fun v => some (contextDatum v)) (eq_of_field h.context h'.context hsame)
    · exact congrArg (fun v => some (ofOption .int v)) (eq_of_field h.workers h'.workers hsame)
    · exact congrArg (fun v => some (Datum.bool v))
        (eq_of_field h.includeIgnored h'.includeIgnored hsame)
    · exact congrArg (fun v => some (Datum.bool v)) (eq_of_field h.verbose h'.verbose hsame)
  · rw [lookup_of_not_field hname, lookup_of_not_field hname]

/-- Fields pass their checks together if each of them passes its own. -/
theorem exists_reads_of_each (h : ∀ name ∈ fieldNames, ∃ more c,
    Reads more c ∧ fields.lookup name = more.lookup name) : ∃ c, Reads fields c := by
  rcases h "query_suffixes" (by decide) with ⟨_, c₁, h₁, hsame₁⟩
  rcases h "partial_suffixes" (by decide) with ⟨_, c₂, h₂, hsame₂⟩
  rcases h "macro_suffixes" (by decide) with ⟨_, c₃, h₃, hsame₃⟩
  rcases h "partials_dir" (by decide) with ⟨_, c₄, h₄, hsame₄⟩
  rcases h "output_dir" (by decide) with ⟨_, c₅, h₅, hsame₅⟩
  rcases h "extension" (by decide) with ⟨_, c₆, h₆, hsame₆⟩
  rcases h "header" (by decide) with ⟨_, c₇, h₇, hsame₇⟩
  rcases h "context" (by decide) with ⟨_, c₈, h₈, hsame₈⟩
  rcases h "workers" (by decide) with ⟨_, c₉, h₉, hsame₉⟩
  rcases h "include_ignored" (by decide) with ⟨_, c₁₀, h₁₀, hsame₁₀⟩
  rcases h "verbose" (by decide) with ⟨_, c₁₁, h₁₁, hsame₁₁⟩
  exact ⟨⟨c₁.querySuffixes, c₂.partialSuffixes, c₃.macroSuffixes, c₄.partialsDir, c₅.outputDir,
    c₆.extension, c₇.header, c₈.context, c₉.workers, c₁₀.includeIgnored, c₁₁.verbose⟩,
    ⟨(field_congr hsame₁).trans h₁.querySuffixes, (field_congr hsame₂).trans h₂.partialSuffixes,
      (field_congr hsame₃).trans h₃.macroSuffixes, (field_congr hsame₄).trans h₄.partialsDir,
      (field_congr hsame₅).trans h₅.outputDir, (field_congr hsame₆).trans h₆.extension,
      (field_congr hsame₇).trans h₇.header, (field_congr hsame₈).trans h₈.context,
      (field_congr hsame₉).trans h₉.workers, (field_congr hsame₁₀).trans h₁₀.includeIgnored,
      (field_congr hsame₁₁).trans h₁₁.verbose⟩⟩

theorem reads_nil : Reads [] default :=
  ⟨rfl, rfl, rfl, rfl, rfl, rfl, rfl, rfl, rfl, rfl, rfl⟩

/-- Nothing is wrong with a list of fields without unknown names. -/
theorem unknownFields_eq_ok_iff : unknownFields fields = .ok () ↔
    ∀ f ∈ fields, f.1 ∈ fieldNames := by
  rw [unknownFields]
  constructor
  · intro h f hf
    by_contra hno
    have hmem : f ∈ fields.filter fun f => !fieldNames.contains f.1 := by
      refine List.mem_filter.mpr ⟨hf, ?_⟩
      rw [Bool.not_eq_true', Bool.eq_false_iff, ne_eq, List.contains_iff_mem]
      exact hno
    rcases hunknown : fields.filter fun f => !fieldNames.contains f.1 with _ | ⟨g, gs⟩
    · rw [hunknown] at hmem
      exact absurd hmem List.not_mem_nil
    · simp only [hunknown, reduceCtorEq] at h
  · intro h
    have hnone : fields.filter (fun f => !fieldNames.contains f.1) = [] := by
      rw [List.filter_eq_nil_iff]
      intro f hf
      rw [List.contains_iff_mem.mpr (h f hf)]
      exact Bool.false_ne_true
    rw [hnone]

/-- A field by itself makes a configuration iff it has a name and passes. -/
theorem ofFields_singleton_iff {d : Datum} : (∃ c, ofFields [(name, d)] = .ok c) ↔
    name ∈ fieldNames ∧ ∃ more c, Reads more c ∧ more.lookup name = some d := by
  have hself : List.lookup name [(name, d)] = some d := by
    rw [List.lookup_cons, beq_self_eq_true]
  constructor
  · intro ⟨c, h⟩
    rcases ofFields_eq_ok_iff.mp h with ⟨hreads, hunknown⟩
    exact ⟨unknownFields_eq_ok_iff.mp hunknown _ List.mem_cons_self, _, c, hreads, hself⟩
  · intro ⟨hname, more, c, hreads, hmore⟩
    have heach : ∀ n ∈ fieldNames, ∃ more c, Reads more c ∧
        List.lookup n [(name, d)] = more.lookup n := by
      intro n _
      by_cases heq : n = name
      · rw [heq]
        exact ⟨more, c, hreads, hself.trans hmore.symm⟩
      · refine ⟨[], default, reads_nil, ?_⟩
        rw [List.lookup_cons, beq_false_of_ne heq]
    rcases exists_reads_of_each heach with ⟨c', hc'⟩
    refine ⟨c', ofFields_eq_ok_iff.mpr ⟨hc', unknownFields_eq_ok_iff.mpr fun f hf => ?_⟩⟩
    rwa [List.mem_singleton.mp hf]

end Fields

theorem ofTexts_inj {ss ts : List String} (h : ofTexts ss = ofTexts ts) : ss = ts :=
  List.map_injective_iff.mpr (fun _ _ => Datum.text.inj) (Datum.list.inj h)

theorem ofOption_inj {α : Type} {f : α → Datum} (hnull : ∀ a, f a ≠ .null) {o o' : Option α}
    (hf : ∀ a a', o = some a → o' = some a' → f a = f a' → a = a')
    (h : ofOption f o = ofOption f o') : o = o' := by
  cases o with
  | none =>
      cases o' with
      | none => rfl
      | some a' => exact absurd h.symm (hnull a')
  | some a =>
      cases o' with
      | none => exact absurd h (hnull a)
      | some a' => exact congrArg some (hf a a' rfl rfl h)

/-- Configurations that were accepted are told apart by their fields. -/
theorem fields_inj {c c' : Config} (hc : c.Accepted) (hc' : c'.Accepted)
    (h : c.fields = c'.fields) : c = c' := by
  simp only [fields, List.cons.injEq, Prod.mk.injEq, true_and, and_true, Datum.text.injEq,
    Datum.bool.injEq] at h
  rcases h with ⟨hquery, hpartial, hmacro, hshared, hdir, hextension, hheader, hcontext, hworkers,
    hignored, hverbose⟩
  have hpath : c.outputDir = c'.outputDir := by
    refine ofOption_inj (fun _ => Datum.noConfusion) (fun p q hp hq htext => ?_) hdir
    rcases hc.outputDir hp with ⟨s, rfl⟩
    rcases hc'.outputDir hq with ⟨t, rfl⟩
    rw [← Path.ofString_text s, Datum.text.inj htext, Path.ofString_text]
  cases c
  cases c'
  simp only [Config.mk.injEq]
  exact ⟨ofTexts_inj hquery, ofTexts_inj hpartial, ofTexts_inj hmacro,
    ofOption_inj (fun _ => Datum.noConfusion) (fun _ _ _ _ => Datum.text.inj) hshared, hpath,
    hextension, hheader, contextDatum_inj hcontext,
    ofOption_inj (fun _ => Datum.noConfusion) (fun _ _ _ _ => Datum.int.inj) hworkers, hignored,
    hverbose⟩

/-! ### Writing over fields -/

section Set

variable {fields rest : Fields} {name : String}

theorem map_fst_setField (fields : Fields) (name : String) (v : Datum) :
    (setField fields name v).map Prod.fst =
      if name ∈ fields.map Prod.fst then fields.map Prod.fst
      else fields.map Prod.fst ++ [name] := by
  by_cases hmem : name ∈ fields.map Prod.fst
  · rcases List.mem_map.mp hmem with ⟨f, hf, heq⟩
    have hany : fields.any (·.1 == name) = true :=
      List.any_eq_true.mpr ⟨f, hf, beq_iff_eq.mpr heq⟩
    rw [if_pos hmem, setField, if_pos hany, List.map_map]
    refine List.map_congr_left (fun g _ => ?_)
    by_cases hg : (g.1 == name) = true
    · rw [Function.comp_apply, if_pos hg, eq_of_beq hg]
    · rw [Function.comp_apply, if_neg hg]
  · rw [if_neg hmem, setField_of_notMem hmem, List.map_append, List.map_cons, List.map_nil]

theorem mem_names_setField {n : String} (v : Datum) :
    n ∈ (setField fields name v).map Prod.fst ↔ n = name ∨ n ∈ fields.map Prod.fst := by
  rw [map_fst_setField]
  by_cases hmem : name ∈ fields.map Prod.fst
  · rw [if_pos hmem]
    exact ⟨Or.inr, fun h => h.elim (fun heq => heq ▸ hmem) id⟩
  · rw [if_neg hmem, List.mem_append, List.mem_singleton, or_comm]

theorem nodup_setField (h : (fields.map Prod.fst).Nodup) (v : Datum) :
    ((setField fields name v).map Prod.fst).Nodup := by
  rw [map_fst_setField]
  by_cases hmem : name ∈ fields.map Prod.fst
  · rwa [if_pos hmem]
  · rw [if_neg hmem]
    exact List.nodup_append.mpr ⟨h, List.nodup_singleton name, fun a ha b hb heq =>
      hmem (List.mem_singleton.mp hb ▸ heq ▸ ha)⟩

/-- What was written under a name is found there, and nothing else changes. -/
theorem lookup_setField (fields : Fields) (name : String) (v : Datum) (n : String) :
    (setField fields name v).lookup n = if n = name then some v else fields.lookup n := by
  by_cases hmem : name ∈ fields.map Prod.fst
  -- A name that is there is written over at its place.
  · rcases List.mem_map.mp hmem with ⟨f, hf, heq⟩
    have hany : fields.any (·.1 == name) = true :=
      List.any_eq_true.mpr ⟨f, hf, beq_iff_eq.mpr heq⟩
    rw [setField, if_pos hany]
    by_cases hn : n = name
    · rw [if_pos hn, hn]
      clear hany hf heq
      induction fields with
      | nil => exact absurd hmem List.not_mem_nil
      | cons g gs ih =>
          rw [List.map_cons, List.lookup_cons]
          by_cases hg : (g.1 == name) = true
          · rw [if_pos hg, beq_self_eq_true]
          · have hrest : name ∈ gs.map Prod.fst :=
              (List.mem_cons.mp hmem).resolve_left (fun heq => hg (beq_iff_eq.mpr heq.symm))
            rw [if_neg hg, beq_false_of_ne (fun heq => hg (beq_iff_eq.mpr heq.symm)), ih hrest]
    · rw [if_neg hn]
      clear hany hf heq hmem
      induction fields with
      | nil => rfl
      | cons g gs ih =>
          rw [List.map_cons, List.lookup_cons, List.lookup_cons, ih]
          by_cases hg : (g.1 == name) = true
          · rw [if_pos hg, eq_of_beq hg, beq_false_of_ne hn]
          · rw [if_neg hg]
  -- A new name is put at the end.
  · have hnone : fields.lookup name = none := by
      rw [List.lookup_eq_none_iff]
      intro f hf
      rw [bne_iff_ne]
      exact fun heq => hmem (heq ▸ List.mem_map_of_mem hf)
    rw [setField_of_notMem hmem, List.lookup_append, List.lookup_cons, List.lookup_nil]
    by_cases hn : n = name
    · rw [if_pos hn, hn, hnone, beq_self_eq_true, Option.none_or]
    · rw [if_neg hn, beq_false_of_ne hn, Option.or_none]

/-- What was written last under different names is found there. -/
theorem lookup_foldl_setField (h : (rest.map Prod.fst).Nodup) (n : String) :
    (rest.foldl (fun fs o => setField fs o.1 o.2) fields).lookup n =
      (rest.lookup n).or (fields.lookup n) := by
  induction rest generalizing fields with
  | nil => rw [List.foldl_nil, List.lookup_nil, Option.none_or]
  | cons o rest ih =>
      rw [List.map_cons, List.nodup_cons] at h
      rw [List.foldl_cons, ih h.2, lookup_setField, List.lookup_cons]
      by_cases hn : n = o.1
      · have hnone : rest.lookup o.1 = none := by
          rw [List.lookup_eq_none_iff]
          intro f hf
          rw [bne_iff_ne]
          exact fun heq => h.1 (heq ▸ List.mem_map_of_mem hf)
        rw [if_pos hn, hn, hnone, beq_self_eq_true, Option.none_or, Option.some_or]
      · rw [if_neg hn, beq_false_of_ne hn]

theorem mem_names_foldl_setField {n : String} :
    n ∈ (rest.foldl (fun fs o => setField fs o.1 o.2) fields).map Prod.fst ↔
      n ∈ rest.map Prod.fst ∨ n ∈ fields.map Prod.fst := by
  induction rest generalizing fields with
  | nil =>
      rw [List.foldl_nil, List.map_nil]
      exact ⟨Or.inr, fun h => h.resolve_left List.not_mem_nil⟩
  | cons o rest ih =>
      rw [List.foldl_cons, ih, mem_names_setField, List.map_cons, List.mem_cons, or_left_comm,
        or_assoc]

theorem nodup_foldl_setField (h : (fields.map Prod.fst).Nodup) (rest : Fields) :
    ((rest.foldl (fun fs o => setField fs o.1 o.2) fields).map Prod.fst).Nodup := by
  induction rest generalizing fields with
  | nil => exact h
  | cons o rest ih =>
      rw [List.foldl_cons]
      exact ih (nodup_setField h o.2)

theorem setField_cons_of_ne {f : String × Datum} (hne : f.1 ≠ name) (v : Datum) :
    setField (f :: fields) name v = f :: setField fields name v := by
  have hfalse : (f.1 == name) = false := beq_false_of_ne hne
  rw [setField, setField, List.any_cons, hfalse, Bool.false_or, List.map_cons, hfalse,
    if_neg Bool.false_ne_true]
  by_cases hany : (fields.any (·.1 == name)) = true
  · rw [if_pos hany, if_pos hany]
  · rw [if_neg hany, if_neg hany, List.cons_append]

theorem setField_cons_of_eq {f : String × Datum} (heq : f.1 = name)
    (hnot : name ∉ fields.map Prod.fst) (v : Datum) :
    setField (f :: fields) name v = (name, v) :: fields := by
  have hany : (f :: fields).any (·.1 == name) = true := by
    rw [List.any_cons, beq_iff_eq.mpr heq, Bool.true_or]
  have hrest : fields.map (fun g => if (g.1 == name) = true then (name, v) else g) = fields := by
    refine (List.map_congr_left fun g hg => ?_).trans (List.map_id fields)
    rw [if_neg, id]
    exact fun hname => hnot (eq_of_beq hname ▸ List.mem_map_of_mem hg)
  rw [setField, if_pos hany, List.map_cons, hrest, beq_iff_eq.mpr heq, if_pos rfl]

/-- Of two values written under one name the later one counts. -/
theorem setField_twice (h : (fields.map Prod.fst).Nodup) (w v : Datum) :
    setField (setField fields name w) name v = setField fields name v := by
  induction fields with
  | nil =>
      rw [show setField [] name w = [(name, w)] from rfl,
        setField_cons_of_eq rfl (List.not_mem_nil)]
      rfl
  | cons f fs ih =>
      rw [List.map_cons, List.nodup_cons] at h
      by_cases hf : f.1 = name
      · rw [setField_cons_of_eq hf (hf ▸ h.1), setField_cons_of_eq rfl (hf ▸ h.1),
          setField_cons_of_eq hf (hf ▸ h.1)]
      · rw [setField_cons_of_ne hf, setField_cons_of_ne hf, setField_cons_of_ne hf, ih h.2]

/-- The order of writing under different names does not matter if one of them is
    already there. -/
theorem setField_comm {n : String} (h : (fields.map Prod.fst).Nodup)
    (hmem : name ∈ fields.map Prod.fst) (hne : n ≠ name) (x v : Datum) :
    setField (setField fields n x) name v = setField (setField fields name v) n x := by
  induction fields with
  | nil => exact absurd hmem List.not_mem_nil
  | cons f fs ih =>
      rw [List.map_cons, List.nodup_cons] at h
      -- The name at the head is not further down, and writing another name leaves it so.
      have hnot : ∀ {m k : String} (y : Datum), f.1 = m → m ≠ k →
          m ∉ (setField fs k y).map Prod.fst := by
        intro m k y hm hk hmem
        rcases (mem_names_setField y).mp hmem with heq | hmem
        · exact hk heq
        · exact h.1 (hm ▸ hmem)
      by_cases hf : f.1 = name
      · have hfn : f.1 ≠ n := fun heq => hne (heq.symm.trans hf)
        rw [setField_cons_of_ne hfn, setField_cons_of_eq hf (hnot x hf hne.symm),
          setField_cons_of_eq hf (hf ▸ h.1), setField_cons_of_ne hne.symm]
      · rw [setField_cons_of_ne hf]
        by_cases hfn : f.1 = n
        · rw [setField_cons_of_eq hfn (hfn ▸ h.1), setField_cons_of_ne hne,
            setField_cons_of_eq hfn (hnot v hfn hne)]
        · have hrest : name ∈ fs.map Prod.fst :=
            (List.mem_cons.mp hmem).resolve_left (fun heq => hf heq.symm)
          rw [setField_cons_of_ne hfn, setField_cons_of_ne hf, setField_cons_of_ne hfn,
            ih h.2 hrest]

theorem setField_foldl (h : (fields.map Prod.fst).Nodup) (hmem : name ∈ fields.map Prod.fst)
    (hnot : name ∉ rest.map Prod.fst) (v : Datum) :
    setField (rest.foldl (fun fs o => setField fs o.1 o.2) fields) name v =
      rest.foldl (fun fs o => setField fs o.1 o.2) (setField fields name v) := by
  induction rest generalizing fields with
  | nil => rfl
  | cons o rest ih =>
      rw [List.map_cons, List.mem_cons, not_or] at hnot
      rw [List.foldl_cons, List.foldl_cons, ih (nodup_setField h o.2)
        ((mem_names_setField o.2).mpr (Or.inr hmem)) hnot.2,
        setField_comm h hmem (Ne.symm hnot.1)]

/-- Writing over what is written afterwards is writing afterwards. -/
theorem foldl_setField_setField (h : (fields.map Prod.fst).Nodup)
    (hrest : (rest.map Prod.fst).Nodup) (v : Datum) :
    (setField rest name v).foldl (fun fs o => setField fs o.1 o.2) fields =
      setField (rest.foldl (fun fs o => setField fs o.1 o.2) fields) name v := by
  induction rest generalizing fields with
  | nil => rfl
  | cons o rest ih =>
      rw [List.map_cons, List.nodup_cons] at hrest
      by_cases ho : o.1 = name
      · have hthere : name ∈ (setField fields o.1 o.2).map Prod.fst :=
          (mem_names_setField o.2).mpr (Or.inl ho.symm)
        rw [setField_cons_of_eq ho (ho ▸ hrest.1), List.foldl_cons, List.foldl_cons,
          setField_foldl (nodup_setField h o.2) hthere (ho ▸ hrest.1), ho, setField_twice h]
      · rw [setField_cons_of_ne ho, List.foldl_cons, List.foldl_cons,
          ih (nodup_setField h o.2) hrest.2]

/-- What is gathered first and then written is the same as what is written bit by
    bit. -/
theorem foldl_foldl_setField (h : (fields.map Prod.fst).Nodup) (rest : Fields) :
    (rest.foldl (fun fs o => setField fs o.1 o.2) []).foldl (fun fs o => setField fs o.1 o.2)
      fields = rest.foldl (fun fs o => setField fs o.1 o.2) fields := by
  have hnil : (([] : Fields).map Prod.fst).Nodup := List.nodup_nil
  induction rest using List.reverseRecOn with
  | nil => rfl
  | append_singleton rest o ih =>
      rw [List.foldl_append, List.foldl_append, List.foldl_cons, List.foldl_cons, List.foldl_nil,
        List.foldl_nil, foldl_setField_setField h (nodup_foldl_setField hnil rest), ih]

end Set

/-! ### The fields of a configuration, once more -/

/-- The names in a context are different. -/
theorem Accepted.nodup_context {c : Config} (hc : c.Accepted) :
    (c.context.map Prod.fst).Nodup := by
  rcases hc.exists_reads with ⟨fields, hreads⟩
  rcases field_eq_ok hreads.context with heq | ⟨d, hd⟩
  · rw [heq]
    exact List.nodup_nil
  · cases d with
    | map es =>
        rw [readContext] at hd
        rcases hkeys : keyComplaints ["context"] es with _ | ⟨k, ks⟩
        · simp only [hkeys, Except.ok.injEq] at hd
          rw [← hd]
          exact @nodup_foldl_setField [] List.nodup_nil _
        · simp only [hkeys, reduceCtorEq] at hd
    | _ => cases hd

/-- The fields of a configuration pass their checks again and are left alone by
    them, with the extension as it was before its check. -/
theorem Accepted.reads {c : Config} (hc : c.Accepted) : ∃ s, bareExtension s = .ok c.extension ∧
    Reads (setField c.fields "extension" (.text s)) c := by
  rcases hc.exists_reads with ⟨fields, hreads⟩
  rcases hc.exists_extension with ⟨s, hs⟩
  have hkept : ∀ {name : String} {d : Datum}, name ≠ "extension" → c.fields.lookup name = some d →
      (setField c.fields "extension" (.text s)).lookup name = some d := by
    intro name d hne hd
    rw [lookup_setField, if_neg hne, hd]
  have hextension : (setField c.fields "extension" (.text s)).lookup "extension" =
      some (.text s) := by rw [lookup_setField, if_pos rfl]
  -- Each field is found as it was saved, and its check leaves it so.
  refine ⟨s, hs, ⟨?_, ?_, ?_, ?_, ?_, ?_, ?_, ?_, ?_, ?_, ?_⟩⟩
  · rw [field_of_lookup (hkept (by decide) rfl)]
    exact readSuffixes_ofTexts (orderSuffixes_of_ordered (by decide) (by decide) (by decide))
      hreads.querySuffixes _
  · rw [field_of_lookup (hkept (by decide) rfl)]
    exact readSuffixes_ofTexts (orderSuffixes_of_ordered (by decide) (by decide) (by decide))
      hreads.partialSuffixes _
  · rw [field_of_lookup (hkept (by decide) rfl)]
    exact readSuffixes_ofTexts (orderSuffixes_of_ordered (by decide) (by decide) (by decide))
      hreads.macroSuffixes _
  · rw [field_of_lookup (hkept (by decide) rfl)]
    exact hc.read_partialsDir _
  · rw [field_of_lookup (hkept (by decide) rfl)]
    exact hc.read_outputDir _
  · rw [field_of_lookup hextension, readText, checkRule, hs]
    rfl
  · rw [field_of_lookup (hkept (by decide) rfl)]
    rfl
  · rw [field_of_lookup (hkept (by decide) rfl)]
    exact readContext_contextDatum hc.nodup_context _
  · rw [field_of_lookup (hkept (by decide) rfl)]
    exact hc.read_workers _
  · rw [field_of_lookup (hkept (by decide) rfl)]
    rfl
  · rw [field_of_lookup (hkept (by decide) rfl)]
    rfl

/-! ### Contexts -/

theorem textOf?_of_same {k key : Datum} (h : k.same key = true) :
    textOf? k = none ↔ textOf? key = none := by
  cases k <;> cases key <;>
    simp only [Datum.same, Bool.false_eq_true, beq_iff_eq, textOf?, reduceCtorEq] at h ⊢
  rw [h]

/-- A key that is no text stays one when entries are written. -/
theorem exists_key_insert {es : Datum.Entries} {key v : Datum} :
    (∃ e ∈ Datum.Entries.insert key v es, textOf? e.1 = none) ↔
      textOf? key = none ∨ ∃ e ∈ es, textOf? e.1 = none := by
  induction es with
  | nil => simp only [Datum.Entries.insert, List.mem_singleton, exists_eq_left, List.not_mem_nil,
      false_and, exists_false, or_false]
  | cons e es ih =>
      rcases e with ⟨k, w⟩
      rw [Datum.Entries.insert]
      by_cases hsame : k.same key = true
      · rw [if_pos hsame]
        simp only [List.mem_cons, exists_eq_or_imp, textOf?_of_same hsame]
        exact ⟨fun h => Or.inr h, fun h => h.elim Or.inl id⟩
      · rw [if_neg hsame]
        simp only [List.mem_cons, exists_eq_or_imp, ih]
        exact or_left_comm

theorem exists_key_update {es more : Datum.Entries} :
    (∃ e ∈ Datum.Entries.update es more, textOf? e.1 = none) ↔
      (∃ e ∈ es, textOf? e.1 = none) ∨ ∃ e ∈ more, textOf? e.1 = none := by
  induction more generalizing es with
  | nil => simp only [Datum.Entries.update, List.foldl_nil, List.not_mem_nil, false_and,
      exists_false, or_false]
  | cons e more ih =>
      rw [Datum.Entries.update, List.foldl_cons, ← Datum.Entries.update, ih, exists_key_insert]
      simp only [List.mem_cons, exists_eq_or_imp]
      exact or_assoc.trans or_left_comm

theorem keyComplaints_eq_nil_iff {place : List String} {es : Datum.Entries} :
    keyComplaints place es = [] ↔ ¬ ∃ e ∈ es, textOf? e.1 = none := by
  rw [keyComplaints, List.filterMap_eq_nil_iff]
  constructor
  · rintro h ⟨e, he, hnone⟩
    have hkey := h e he
    simp only [hnone, reduceCtorEq] at hkey
  · intro h e he
    rcases htext : textOf? e.1 with _ | s
    · exact absurd ⟨e, he, htext⟩ h
    · rfl

theorem exists_readContext_iff {place : List String} {d : Datum} :
    (∃ v, readContext place d = .ok v) ↔
      ∃ es, d = .map es ∧ ¬ ∃ e ∈ es, textOf? e.1 = none := by
  cases d with
  | map es =>
      rw [readContext]
      constructor
      · rintro ⟨v, hv⟩
        refine ⟨es, rfl, (@keyComplaints_eq_nil_iff place es).mp ?_⟩
        rcases hkeys : keyComplaints place es with _ | ⟨k, ks⟩
        · rfl
        · simp only [hkeys, reduceCtorEq] at hv
      · rintro ⟨es', hes, hkeys⟩
        cases hes
        rw [(@keyComplaints_eq_nil_iff place es).mpr hkeys]
        exact ⟨_, rfl⟩
  | _ => simp only [readContext, complain, reduceCtorEq, exists_false, false_and]

/-- A context can be merged with what can be read as one. -/
theorem exists_readContext_mergeContext {place : List String} {context : Fields}
    {es : Datum.Entries} : (∃ v, readContext place (mergeContext context es) = .ok v) ↔
      ∃ v, readContext place (.map es) = .ok v := by
  rw [exists_readContext_iff, exists_readContext_iff]
  simp only [mergeContext, Datum.map.injEq, exists_eq_left', exists_key_update, not_or]
  refine ⟨fun h => h.2, fun h => ⟨?_, h⟩⟩
  rintro ⟨e, he, hnone⟩
  rcases List.mem_map.mp he with ⟨f, _, rfl⟩
  cases hnone

/-- Writing an entry into a context with different names is the same on data. -/
theorem insert_texts {context : Fields} (h : (context.map Prod.fst).Nodup) (name : String)
    (v : Datum) :
    Datum.Entries.insert (.text name) v (context.map fun e => (Datum.text e.1, e.2)) =
      (setField context name v).map fun e => (Datum.text e.1, e.2) := by
  induction context with
  | nil => rfl
  | cons f context ih =>
      rw [List.map_cons, List.nodup_cons] at h
      rw [List.map_cons, Datum.Entries.insert]
      by_cases hname : f.1 = name
      · have hsame : (Datum.text f.1).same (.text name) = true :=
          Datum.same_text_iff.mpr (congrArg Datum.text hname)
        rw [if_pos hsame, setField_cons_of_eq hname (hname ▸ h.1), List.map_cons, hname]
      · have hsame : ¬ (Datum.text f.1).same (.text name) = true :=
          fun heq => hname (Datum.text.inj (Datum.same_text_iff.mp heq))
        rw [if_neg hsame, ih h.2, setField_cons_of_ne hname, List.map_cons]

/-- Merging a context with another writes the entries of the other one by
    one. -/
theorem mergeContext_texts {context : Fields} (h : (context.map Prod.fst).Nodup)
    (more : Fields) : mergeContext context (more.map fun e => (Datum.text e.1, e.2)) =
      contextDatum (more.foldl (fun done e => setField done e.1 e.2) context) := by
  induction more generalizing context with
  | nil => rfl
  | cons e more ih =>
      rw [List.foldl_cons, ← ih (nodup_setField h e.2), mergeContext, mergeContext,
        ← insert_texts h]
      rfl

end Config

end Stencil
