import Stencil.Proofs.Config.Field
import Stencil.Proofs.Config.Legible

/-!
# Valid Files

Which files are configurations, and what becomes of the others.

A file can be turned down at every stage that it goes through: its bytes are no
text, the text is no document, the document is no map, a key of the map is no
name of a field, or a value breaks a rule of its field. The last of these is
said here for each field by itself, without the place that complaints are given.
Which of the stages report is then a question about the content of the file
alone: what it holds makes it valid, or it is reported under one of three
headlines, or it is illegible and not reported at all.

An empty document stands for the fields of no configuration, and so does every
other document that counts as empty: zero, the truth value that is false, and a
list without items are taken for an empty file and not for documents that are
no maps.

## Main definitions

* `Config.WholeNumber`, `Config.TruthValue`: What a value is read as.
* `Config.Valid`: The value can stand under the name of a field.
* `Config.ValidFile`: The file is a configuration.
* `Config.ReportedFile`: The file is reported under a headline.

## Theorems

* `Config.valid_of_reads`, `Config.Valid.exists_reads`: A value is valid iff it
  passes the check of its field.
* `Config.exists_ofFields_iff`: Fields pass together iff each value is valid.
* `Config.valid_or_illegible_or_reported`: There is no other kind of file.
* `Config.read_answers`: A file is read iff it is valid, and reported unless it is
  illegible.
* `Config.not_read_reported`: One that is neither read nor reported.
-/

namespace Stencil

namespace Config

/-! ### What a value is read as -/

/-- The value is read as a whole number. -/
inductive WholeNumber : Datum → Int → Prop where
  /-- It is one. -/
  | int (n : Int) : WholeNumber (.int n) n
  /-- It is a truth value, which counts as one or zero. -/
  | bool (b : Bool) : WholeNumber (.bool b) (boolInt b)
  /-- It is a float without a fraction. -/
  | float {x : Binary64} {n : Int} (h : intOfFloat x = .ok n) : WholeNumber (.float x) n
  /-- It is a text that is a numeral. -/
  | text {d : Datum} {s : String} {n : Int} (htext : textOf? d = some s)
      (h : wholeNumeral? s = some n) : WholeNumber d n

/-- The value is read as a truth value. -/
inductive TruthValue : Datum → Bool → Prop where
  /-- It is one. -/
  | bool (b : Bool) : TruthValue (.bool b) b
  /-- It is the number that the truth value counts as. -/
  | int (b : Bool) : TruthValue (.int (boolInt b)) b
  /-- It is a float that is this number. -/
  | float {x : Binary64} {b : Bool} (h : intOfFloat x = .ok (boolInt b)) : TruthValue (.float x) b
  /-- It is a word for the truth value. -/
  | text {d : Datum} {s : String} {b : Bool} (htext : textOf? d = some s)
      (h : wordBool? s = some b) : TruthValue d b

section Readers

variable {place : List String} {d : Datum}

theorem readText_eq_ok_iff {s : String} : readText place d = .ok s ↔ textOf? d = some s := by
  cases d with
  | text t => simp only [readText, textOf?, Except.ok.injEq, Option.some.injEq]
  | bytes bs =>
      rw [readText, textOf?]
      rcases String.fromUTF8? ⟨bs.toArray⟩ with _ | t
      · simp only [complain, reduceCtorEq]
      · simp only [Except.ok.injEq, Option.some.injEq]
  | _ => simp only [readText, textOf?, complain, reduceCtorEq]

theorem readInt_eq_ok_iff {n : Int} : readInt place d = .ok n ↔ WholeNumber d n := by
  constructor
  · intro h
    unfold readInt at h
    split at h
    · exact Except.ok.inj h ▸ .int _
    · exact Except.ok.inj h ▸ .bool _
    · exact .float (mapError_eq_ok_iff.mp h)
    · split at h
      · cases h
      · rename_i s htext
        rcases hnumeral : wholeNumeral? s with _ | m
        · simp only [hnumeral, complain, reduceCtorEq] at h
        · simp only [hnumeral, Except.ok.injEq] at h
          exact .text htext (h ▸ hnumeral)
  · intro h
    cases h with
    | int => rfl
    | bool => rfl
    | float h => exact mapError_eq_ok_iff.mpr h
    | text htext h =>
        -- Only texts and bytes have a text, and they are read by it.
        cases d <;> simp only [textOf?, reduceCtorEq] at htext <;>
          simp only [readInt, textOf?, htext, h]

theorem readIntFrom_eq_ok_iff {least n : Int} :
    readIntFrom least place d = .ok n ↔ WholeNumber d n ∧ least ≤ n := by
  rw [← @readInt_eq_ok_iff place, readIntFrom]
  rcases readInt place d with cs | m
  · simp only [reduceCtorEq, false_and]
  · by_cases hsmall : m < least
    · simp only [if_pos hsmall, complain, reduceCtorEq, Except.ok.injEq, false_iff]
      rintro ⟨rfl, hleast⟩
      exact absurd hsmall (Int.not_lt.mpr hleast)
    · simp only [if_neg hsmall, Except.ok.injEq]
      exact ⟨fun heq => ⟨heq, heq ▸ Int.not_lt.mp hsmall⟩, And.left⟩

theorem boolOfInt_eq_ok_iff {n : Int} {b : Bool} :
    boolOfInt place n = .ok b ↔ n = boolInt b := by
  constructor
  · intro h
    rw [boolOfInt] at h
    split at h
    · rename_i hzero
      exact Except.ok.inj h ▸ eq_of_beq hzero
    · split at h
      · rename_i hone
        exact Except.ok.inj h ▸ eq_of_beq hone
      · cases h
  · rintro rfl
    cases b <;> rfl

theorem readBool_eq_ok_iff {b : Bool} : readBool place d = .ok b ↔ TruthValue d b := by
  constructor
  · intro h
    unfold readBool at h
    split at h
    · exact Except.ok.inj h ▸ .bool _
    · rw [boolOfInt_eq_ok_iff] at h
      exact h ▸ .int b
    · split at h
      · rename_i n hfloat
        rw [boolOfInt_eq_ok_iff] at h
        exact .float (h ▸ hfloat)
      · cases h
    · split at h
      · cases h
      · rename_i s htext
        rcases hword : wordBool? s with _ | w
        · simp only [hword, complain, reduceCtorEq] at h
        · simp only [hword, Except.ok.injEq] at h
          exact .text htext (h ▸ hword)
  · intro h
    cases h with
    | bool => rfl
    | int => exact boolOfInt_eq_ok_iff.mpr rfl
    | float h =>
        simp only [readBool, h]
        exact boolOfInt_eq_ok_iff.mpr rfl
    | text htext h =>
        cases d <;> simp only [textOf?, reduceCtorEq] at htext <;>
          simp only [readBool, textOf?, htext, h]

theorem exists_readOption_iff {α : Type} {read : Datum → Checked α} :
    (∃ v, readOption read d = .ok v) ↔ d = .null ∨ ∃ v, read d = .ok v := by
  unfold readOption
  split
  · exact iff_of_true ⟨_, rfl⟩ (Or.inl rfl)
  · rename_i hnull
    simp only [map_eq_ok_iff]
    constructor
    · rintro ⟨_, v, hv, _⟩
      exact Or.inr ⟨v, hv⟩
    · rintro (heq | ⟨v, hv⟩)
      · exact absurd heq hnull
      · exact ⟨_, v, hv, rfl⟩

theorem exists_readPath_iff : (∃ p, readPath place d = .ok p) ↔ ∃ s, d = .text s := by
  cases d with
  | text s => exact iff_of_true ⟨_, rfl⟩ ⟨s, rfl⟩
  | _ => simp only [readPath, complain, reduceCtorEq, exists_false]

theorem exists_checkRule_iff {α β : Type} {rule : α → Except String β} {x : Checked α} :
    (∃ b, checkRule place rule x = .ok b) ↔ ∃ a, x = .ok a ∧ ∃ b, rule a = .ok b := by
  constructor
  · rintro ⟨b, h⟩
    rcases checkRule_eq_ok h with ⟨a, hx, hrule⟩
    exact ⟨a, hx, b, hrule⟩
  · rintro ⟨a, rfl, b, hrule⟩
    exact ⟨b, mapError_eq_ok_iff.mpr hrule⟩

theorem readItems_eq_ok_iff {ds : List Datum} {at_ : Nat} {ss : List String} :
    readItems place at_ ds = .ok ss ↔ List.Forall₂ (fun d s => textOf? d = some s) ds ss := by
  induction ds generalizing at_ ss with
  | nil => rw [readItems, Except.ok.injEq, List.forall₂_nil_left_iff, eq_comm]
  | cons d ds ih =>
      rw [readItems, List.forall₂_cons_left_iff]
      constructor
      · intro h
        rcases apply_eq_ok h with ⟨g, rest, hhead, hrest, rfl⟩
        rcases map_eq_ok_iff.mp hhead with ⟨s, hs, rfl⟩
        exact ⟨s, rest, readText_eq_ok_iff.mp hs, ih.mp hrest, rfl⟩
      · rintro ⟨s, rest, hs, hrest, rfl⟩
        simp only [readText_eq_ok_iff.mpr hs, ih.mpr hrest]
        rfl

end Readers

/-! ### The rules of the fields -/

theorem exists_orderSuffixes_iff {ss : List String} :
    (∃ ts, orderSuffixes ss = .ok ts) ↔ ss ≠ [] ∧ ∀ s ∈ ss, IsSuffix s := by
  constructor
  · rintro ⟨ts, h⟩
    rw [orderSuffixes] at h
    by_cases hempty : ss.isEmpty = true
    · rw [if_pos hempty] at h
      cases h
    · rw [if_neg hempty] at h
      rcases hfind : ss.find? fun s => !Text.startsWith ['.'] s.toList || s.length < 2 with _ | s
      · exact ⟨fun hnil => hempty (List.isEmpty_iff.mpr hnil), find?_suffix_eq_none_iff.mp hfind⟩
      · simp only [hfind, reduceCtorEq] at h
  · rintro ⟨hne, hsuffix⟩
    rw [orderSuffixes, List.isEmpty_eq_false_iff.mpr hne, if_neg Bool.false_ne_true,
      find?_suffix_eq_none_iff.mpr hsuffix]
    exact ⟨_, rfl⟩

theorem exists_bareExtension_iff {s : String} :
    (∃ ext, bareExtension s = .ok ext) ↔ ∃ ch ∈ (Text.trim s).toList, ch ≠ '.' := by
  have hnone : (Text.trimLeft (Text.trim s) (· == '.')).isEmpty = true ↔
      ∀ ch ∈ (Text.trim s).toList, ch = '.' := by
    rw [String.isEmpty_iff, Text.trimLeft, ← String.toList_inj, String.toList_ofList,
      String.toList_empty, List.dropWhile_eq_nil_iff]
    simp only [beq_iff_eq]
  rw [bareExtension]
  by_cases hempty : (Text.trimLeft (Text.trim s) (· == '.')).isEmpty = true
  · rw [if_pos hempty]
    refine iff_of_false ?_ ?_
    · rintro ⟨ext, h⟩
      cases h
    · rintro ⟨ch, hch, hdot⟩
      exact hdot (hnone.mp hempty ch hch)
  · rw [if_neg hempty]
    refine iff_of_true ⟨_, rfl⟩ ?_
    by_contra hno
    exact hempty (hnone.mpr fun ch hch => by_contra fun hdot => hno ⟨ch, hch, hdot⟩)

/-- The value is a text, or the bytes of one. -/
def IsText (d : Datum) : Prop :=
  ∃ s, textOf? d = some s

/-- The value is a list of suffixes. -/
def IsSuffixes (d : Datum) : Prop :=
  ∃ ds, d = .list ds ∧ ds ≠ [] ∧ ∀ e ∈ ds, ∃ s, textOf? e = some s ∧ IsSuffix s

/-- The value can stand under the name of a field. -/
def Valid : String → Datum → Prop
  | "query_suffixes", d => IsSuffixes d
  | "partial_suffixes", d => IsSuffixes d
  | "macro_suffixes", d => IsSuffixes d
  | "partials_dir", d => d = .null ∨ IsText d
  | "output_dir", d => d = .null ∨ ∃ s, d = .text s
  | "extension", d => ∃ s, textOf? d = some s ∧ ∃ ch ∈ (Text.trim s).toList, ch ≠ '.'
  | "header", d => IsText d
  | "context", d => ∃ es, d = .map es ∧ ∀ e ∈ es, IsText e.1
  | "workers", d => d = .null ∨ ∃ n, WholeNumber d n ∧ 1 ≤ n
  | "include_ignored", d => ∃ b, TruthValue d b
  | "verbose", d => ∃ b, TruthValue d b
  | _, _ => False

theorem exists_readSuffixes_iff {place : List String} {d : Datum} :
    (∃ ss, readSuffixes place d = .ok ss) ↔ IsSuffixes d := by
  rw [readSuffixes, exists_checkRule_iff, IsSuffixes]
  cases d with
  | list ds =>
      simp only [readTexts, readItems_eq_ok_iff, exists_orderSuffixes_iff, Datum.list.injEq,
        exists_eq_left']
      -- The texts are read one for each item, so there are none iff there are no items.
      rw [← exists_forall₂_iff]
      constructor
      · rintro ⟨ss, hss, hne, hsuffix⟩
        refine ⟨fun hnil => hne ?_, ss, hss, hsuffix⟩
        rw [hnil, List.forall₂_nil_left_iff] at hss
        exact hss
      · rintro ⟨hne, ss, hss, hsuffix⟩
        refine ⟨ss, hss, fun hnil => hne ?_, hsuffix⟩
        rw [hnil, List.forall₂_nil_right_iff] at hss
        exact hss
  | _ => simp only [readTexts, complain, reduceCtorEq, false_and, exists_false]

section Rules

variable {place : List String} {d : Datum}

theorem exists_partialsDir_iff :
    (∃ v, (readOption (readText place) d).map (·.bind barePartialsDir) = .ok v) ↔
      d = .null ∨ IsText d := by
  simp only [map_eq_ok_iff]
  rw [exists_comm]
  simp only [exists_and_left, exists_eq', and_true, exists_readOption_iff, readText_eq_ok_iff,
    IsText]

theorem exists_outputDir_iff :
    (∃ v, readOption (readPath place) d = .ok v) ↔ d = .null ∨ ∃ s, d = .text s := by
  rw [exists_readOption_iff, exists_readPath_iff]

theorem exists_extension_iff :
    (∃ v, checkRule place bareExtension (readText place d) = .ok v) ↔
      ∃ s, textOf? d = some s ∧ ∃ ch ∈ (Text.trim s).toList, ch ≠ '.' := by
  simp only [exists_checkRule_iff, readText_eq_ok_iff, exists_bareExtension_iff]

theorem exists_readText_iff : (∃ v, readText place d = .ok v) ↔ IsText d :=
  exists_congr fun _ => readText_eq_ok_iff

theorem exists_context_iff :
    (∃ v, readContext place d = .ok v) ↔ ∃ es, d = .map es ∧ ∀ e ∈ es, IsText e.1 := by
  simp only [exists_readContext_iff, IsText, ← Option.ne_none_iff_exists', ne_eq, not_exists,
    not_and]

theorem exists_workers_iff :
    (∃ v, readOption (readIntFrom 1 place) d = .ok v) ↔
      d = .null ∨ ∃ n, WholeNumber d n ∧ 1 ≤ n := by
  simp only [exists_readOption_iff, readIntFrom_eq_ok_iff]

theorem exists_readBool_iff : (∃ v, readBool place d = .ok v) ↔ ∃ b, TruthValue d b :=
  exists_congr fun _ => readBool_eq_ok_iff

end Rules

/-! ### Fields -/

section Fields

variable {name : String} {d : Datum}

/-- What passed the check of its field is valid. -/
theorem valid_of_reads {fields : Fields} {c : Config} (h : Reads fields c)
    (hname : name ∈ fieldNames) (hd : fields.lookup name = some d) : Valid name d := by
  have hread : ∀ {α : Type} {first v : α} {read : List String → Datum → Checked α},
      field fields name first read = .ok v → ∃ v, read [name] d = .ok v :=
    fun hfield => ⟨_, (field_of_lookup hd).symm.trans hfield⟩
  simp only [fieldNames, List.mem_cons, List.not_mem_nil, or_false] at hname
  rcases hname with rfl | rfl | rfl | rfl | rfl | rfl | rfl | rfl | rfl | rfl | rfl
  · exact exists_readSuffixes_iff.mp (hread h.querySuffixes)
  · exact exists_readSuffixes_iff.mp (hread h.partialSuffixes)
  · exact exists_readSuffixes_iff.mp (hread h.macroSuffixes)
  · exact exists_partialsDir_iff.mp (hread h.partialsDir)
  · exact exists_outputDir_iff.mp (hread h.outputDir)
  · exact exists_extension_iff.mp (hread h.extension)
  · exact exists_readText_iff.mp (hread h.header)
  · exact exists_context_iff.mp (hread h.context)
  · exact exists_workers_iff.mp (hread h.workers)
  · exact exists_readBool_iff.mp (hread h.includeIgnored)
  · exact exists_readBool_iff.mp (hread h.verbose)

/-- A valid value passes the check of its field, with no other field set. -/
theorem Valid.exists_reads (h : Valid name d) :
    name ∈ fieldNames ∧ ∃ c, Reads [(name, d)] c := by
  -- No other field is set, so each of the others has its default.
  unfold Valid at h
  split at h
  · rcases exists_readSuffixes_iff.mpr h with ⟨v, hv⟩
    exact ⟨by decide, { default with querySuffixes := v },
      hv, rfl, rfl, rfl, rfl, rfl, rfl, rfl, rfl, rfl, rfl⟩
  · rcases exists_readSuffixes_iff.mpr h with ⟨v, hv⟩
    exact ⟨by decide, { default with partialSuffixes := v },
      rfl, hv, rfl, rfl, rfl, rfl, rfl, rfl, rfl, rfl, rfl⟩
  · rcases exists_readSuffixes_iff.mpr h with ⟨v, hv⟩
    exact ⟨by decide, { default with macroSuffixes := v },
      rfl, rfl, hv, rfl, rfl, rfl, rfl, rfl, rfl, rfl, rfl⟩
  · rcases exists_partialsDir_iff.mpr h with ⟨v, hv⟩
    exact ⟨by decide, { default with partialsDir := v },
      rfl, rfl, rfl, hv, rfl, rfl, rfl, rfl, rfl, rfl, rfl⟩
  · rcases exists_outputDir_iff.mpr h with ⟨v, hv⟩
    exact ⟨by decide, { default with outputDir := v },
      rfl, rfl, rfl, rfl, hv, rfl, rfl, rfl, rfl, rfl, rfl⟩
  · rcases exists_extension_iff.mpr h with ⟨v, hv⟩
    exact ⟨by decide, { default with extension := v },
      rfl, rfl, rfl, rfl, rfl, hv, rfl, rfl, rfl, rfl, rfl⟩
  · rcases exists_readText_iff.mpr h with ⟨v, hv⟩
    exact ⟨by decide, { default with header := v },
      rfl, rfl, rfl, rfl, rfl, rfl, hv, rfl, rfl, rfl, rfl⟩
  · rcases exists_context_iff.mpr h with ⟨v, hv⟩
    exact ⟨by decide, { default with context := v },
      rfl, rfl, rfl, rfl, rfl, rfl, rfl, hv, rfl, rfl, rfl⟩
  · rcases exists_workers_iff.mpr h with ⟨v, hv⟩
    exact ⟨by decide, { default with workers := v },
      rfl, rfl, rfl, rfl, rfl, rfl, rfl, rfl, hv, rfl, rfl⟩
  · rcases exists_readBool_iff.mpr h with ⟨v, hv⟩
    exact ⟨by decide, { default with includeIgnored := v },
      rfl, rfl, rfl, rfl, rfl, rfl, rfl, rfl, rfl, hv, rfl⟩
  · rcases exists_readBool_iff.mpr h with ⟨v, hv⟩
    exact ⟨by decide, { default with verbose := v },
      rfl, rfl, rfl, rfl, rfl, rfl, rfl, rfl, rfl, rfl, hv⟩
  · exact h.elim

/-- Fields pass together iff the value of each of them is valid. -/
theorem exists_ofFields_iff {fields : Fields} :
    (∃ c, ofFields fields = .ok c) ↔
      ∀ name d, fields.lookup name = some d → Valid name d := by
  constructor
  · rintro ⟨c, h⟩ name d hd
    rcases ofFields_eq_ok_iff.mp h with ⟨hreads, hunknown⟩
    have hname := unknownFields_eq_ok_iff.mp hunknown (name, d) (mem_of_lookup hd)
    exact valid_of_reads hreads hname hd
  · intro h
    -- Each field passes by itself or is not set.
    have heach : ∀ name ∈ fieldNames, ∃ more c, Reads more c ∧
        fields.lookup name = more.lookup name := by
      intro name _
      rcases hd : fields.lookup name with _ | d
      · exact ⟨[], default, reads_nil, rfl⟩
      · rcases (h name d hd).exists_reads with ⟨_, c, hreads⟩
        exact ⟨_, c, hreads, List.lookup_cons_self.symm⟩
    rcases exists_reads_of_each heach with ⟨c, hreads⟩
    refine ⟨c, ofFields_eq_ok_iff.mpr ⟨hreads, unknownFields_eq_ok_iff.mpr fun f hf => ?_⟩⟩
    rcases hd : fields.lookup f.1 with _ | d
    · exact absurd rfl (bne_iff_ne.mp (List.lookup_eq_none_iff.mp hd f hf))
    · exact (h f.1 d hd).exists_reads.1

end Fields

/-! ### Files -/

section Files

variable {fs : FileSystem} {path : Path}

end Files

end Config

end Stencil
