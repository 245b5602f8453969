import Stencil.Proofs.Config.Accepted
import Stencil.Proofs.Config.Plain
import Stencil.Proofs.FileSystem.Root
import Stencil.Proofs.FileSystem.Spelled
import Stencil.Proofs.Text.Split
import Stencil.Proofs.Text.Trim
import Stencil.Proofs.Traverse
import Stencil.Proofs.Yaml.Line

/-!
# Configurations Saved and Read

What becomes of a configuration that is saved and read again.

Only the fields that differ from their defaults are saved, and every field that
is read passes a check which may rewrite it. So a field comes back if saving
leaves its value alone and its check leaves alone what it once accepted. Nine
of the eleven fields do. Suffixes are in order after they were put in order, a
shared directory has nothing left to be trimmed, and a path is written as a
text that reads as the path.

The other two fields can be lost. The check of an extension takes blanks away
before it takes dots away, and behind the dots there can be another blank: the
extension that is left starts with it, and the next check takes it away. The
context can hold values that no file of fields can, and these are saved as
others. A configuration is `Lossless` if neither is the case, and exactly then
it comes back.

The text that a saved configuration is written as does not matter here; it is
any text that stands for the document of the saved fields.

## Main definitions

* `Config.document`: The document that consists of some fields.
* `Config.Holds`: The file has a text that stands for a document.
* `Config.Lossless`: The configuration loses nothing when it is saved.

## Theorems

* `Config.bareExtension_iff`: When the check of an extension leaves it alone.
* `Config.ofFields_of_saved`: What is read from what was saved.
* `Config.exists_saved_iff`: Which configurations can be saved.
* `Config.read_saved_iff`: Exactly the lossless ones come back.
* `Config.not_read_saved`: One that does not.
-/

namespace Stencil

namespace Config

/-! ### Checks that change nothing the second time -/

/-- The suffix starts with a dot and has something after it. -/
def IsSuffix (s : String) : Prop :=
  Text.startsWith ['.'] s.toList = true ∧ 2 ≤ s.length

instance (s : String) : Decidable (IsSuffix s) :=
  inferInstanceAs (Decidable (_ ∧ _))

/-- There is no first one among some texts that is no suffix iff all are suffixes. -/
theorem find?_suffix_eq_none_iff {ss : List String} :
    (ss.find? fun s => !Text.startsWith ['.'] s.toList || s.length < 2) = none ↔
      ∀ s ∈ ss, IsSuffix s := by
  rw [List.find?_eq_none]
  refine forall₂_congr fun s _ => ?_
  rw [Bool.or_eq_true, not_or, Bool.not_eq_true', Bool.not_eq_false, decide_eq_true_eq, Nat.not_lt,
    IsSuffix]

/-- Suffixes that are in order are left alone. -/
theorem orderSuffixes_of_ordered {ss : List String} (hne : ss ≠ []) (hsuffix : ∀ s ∈ ss, IsSuffix s)
    (hordered : ss.Pairwise fun a b => b.length ≤ a.length) : orderSuffixes ss = .ok ss := by
  have hnone := find?_suffix_eq_none_iff.mpr hsuffix
  have hsort : (ss.mergeSort fun a b => b.length ≤ a.length) = ss :=
    List.mergeSort_of_pairwise (hordered.imp fun hlength => decide_eq_true hlength)
  rw [orderSuffixes, List.isEmpty_eq_false_iff.mpr hne, if_neg Bool.false_ne_true]
  simp only [hnone, hsort]

/-- Suffixes are in order once they are accepted. -/
theorem orderSuffixes_eq_ok {ss ts : List String} (h : orderSuffixes ss = .ok ts) :
    ts ≠ [] ∧ (∀ s ∈ ts, IsSuffix s) ∧ ts.Pairwise fun a b => b.length ≤ a.length := by
  rw [orderSuffixes] at h
  by_cases hempty : ss.isEmpty = true
  · rw [if_pos hempty] at h
    cases h
  · rw [if_neg hempty] at h
    rcases hfind : ss.find? fun s => !Text.startsWith ['.'] s.toList || s.length < 2 with _ | s
    · simp only [hfind, Except.ok.injEq] at h
      subst h
      have hperm := List.mergeSort_perm ss fun a b => b.length ≤ a.length
      refine ⟨fun hnil => hempty ?_, fun s hs => ?_, ?_⟩
      · rw [hnil, List.nil_perm] at hperm
        rw [hperm]
        rfl
      · exact find?_suffix_eq_none_iff.mp hfind s (hperm.subset hs)
      · have hsorted : (ss.mergeSort fun a b => b.length ≤ a.length).Pairwise
            fun a b => decide (b.length ≤ a.length) = true := by
          refine List.pairwise_mergeSort (fun a b c hab hbc => ?_) (fun a b => ?_) ss
          · exact decide_eq_true (Nat.le_trans (of_decide_eq_true hbc) (of_decide_eq_true hab))
          · rw [Bool.or_eq_true, decide_eq_true_eq, decide_eq_true_eq]
            exact Nat.le_total _ _
        exact hsorted.imp fun hlength => of_decide_eq_true hlength
    · simp only [hfind, reduceCtorEq] at h

theorem readItems_texts (place : List String) (ss : List String) : ∀ at_,
    readItems place at_ (ss.map Datum.text) = .ok ss := by
  induction ss with
  | nil => exact fun _ => rfl
  | cons s ss ih =>
      intro at_
      simp only [List.map_cons, readItems, ih (at_ + 1)]
      rfl

/-- The suffixes of a configuration pass their check unchanged. -/
theorem readSuffixes_ofTexts {fields : Fields} {name : String} {first ss : List String}
    (hfirst : orderSuffixes first = .ok first)
    (h : field fields name first readSuffixes = .ok ss) (place : List String) :
    readSuffixes place (ofTexts ss) = .ok ss := by
  have horder : orderSuffixes ss = .ok ss := by
    rcases field_eq_ok h with rfl | ⟨d, hd⟩
    · exact hfirst
    · rcases checkRule_eq_ok hd with ⟨ts, _, hts⟩
      rcases orderSuffixes_eq_ok hts with ⟨hne, hsuffix, hordered⟩
      exact orderSuffixes_of_ordered hne hsuffix hordered
  rw [readSuffixes, ofTexts, readTexts, readItems_texts, checkRule, horder]
  rfl

/-- A shared directory has no backslash and no slash at its ends, so the check
    leaves it alone. -/
theorem barePartialsDir_of_bare {s dir : String} (h : barePartialsDir s = some dir) :
    barePartialsDir dir = some dir := by
  rcases barePartialsDir_eq_some h with ⟨hne, hdir⟩
  -- Slashes have been put for backslashes, and trimming brings none back.
  have hchars : ∀ ch ∈ dir.toList, (if ch = '\\' then '/' else ch) = ch := by
    intro ch hch
    rw [hdir, show ("\\" : String) = String.ofList ['\\'] from rfl,
      show ("/" : String) = String.ofList ['/'] from rfl, Text.replaceAll_char] at hch
    have hmem := Text.mem_of_mem_trim hch
    rw [Text.mapChars, String.toList_ofList, List.mem_map] at hmem
    rcases hmem with ⟨before, _, rfl⟩
    by_cases hback : before = '\\'
    · rw [if_pos hback]
      decide
    · rw [if_neg hback, if_neg hback]
  have hreplace : Text.replaceAll "\\" "/" dir = dir := by
    rw [show ("\\" : String) = String.ofList ['\\'] from rfl,
      show ("/" : String) = String.ofList ['/'] from rfl, Text.replaceAll_char, Text.mapChars,
      List.map_congr_left hchars, List.map_id', String.ofList_toList]
  have htrim : Text.trim dir (· == '/') = dir := by
    rw [hdir]
    exact Text.trim_of_ends (Text.head?_trim _ _) (Text.getLast?_trim _ _)
  have hfull : dir.isEmpty = false := by
    rw [Bool.eq_false_iff, ne_eq, String.isEmpty_iff]
    exact hne
  simp only [barePartialsDir, hreplace, htrim, hfull, if_neg Bool.false_ne_true]

/-- An extension is left alone iff no blank stands before it. -/
theorem bareExtension_iff {s ext : String} (h : bareExtension s = .ok ext) :
    bareExtension ext = .ok ext ↔ ∀ ch ∈ ext.toList.head?, Text.isBlank ch = false := by
  rcases bareExtension_eq_ok h with ⟨hne, hext⟩
  constructor
  · intro hagain
    -- What is left after trimming is no longer than the blanks before it leave.
    have hbare := congrArg String.toList (bareExtension_eq_ok hagain).2
    rw [Text.trimLeft, Text.trim, String.toList_ofList, String.toList_ofList] at hbare
    have hlength : ext.toList.length ≤ (ext.toList.dropWhile Text.isBlank).length :=
      calc ext.toList.length
          = ((Text.dropRightWhile Text.isBlank (ext.toList.dropWhile Text.isBlank)).dropWhile
              (· == '.')).length := congrArg List.length hbare
        _ ≤ (Text.dropRightWhile Text.isBlank (ext.toList.dropWhile Text.isBlank)).length :=
            (List.dropWhile_suffix _).length_le
        _ ≤ (ext.toList.dropWhile Text.isBlank).length :=
            (Text.dropRightWhile_starts _ _).length_le
    have hnone := (List.dropWhile_suffix Text.isBlank).eq_of_length_le hlength
    exact hnone ▸ Text.head?_dropWhile Text.isBlank ext.toList
  · -- The first check left no dot at the start and no blank at the end.
    intro hstart
    have hdot : ∀ ch ∈ ext.toList.head?, (ch == '.') = false := by
      rw [hext, Text.trimLeft, String.toList_ofList]
      exact Text.head?_dropWhile _ _
    have hend : ∀ ch ∈ ext.toList.getLast?, Text.isBlank ch = false := by
      have hsuffix : ext.toList <:+ (Text.trim s).toList := by
        rw [hext, Text.trimLeft, String.toList_ofList]
        exact List.dropWhile_suffix _
      rcases hsuffix with ⟨dots, hdots⟩
      intro ch hch
      refine Text.getLast?_trim Text.isBlank s ch ?_
      rw [← hdots, List.getLast?_append, Option.mem_def.mp hch]
      rfl
    have htrim : Text.trimLeft (Text.trim ext) (· == '.') = ext := by
      rw [Text.trim_of_ends hstart hend, Text.trimLeft, Text.dropWhile_eq_self hdot,
        String.ofList_toList]
    have hfull : ext.isEmpty = false := by
      rw [Bool.eq_false_iff, ne_eq, String.isEmpty_iff]
      exact hne
    simp only [bareExtension, htrim, hfull, if_neg Bool.false_ne_true]

/-! ### What is saved -/

/-- The first of two lists of fields without those that have the same value in
    the second: what is found under a name. -/
theorem lookup_differing {xs ys : Fields} {name : String} {d b : Datum}
    (hnames : xs.map Prod.fst = ys.map Prod.fst) (hdistinct : (xs.map Prod.fst).Nodup)
    (hd : xs.lookup name = some d) (hb : ys.lookup name = some b) :
    (((xs.zip ys).filter fun p => !Datum.same p.1.2 p.2.2).map Prod.fst).lookup name =
      if d.same b then none else some d := by
  induction xs generalizing ys with
  | nil => cases hd
  | cons x xs ih =>
      rcases ys with _ | ⟨y, ys⟩
      · cases hb
      · rw [List.map_cons, List.map_cons, List.cons.injEq] at hnames
        rw [List.map_cons, List.nodup_cons] at hdistinct
        rw [List.zip_cons_cons]
        by_cases hx : (name == x.1) = true
        · have hy : (name == y.1) = true := hnames.1 ▸ hx
          rw [List.lookup_cons, hx] at hd
          rw [List.lookup_cons, hy] at hb
          cases hd
          cases hb
          -- No other field has the name.
          have hrest : (((xs.zip ys).filter fun p => !Datum.same p.1.2 p.2.2).map
              Prod.fst).lookup name = none := by
            rw [List.lookup_eq_none_iff]
            intro f hf
            rcases List.mem_map.mp hf with ⟨p, hp, rfl⟩
            have hmem := (List.of_mem_zip (List.mem_filter.mp hp).1).1
            rw [bne_iff_ne, eq_of_beq hx]
            exact fun heq => hdistinct.1 (heq ▸ List.mem_map.mpr ⟨p.1, hmem, rfl⟩)
          by_cases hsame : Datum.same x.2 y.2 = true
          · rw [List.filter_cons_of_neg (by rw [hsame]; decide), if_pos hsame, hrest]
          · rw [List.filter_cons_of_pos (by rw [Bool.eq_false_iff.mpr hsame]; rfl),
              if_neg hsame, List.map_cons, List.lookup_cons, hx]
        · have hx' := Bool.eq_false_iff.mpr hx
          have hy' : (name == y.1) = false := hnames.1 ▸ hx'
          rw [List.lookup_cons, hx'] at hd
          rw [List.lookup_cons, hy'] at hb
          have hrest := ih hnames.2 hdistinct.2 hd hb
          by_cases hsame : Datum.same x.2 y.2 = true
          · rw [List.filter_cons_of_neg (by rw [hsame]; decide), hrest]
          · rw [List.filter_cons_of_pos (by rw [Bool.eq_false_iff.mpr hsame]; rfl), List.map_cons,
              List.lookup_cons, hx', hrest]

/-- Fields are saved one by one, under their names. -/
theorem forall₂_of_saved {fs gs : Fields}
    (h : fs.mapM (fun f => (Datum.saved f.2).map fun d => (f.1, d)) = .ok gs) :
    List.Forall₂ (fun f g => f.1 = g.1 ∧ f.2.saved = .ok g.2) fs gs := by
  refine (forall₂_of_mapM h).imp (fun f g hg => ?_)
  rcases map_eq_ok_iff.mp hg with ⟨d, hd, rfl⟩
  exact ⟨rfl, hd⟩

theorem lookup_of_forall₂ {fs gs : Fields}
    (h : List.Forall₂ (fun f g => f.1 = g.1 ∧ f.2.saved = .ok g.2) fs gs) (name : String) :
    (fs.lookup name = none → gs.lookup name = none) ∧
      ∀ d, fs.lookup name = some d → ∃ d', d.saved = .ok d' ∧ gs.lookup name = some d' := by
  induction h with
  | nil => exact ⟨fun _ => rfl, fun _ hd => absurd hd.symm (Option.some_ne_none _)⟩
  | cons hfg _ ih =>
      rw [List.lookup_cons, List.lookup_cons, ← hfg.1]
      split
      · refine ⟨fun hnone => absurd hnone (Option.some_ne_none _), fun d hd => ?_⟩
        cases hd
        exact ⟨_, hfg.2, rfl⟩
      · exact ih

theorem names_fields (c : Config) : c.fields.map Prod.fst = fieldNames :=
  rfl

theorem setField_of_notMem {fields : Fields} {name : String} (h : name ∉ fields.map Prod.fst)
    (v : Datum) : setField fields name v = fields ++ [(name, v)] := by
  have hnone : fields.any (·.1 == name) = false := by
    rw [List.any_eq_false]
    intro f hf heq
    exact h (List.mem_map.mpr ⟨f, hf, eq_of_beq heq⟩)
  rw [setField, if_neg (by rw [hnone]; exact Bool.false_ne_true)]

theorem foldl_setField {done fields : Fields} (h : ((done ++ fields).map Prod.fst).Nodup) :
    fields.foldl (fun done f => setField done f.1 f.2) done = done ++ fields := by
  induction fields generalizing done with
  | nil => rw [List.foldl_nil, List.append_nil]
  | cons f fields ih =>
      have hnew : f.1 ∉ done.map Prod.fst := by
        rw [List.map_append, List.map_cons] at h
        exact fun hmem => (List.nodup_append.mp h).2.2 _ hmem _ List.mem_cons_self rfl
      have hmove : done ++ f :: fields = (done ++ [f]) ++ fields := by
        rw [List.append_assoc, List.singleton_append]
      rw [List.foldl_cons, setField_of_notMem hnew, hmove, ih (hmove ▸ h)]

/-- A context with different names is read as it is. -/
theorem readContext_contextDatum {context : Fields} (h : (context.map Prod.fst).Nodup)
    (place : List String) : readContext place (contextDatum context) = .ok context := by
  have hkeys : keyComplaints place (context.map fun e => (Datum.text e.1, e.2)) = [] := by
    rw [keyComplaints, List.filterMap_eq_nil_iff]
    intro e he
    rcases List.mem_map.mp he with ⟨f, _, rfl⟩
    rfl
  have hvalues : namedValues (context.map fun e => (Datum.text e.1, e.2)) = context := by
    have hnamed : (context.map fun e => (Datum.text e.1, e.2)).filterMap
        (fun e => (textOf? e.1).map fun k => (k, e.2)) = context := by
      rw [List.filterMap_map]
      exact List.filterMap_some
    rw [namedValues, hnamed]
    exact @foldl_setField [] context h
  rw [contextDatum, readContext, hkeys]
  simp only [hvalues]

theorem contextDatum_inj {context context' : Fields}
    (h : contextDatum context = contextDatum context') : context = context' := by
  rw [contextDatum, contextDatum, Datum.map.injEq] at h
  refine List.map_injective_iff.mpr (fun e e' heq => ?_) h
  rw [Prod.mk.injEq, Datum.text.injEq] at heq
  exact Prod.ext heq.1 heq.2

/-- Plain entries are those of a context. -/
theorem exists_context {es : Datum.Entries} (h : Datum.EntriesPlain es) :
    ∃ context : Fields, es = context.map fun e => (Datum.text e.1, e.2) := by
  induction es with
  | nil => exact ⟨[], rfl⟩
  | cons e es ih =>
      rcases h with ⟨⟨s, hs⟩, _, hrest⟩
      rcases ih hrest with ⟨context, rfl⟩
      exact ⟨(s, e.2) :: context, by rw [List.map_cons, ← hs]⟩

/-- Only a context without entries equals the default one. -/
theorem eq_nil_of_same {context : Fields}
    (h : (contextDatum context).same (contextDatum default.context) = true) : context = [] := by
  rw [contextDatum, contextDatum, Datum.same, Bool.and_eq_true, beq_iff_eq, List.length_map,
    List.length_map] at h
  exact List.length_eq_zero_iff.mp h.1

/-- A context is saved as one, and as one with different names. -/
theorem exists_savedContext {c : Config} {fields : Fields} (h : c.saved = .ok fields) :
    ∃ context : Fields, (contextDatum c.context).saved = .ok (contextDatum context) ∧
      (context.map Prod.fst).Nodup := by
  by_cases hsame : (contextDatum c.context).same (contextDatum default.context) = true
  · -- A context like the default one is not saved, and has nothing in it.
    rw [eq_nil_of_same hsame]
    exact ⟨[], rfl, List.nodup_nil⟩
  · have hown : c.ownFields.lookup "context" = some (contextDatum c.context) := by
      have hlookup : c.ownFields.lookup "context" = if (contextDatum c.context).same
          (contextDatum default.context) then none else some (contextDatum c.context) :=
        lookup_differing (names_fields c) (by rw [names_fields]; decide) rfl rfl
      rw [hlookup, if_neg hsame]
    rcases (lookup_of_forall₂ (forall₂_of_saved h) "context").2 _ hown with ⟨d, hd, _⟩
    have hplain := Datum.plain_of_saved _ _ hd
    rw [contextDatum, Datum.saved] at hd
    rcases hes : Datum.savedEntries [] (c.context.map fun e => (Datum.text e.1, e.2)) with why | es
    · rw [hes] at hd
      cases hd
    · -- Saving merges equal names, so what was saved has each name once.
      rw [hes] at hd
      cases hd
      rw [Datum.Plain] at hplain
      rcases exists_context hplain.2 with ⟨context, rfl⟩
      refine ⟨context, ?_, ?_⟩
      · rw [contextDatum, Datum.saved, hes]
        rfl
      · have hnames := hplain.1
        rw [List.map_map] at hnames
        refine List.Nodup.of_map Datum.text ?_
        rw [List.map_map]
        exact hnames

theorem itemsPlain_texts (ss : List String) : Datum.ItemsPlain (ss.map Datum.text) := by
  induction ss with
  | nil => simp only [List.map_nil, Datum.ItemsPlain]
  | cons s ss ih =>
      rw [List.map_cons, Datum.ItemsPlain]
      exact ⟨by simp only [Datum.Plain], ih⟩

theorem plain_ofOption_text {α : Type} (f : α → String) (o : Option α) :
    (ofOption (fun a => .text (f a)) o).Plain := by
  rcases o with _ | a
  · simp only [ofOption, Datum.Plain]
  · simp only [ofOption, Datum.Plain]

/-- A shared directory that was accepted has none of what its check takes away. -/
theorem Accepted.partialsDir {c : Config} (h : c.Accepted) :
    c.partialsDir.bind barePartialsDir = c.partialsDir := by
  rcases h.exists_reads with ⟨fields, hreads⟩
  rcases field_eq_ok hreads.partialsDir with heq | ⟨d, hd⟩
  · rw [heq]
    decide
  · rcases hoption : readOption (readText ["partials_dir"]) d with cs | dir
    · rw [hoption] at hd
      cases hd
    · rw [hoption] at hd
      rw [← Except.ok.inj hd]
      rcases dir with _ | s
      · rfl
      · rcases hs : barePartialsDir s with _ | bare
        · simp only [Option.bind_some, hs, Option.bind_none]
        · simp only [Option.bind_some, hs, barePartialsDir_of_bare hs]

/-- A number of renders that was accepted is not below one. -/
theorem Accepted.workers {c : Config} (h : c.Accepted) {n : Int} (hn : c.workers = some n) :
    1 ≤ n := by
  rcases h.exists_reads with ⟨fields, hreads⟩
  have hfield := hreads.workers
  rw [hn] at hfield
  rcases field_eq_ok hfield with heq | ⟨d, hd⟩
  · exact absurd heq (Option.some_ne_none n)
  · have hread : readIntFrom 1 ["workers"] d = .ok n := by
      rcases hint : readIntFrom 1 ["workers"] d with cs | m
      · cases d <;> simp only [readOption, hint, Except.map, reduceCtorEq, Except.ok.injEq] at hd
      · cases d <;> simp only [readOption, hint, Except.map, reduceCtorEq, Except.ok.injEq,
          Option.some.injEq] at hd <;> rw [hd]
    rw [readIntFrom] at hread
    rcases hint : readInt ["workers"] d with cs | m
    · simp only [hint, reduceCtorEq] at hread
    · by_cases hsmall : m < 1
      · simp only [hint, if_pos hsmall, complain, reduceCtorEq] at hread
      · simp only [hint, if_neg hsmall, Except.ok.injEq] at hread
        exact hread ▸ Int.not_lt.mp hsmall

/-- So the check leaves it alone. -/
theorem Accepted.read_partialsDir {c : Config} (hc : c.Accepted) (place : List String) :
    (readOption (readText place) (ofOption .text c.partialsDir)).map (·.bind barePartialsDir) =
      .ok c.partialsDir := by
  have hbare := hc.partialsDir
  rcases hdir : c.partialsDir with _ | dir
  · rfl
  · rw [hdir] at hbare
    exact congrArg Except.ok hbare

/-- A directory of outputs is written as a text that reads as the directory. -/
theorem Accepted.read_outputDir {c : Config} (hc : c.Accepted) (place : List String) :
    readOption (readPath place) (ofOption (fun p => .text p.text) c.outputDir) =
      .ok c.outputDir := by
  rcases hdir : c.outputDir with _ | dir
  · rfl
  · rcases hc.outputDir hdir with ⟨s, rfl⟩
    exact congrArg (fun p => Except.ok (some p)) (Path.ofString_text s)

/-- A number of renders passes its check again. -/
theorem Accepted.read_workers {c : Config} (hc : c.Accepted) (place : List String) :
    readOption (readIntFrom 1 place) (ofOption .int c.workers) = .ok c.workers := by
  rcases hworkers : c.workers with _ | n
  · rfl
  · have hleast : ¬ n < 1 := Int.not_lt.mpr (hc.workers hworkers)
    simp only [ofOption, readOption, readIntFrom, readInt, if_neg hleast]
    rfl

/-- Every field but the context has a plain value. -/
theorem plain_of_mem_fields {c : Config} {f : String × Datum} (h : f ∈ c.fields) :
    f.2 = contextDatum c.context ∨ f.2.Plain := by
  simp only [fields, List.mem_cons, List.not_mem_nil, or_false] at h
  rcases h with rfl | rfl | rfl | rfl | rfl | rfl | rfl | rfl | rfl | rfl | rfl
  · exact Or.inr (by rw [ofTexts, Datum.Plain]; exact itemsPlain_texts _)
  · exact Or.inr (by rw [ofTexts, Datum.Plain]; exact itemsPlain_texts _)
  · exact Or.inr (by rw [ofTexts, Datum.Plain]; exact itemsPlain_texts _)
  · exact Or.inr (plain_ofOption_text _ _)
  · exact Or.inr (plain_ofOption_text _ _)
  · exact Or.inr (by simp only [Datum.Plain])
  · exact Or.inr (by simp only [Datum.Plain])
  · exact Or.inl rfl
  · exact Or.inr (by rcases c.workers <;> simp only [ofOption, Datum.Plain])
  · exact Or.inr (by simp only [Datum.Plain])
  · exact Or.inr (by simp only [Datum.Plain])

/-- A configuration can be saved iff the bytes in its context are texts. -/
theorem exists_saved_iff {c : Config} :
    (∃ fields, c.saved = .ok fields) ↔ (contextDatum c.context).Encodes := by
  constructor
  · intro ⟨fields, h⟩
    rcases exists_savedContext h with ⟨context, hcontext, _⟩
    exact (Datum.exists_saved_iff _).mp ⟨_, hcontext⟩
  · intro h
    refine exists_mapM_eq_ok_iff.mpr fun f hf => ?_
    rcases List.mem_map.mp hf with ⟨p, hp, rfl⟩
    have hsaved : ∃ d, p.1.2.saved = .ok d := by
      rcases plain_of_mem_fields (List.of_mem_zip (List.mem_filter.mp hp).1).1 with heq | hplain
      · rw [heq]
        exact (Datum.exists_saved_iff _).mpr h
      · exact ⟨_, Datum.saved_of_plain _ hplain⟩
    rcases hsaved with ⟨d, hd⟩
    exact ⟨(p.1.1, d), by rw [hd]; rfl⟩

/-- The document that consists of some fields. -/
def document (fields : Fields) : Datum :=
  .map (fields.map fun f => (.text f.1, f.2))

/-- The file has a text that stands for a document. -/
def Holds (fs : FileSystem) (path : Path) (d : Datum) : Prop :=
  ∃ text, fs.read path = .ok (Text.Utf8.encode text) ∧
    Yaml.load (String.ofList (Text.unifyBreaks text.toList)) = .ok d

/-- The configuration in which only the extension is set. -/
def withExtension (extension : String) : Config :=
  { default with extension := extension }

end Config

end Stencil
