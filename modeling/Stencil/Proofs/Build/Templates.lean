import Stencil.Proofs.Build.Single
import Stencil.Proofs.Output.Later

/-!
# What Becomes of Templates

A build writes over a template only if an output has the name of its file.

Outputs are written under paths of their own, and nothing keeps such a path
from leading to a template: neither the suffixes nor the extension are checked
against each other. What a write puts in place has the name of its path,
though. So a template is safe as long as no output has the name of the file
that it is read from, wherever the file stands and whatever links lead there.
If moreover no output has a name by which files are taken for templates, no
template that is a file of its own is at risk.

## Theorems

* `Config.Accepted.spelled_outputPath`: Paths of outputs are spelled.
* `FileSystem.head?_of_destination?`: An output that takes the place of a file
  has its name.
* `find?_build_or_puts`: A file is kept unless an output is put there.
* `Graph.Puts.head?`: Then the file has the name of an output.
* `build_keeps_templates`: Which templates a build keeps.
-/

namespace Stencil

/-- Where outputs stand is spelled, if that is true of the root. -/
theorem Config.Accepted.spelled_outputPath {config : Config} (h : config.Accepted) {root : Path}
    (hroot : root.Spelled) (s : Source) : (s.outputPath root config).Spelled := by
  have houtput : (config.outputRoot root).Spelled := by
    rw [Config.outputRoot]
    rcases hdir : config.outputDir with _ | dir
    · exact hroot
    · rcases h.outputDir hdir with ⟨text, rfl⟩
      exact hroot.join text
  rw [Source.outputPath]
  exact houtput.child _

namespace FileSystem

variable {fs : FileSystem}

/-- What takes the place of a file has the name of its path. -/
theorem head?_of_destination? {p : Path} (hp : p.Spelled) {loc : Location}
    (hfile : fs.IsFileAt loc) (h : fs.destination? p = some loc) : loc.head? = some p.name := by
  rcases hfile with ⟨data, mode, hfind⟩
  rw [destination?] at h
  rcases hfound : (fs.makeDirectories p.parent).1.locate p.text false with c | found
  · simp only [hfound, reduceCtorEq] at h
  · simp only [hfound, Option.some.injEq] at h
    -- The file is still there once directories have been made.
    have hstill := (grows_makeDirectories fs p.parent).find?_eq_some hfind
    rw [← h] at hstill ⊢
    refine head?_of_locate hp hfound ?_
    rw [hstill]
    simp only [ne_eq, Option.some.injEq, reduceCtorEq, not_false_eq_true]

end FileSystem

/-- A build keeps a file, unless an output is put there. -/
theorem find?_build_or_puts {fs : FileSystem} {root : Path} {config : Config}
    {loc : Location} {data : ByteArray} {mode : Nat}
    (hfile : fs.find? loc = some (.file data mode)) :
    (build fs root (some config)).files.find? loc = some (.file data mode) ∨
      ∃ g bytes, (loadGraph fs root config).2 = .ok g ∧ g.Puts config fs loc bytes := by
  rcases build_cases fs root (some config) with ⟨hfiles, _⟩ | ⟨config', g, hsome, hg, hfiles, _⟩
  · rw [hfiles]
    exact Or.inl hfile
  · obtain rfl : config = config' := Except.ok.inj hsome
    rcases g.exists_written_buildGraph fs config with ⟨done, later, hdone, hwritten⟩
    rw [hfiles, hwritten]
    -- A file is there in the end, and it is the one that was there or an output.
    rcases fs.isFileAt_written config.header ⟨data, mode, hfile⟩ done with ⟨data', mode', hend⟩
    rcases fs.find?_written config.header done hend with hbefore | ⟨earlier, output, more, hsplit,
      hdestination, hbytes⟩
    · rw [hend, ← hbefore]
      exact Or.inl hfile
    · have houtputs : g.outputs config = earlier ++ output :: (more ++ later) := by
        rw [hdone, hsplit, List.append_assoc, List.cons_append]
      have hmem : output ∈ g.outputs config := by
        rw [houtputs]
        exact List.mem_append_right _ List.mem_cons_self
      rcases loadGraph_eq_ok_iff.mp hg with ⟨_, c, _, hgraph⟩
      have hcycle := (Graph.build_eq_ok_iff.mp hgraph).2.2
      rcases Graph.mem_outputs hcycle hmem with ⟨query, hrenders, hpath⟩
      exact Or.inr ⟨g, data', hg, query, output, earlier, more ++ later, hrenders, hpath,
        houtputs, hdestination, hbytes⟩

/-- Where an output is put in place of a file, the file has its name. -/
theorem Graph.Puts.head? {fs : FileSystem} {g : Graph} {config : Config} {loc : Location}
    {bytes : ByteArray} (h : g.Puts config fs loc bytes) (hconfig : config.Accepted)
    (hroot : g.catalog.root.Spelled) (hfile : fs.IsFileAt loc) :
    ∃ q ∈ g.queries, loc.head? = some (q.outputPath g.catalog.root config).name := by
  rcases h with ⟨query, output, earlier, _, ⟨hquery, _⟩, hpath, _, hdestination, _⟩
  have hthere := fs.isFileAt_written config.header hfile earlier
  rw [hpath] at hdestination
  exact ⟨query, hquery,
    FileSystem.head?_of_destination? (hconfig.spelled_outputPath hroot query) hthere hdestination⟩

theorem spelled_answer : answer.file.Spelled := by
  refine ⟨Or.inl rfl, fun part hpart => ?_⟩
  rw [List.mem_singleton.mp hpart]
  exact ⟨by decide, by decide, by decide⟩

/-- Which templates a build keeps. Every template of the catalog is read from a
    file. A build keeps the content of that file and its permission bits, unless
    an output is put there, and then the file has the name of the output of a
    query. If no output has a name that is taken for that of a template, then no
    output has the path of a template, and a template is kept unless its path
    ends at a link. -/
theorem build_keeps_templates {fs : FileSystem} (hfs : fs.Proper) {root : Path} {config : Config}
    (hconfig : config.Accepted) {notes : Catalog.Notes} {c : Catalog}
    (hc : Catalog.build fs root config = (notes, .ok c)) {s : Source} (hs : s ∈ c.sources) :
    ∃ loc data mode, fs.status s.file = .ok (loc, .file data mode) ∧
      Text.Utf8.decode data = .ok s.content ∧
      ((build fs root (some config)).files.find? loc = some (.file data mode) ∨
        (∃ g bytes, (loadGraph fs root config).2 = .ok g ∧ g.Puts config fs loc bytes) ∧
          ∃ q ∈ c.queries, loc.head? = some (q.outputPath c.root config).name) ∧
      ((∀ q ∈ c.queries, classify (q.outputPath c.root config).name config = none) →
        (∀ q ∈ c.queries, q.outputPath c.root config ≠ s.file) ∧
          (fs.locate s.file.text false = .ok ⟨loc, some (.file data mode)⟩ →
            (build fs root (some config)).files.find? loc = some (.file data mode))) := by
  rcases Catalog.read_of_build hc hs with ⟨hclass, data, hread, hdecode⟩
  rcases FileSystem.read_eq_ok_iff.mp hread with ⟨loc, mode, hstatus⟩
  have hspelled := Catalog.spelled_of_build hfs hc
  have hfile : fs.find? loc = some (.file data mode) :=
    (FileSystem.entry_of_locate (FileSystem.status_eq_ok_iff.mp hstatus)).symm
  have hkept : (build fs root (some config)).files.find? loc = some (.file data mode) ∨
      (∃ g bytes, (loadGraph fs root config).2 = .ok g ∧ g.Puts config fs loc bytes) ∧
        ∃ q ∈ c.queries, loc.head? = some (q.outputPath c.root config).name := by
    rcases find?_build_or_puts hfile with hkept | ⟨g, bytes, hg, hputs⟩
    · exact Or.inl hkept
    · obtain rfl : g.catalog = c := by
        rcases loadGraph_eq_ok_iff.mp hg with ⟨_, c', hc', hgraph⟩
        rw [(Graph.build_eq_ok_iff.mp hgraph).2.1]
        exact (Except.ok.inj (congrArg Prod.snd (hc.symm.trans hc'))).symm
      exact Or.inr ⟨⟨g, bytes, hg, hputs⟩, hputs.head? hconfig hspelled.1 ⟨data, mode, hfile⟩⟩
  refine ⟨loc, data, mode, hstatus, hdecode, hkept,
    fun hnone => ⟨fun q hq heq => ?_, fun hown => ?_⟩⟩
  · -- The template has a name of a template, which no output has.
    have hq' := hnone q hq
    rw [heq, hclass] at hq'
    exact absurd hq' (Option.some_ne_none _)
  · rcases hkept with hkept | ⟨_, q, hq, hhead⟩
    · exact hkept
    · have hend : loc.head? = some s.file.name := by
        refine FileSystem.head?_of_locate (hspelled.2 s hs) hown ?_
        simp only [hfile, ne_eq, Option.some.injEq, reduceCtorEq, not_false_eq_true]
      have hq' := hnone q hq
      rw [← Option.some.inj (hend.symm.trans hhead), hclass] at hq'
      exact absurd hq' (Option.some_ne_none _)

/-- If outputs are named otherwise a build keeps its query. -/
theorem build_keeps_templates_oneQuery :
    (build oneQuery ⟨"/", []⟩ (some (extensionConfig "sql"))).files.find? ["answer.sql.tmpl"] =
      some (.file (Text.Utf8.encode "select 42") 0o644) := by
  have hnone : ∀ q ∈ Catalog.queries ⟨⟨"/", []⟩, [answer]⟩,
      classify (q.outputPath ⟨"/", []⟩ (extensionConfig "sql")).name (extensionConfig "sql") =
        none := by
    intro q hq
    rw [isSingle_oneQuery.queries, List.mem_singleton] at hq
    rw [hq]
    decide
  rcases build_keeps_templates (by decide) accepted_extensionConfig.1 (catalog_oneQuery "sql")
    List.mem_cons_self with ⟨loc, data, mode, hstatus, _, _, hkeeps⟩
  rcases (FileSystem.status_eq_ok_iff_of_linkFree linkFree_oneQuery spelled_answer).mp hstatus with
    ⟨hfits, hparent, hloc, hfind⟩
  have hkept := (hkeeps hnone).2 ((FileSystem.locate_eq_ok_iff_of_linkFree linkFree_oneQuery
    spelled_answer).mpr ⟨hfits, hparent, by rw [hloc, hfind]⟩)
  rw [hloc, ← hfind] at hkept
  exact hkept

theorem fits_answer : answer.file.Fits := by
  refine ⟨⟨by decide, by decide⟩, by decide, fun part hpart => ?_⟩
  rw [List.mem_singleton.mp hpart]
  decide

/-- The query can be written over. -/
theorem write_oneQuery (header body : String) : ∃ mode,
    (oneQuery.write header answer.file body).1.find? ["answer.sql.tmpl"] =
      some (.file (outputBytes header body) mode) := by
  have hstamp : (answer.file.parent.withoutDots.stamped answer.file.name 0).Fits := by
    rw [show answer.file.parent.withoutDots.stamped answer.file.name 0 =
      ⟨"/", [".answer.sql.tmpl.00000000.tmp"]⟩ by decide]
    refine ⟨⟨by decide, by decide⟩, by decide, fun part hpart => ?_⟩
    rw [List.mem_singleton.mp hpart]
    decide
  have hreach : oneQuery.Reaches answer.file.parent := oneQuery.find?_nil
  have hdir : ¬ oneQuery.IsDirectoryAt answer.file.place := by
    intro hdir
    exact absurd (Option.some.inj hdir) (by simp only [reduceCtorEq, not_false_eq_true])
  rcases FileSystem.createBeside_eq_ok linkFree_oneQuery spelled_answer fits_answer.nullFree
    hreach (Nat.zero_le _) (by rfl) (fun i hi => (Nat.le_zero.mp hi).symm ▸ hstamp) with
    ⟨made, hmade⟩
  rcases FileSystem.replace_eq_ok linkFree_oneQuery spelled_answer fits_answer hreach hdir
    hmade (outputBytes header body) with ⟨done, hdone⟩
  rcases FileSystem.write_of_replace linkFree_oneQuery spelled_answer hdone with ⟨status, hstatus⟩
  have hlinks := (FileSystem.steps_write oneQuery header answer.file body).linkFree
    linkFree_oneQuery
  exact ((FileSystem.holds_eq_ok_true_iff hlinks spelled_answer).mp
    (FileSystem.holds_of_write linkFree_oneQuery spelled_answer hstatus)).2.2

theorem outputPath_oneQuery :
    answer.outputPath ⟨"/", []⟩ (extensionConfig "sql.tmpl") = answer.file := by
  decide

/-- A build writes over its own query if the output has the name of the
    query. -/
theorem build_overwrites_query : (extensionConfig "sql.tmpl").Accepted ∧
    Catalog.build oneQuery ⟨"/", []⟩ (extensionConfig "sql.tmpl") =
      ([], .ok ⟨⟨"/", []⟩, [answer]⟩) ∧
    answer.outputPath ⟨"/", []⟩ (extensionConfig "sql.tmpl") = answer.file ∧
    oneQuery.find? ["answer.sql.tmpl"] =
      some (.file (Text.Utf8.encode answer.content) 0o644) ∧
    ∃ text mode, text ≠ answer.content ∧
      (build oneQuery ⟨"/", []⟩ (some (extensionConfig "sql.tmpl"))).files.find?
        ["answer.sql.tmpl"] = some (.file (Text.Utf8.encode text) mode) := by
  have hfiles := (build_of_isSingle isSingle_oneQuery (catalog_oneQuery "sql.tmpl")
    (render_oneQuery "sql.tmpl")).1
  rw [outputPath_oneQuery] at hfiles
  rcases write_oneQuery (extensionConfig "sql.tmpl").header "select 42" with ⟨mode, hwrite⟩
  rw [← hfiles] at hwrite
  exact ⟨accepted_extensionConfig.2, catalog_oneQuery _, outputPath_oneQuery, rfl, _, mode,
    by decide, hwrite⟩

end Stencil
