import Stencil.Proofs.Build.Report
import Stencil.Proofs.Catalog.Flat
import Stencil.Proofs.Output.Again
import Stencil.Proofs.Output.Apart

/-!
# Outputs That Have Succeeded

What a report says has succeeded is on disk, unless two outputs are one file.

An output that was written, or that was found unchanged, has its content at that
moment. Other outputs are written after it, so the question is whether one of
them stands at the same place. If nothing is a link and the extension has no
slash in it then different outputs have different places, and what succeeded
reads back at the end.

Otherwise that is not so. Conflicts of outputs are found by comparing paths, and
a path through a link is another path for the same file.

## Main definitions

* `mirrored`: A tree where an output is a link to another one.
* `bareConfig`: A configuration without a header.

## Theorems

* `FileSystem.read_written`: What was written is read back.
* `build_succeeded`: What succeeded is read back.
* `FileSystem.write_root`: A file at the root is updated, whatever else there is.
* `outputs_mirrored`: What the two queries come to.
* `build_succeeded_stale`: Through a link that may be something else.
-/

namespace Stencil

namespace FileSystem

/-- Outputs that could be written, at different places, are read back after all
    of them. -/
theorem read_written {header : String} (outputs : List (Path × String)) : ∀ {fs : FileSystem},
    fs.LinkFree → (∀ output ∈ outputs, output.1.Spelled) →
      outputs.Pairwise (fun a b => a.1.place ≠ b.1.place) →
      ∀ {p status}, (p, .ok status) ∈ fs.attempts header outputs →
        ∃ body, (p, body) ∈ outputs ∧
          (fs.written header outputs).read p = .ok (outputBytes header body) := by
  induction outputs with
  | nil => intro fs _ _ _ p status hmem; exact absurd hmem List.not_mem_nil
  | cons output rest ih =>
      intro fs hlinks hspelled hplaces p status hmem
      have hp := hspelled output List.mem_cons_self
      have hrest : ∀ o ∈ rest, o.1.Spelled := fun o ho => hspelled o (List.mem_cons_of_mem _ ho)
      have hlinks' := (steps_write fs header output.1 output.2).linkFree hlinks
      rcases List.mem_cons.mp hmem with heq | hmem
      · rcases Prod.mk.inj heq with ⟨rfl, hstatus⟩
        have hholds := holds_of_write hlinks hp hstatus.symm
        rcases (holds_eq_ok_true_iff hlinks' hp).mp hholds with ⟨hfits, hparent, mode, hfind⟩
        -- The later outputs stand elsewhere.
        have hne : ∀ o ∈ rest, o.1.place ≠ output.1.place :=
          fun o ho => ((List.pairwise_cons.mp hplaces).1 o ho).symm
        refine ⟨output.2, List.mem_cons_self, ?_⟩
        refine (read_eq_ok_iff_of_linkFree (linkFree_written hlinks' header rest) hp).mpr
          ⟨hfits, (stays_written _ header rest).reaches hparent, mode, ?_⟩
        exact (find?_written_of_ne hlinks' hrest hne).mpr hfind
      · rcases ih hlinks' hrest (List.pairwise_cons.mp hplaces).2 hmem with ⟨body, hbody, hread⟩
        exact ⟨body, List.mem_cons_of_mem _ hbody, hread⟩

/-- What a summary does not list as an error could be written. -/
theorem exists_ok_of_mem {fs done : FileSystem} {header : String}
    {outputs : List (Path × String)} {w : WriteSummary}
    (h : fs.writeAll header outputs = (done, .ok w)) {p : Path}
    (hp : p ∈ w.created ++ w.updated ++ w.unchanged) :
    ∃ status, (p, .ok status) ∈ fs.attempts header outputs := by
  rcases writeFrom_eq_ok_iff.mp h with ⟨_, _, rfl⟩
  rw [WriteSummary.foldl_note, List.mem_append, List.mem_append] at hp
  rcases hp with (hp | hp) | hp
  · exact ⟨.created, Attempt.mem_filterMap_pathIf.mp hp⟩
  · exact ⟨.updated, Attempt.mem_filterMap_pathIf.mp hp⟩
  · exact ⟨.unchanged, Attempt.mem_filterMap_pathIf.mp hp⟩

end FileSystem

/-- What a report says has succeeded reads back, at the end, as the content of
    the output, if nothing in the tree is a link and the extension has no slash
    in it. -/
theorem build_succeeded {fs : FileSystem} (hfs : fs.Proper) (hlinks : fs.LinkFree) {root : Path}
    {c : Option Config} (hc : ∀ config, c = some config → config.Accepted) {r : BuildReport}
    (h : (build fs root c).report = .ok r) :
    ∃ config, c.elim (Config.load fs root none) .ok = .ok config ∧
      ('/' ∉ config.extension.toList → ∀ p ∈ r.succeeded, ∃ d ∈ r.results, d.output = p ∧
        (build fs root c).files.read p = .ok (outputBytes config.header d.text)) := by
  rcases exists_graph_of_build h with ⟨config, notes, catalog, g, hconfig, hcatalog, hgraph, hbuild⟩
  have haccepted := Config.accepted_of_elim hc hconfig
  obtain rfl : g.catalog = catalog := by
    rw [(Graph.build_eq_ok_iff.mp hgraph).2.1]
    rfl
  have hregular := Catalog.regular_of_build hfs hcatalog
  have hroot := (Catalog.spelled_of_build hfs hcatalog).1
  refine ⟨config, hconfig, fun hslash p hp => ?_⟩
  have hlisted := (BuildReport.accounts_of_buildGraph haccepted hregular hroot
    hbuild).three.mem_iff.mp hp
  rcases buildGraph_eq_ok_iff.mp hbuild with ⟨hconflict, w, hwrites, hr⟩
  rw [show r.writes = w by rw [hr]] at hlisted
  rcases FileSystem.exists_ok_of_mem hwrites hlisted with ⟨status, hmem⟩
  rcases FileSystem.read_written (g.outputs config) hlinks
    (Graph.spelled_of_mem_outputs haccepted hregular.ascending hroot)
    (Graph.pairwise_place_outputs haccepted hregular hslash hconflict) hmem with
    ⟨body, hbody, hread⟩
  rcases List.mem_map.mp hbody with ⟨d, hd, heq⟩
  rcases Prod.mk.inj heq with ⟨houtput, htext⟩
  refine ⟨d, ?_, houtput, ?_⟩
  · rw [hr]
    exact hd
  · rw [files_of_buildGraph hbuild, hread, htext]

theorem build_succeeded_oneQuery :
    ∃ r, (build oneQuery ⟨"/", []⟩ (some (extensionConfig "sql"))).report = .ok r ∧
      ∀ p ∈ r.succeeded, ∃ d ∈ r.results, d.output = p ∧
        (build oneQuery ⟨"/", []⟩ (some (extensionConfig "sql"))).files.read p =
          .ok (outputBytes (extensionConfig "sql").header d.text) := by
  rcases exists_report_oneQuery with ⟨r, hr⟩
  rcases build_succeeded (by decide) linkFree_oneQuery
    (fun config hconfig => Option.some.inj hconfig ▸ accepted_extensionConfig.1) hr with
    ⟨config, hconfig, hread⟩
  obtain rfl : extensionConfig "sql" = config := Except.ok.inj hconfig
  exact ⟨r, hr, hread (by decide)⟩

namespace FileSystem

section Root

variable {fs : FileSystem} {n : String} {data : ByteArray} {mode : Nat}

theorem size_of_stamp (hsize : (Stamp.name n 0).utf8ByteSize ≤ 255) : n.utf8ByteSize ≤ 255 := by
  rw [Stamp.utf8ByteSize_name n (by decide)] at hsize
  omega

/-- A file at the root can be replaced, if the first stamp is free. -/
theorem replace_root (hn : IsName n) (hsize : (Stamp.name n 0).utf8ByteSize ≤ 255)
    (hfind : fs.find? [n] = some (.file data mode)) (hfree : fs.find? [Stamp.name n 0] = none)
    (bytes : ByteArray) : ∃ done, fs.replace ⟨"/", [n]⟩ bytes = (done, .ok ()) ∧
      Places fs done [n] bytes := by
  have hshort := size_of_stamp hsize
  have hparent : Path.parent ⟨"/", [n]⟩ = ⟨"/", []⟩ := rfl
  have hmode : fs.modeFor ⟨"/", [n]⟩ = .ok (permissionBits mode) := by
    rw [modeFor, exists?, test]
    simp only [status_file_root hn hshort hfind, bitsOf]
  have hfound : fs.locate (Path.text ⟨"/", [n]⟩) false = .ok ⟨[n], fs.find? [n]⟩ :=
    locate_root hn hshort (leads_file_root hn hshort hfind)
  have hdir : ¬ fs.IsDirectoryAt [n] := by
    rw [IsDirectoryAt, hfind]
    simp only [Option.some.injEq, reduceCtorEq, not_false_eq_true]
  rcases @createBeside_root fs ⟨"/", [n]⟩ hn hsize rfl hfree with ⟨made, hmade⟩
  rcases replaceIn_eq_ok_of_locate hmode hmade hfound hdir bytes with ⟨done, hdone⟩
  refine ⟨done, ?_, ?_⟩
  · rw [replace, hparent, makeDirectories_root]
    exact hdone
  · rcases places_of_replaceIn hdone with ⟨found, hfound', hplaces⟩
    rw [hfound, Except.ok.injEq] at hfound'
    rwa [← hfound'] at hplaces

/-- So it is updated if its content is another one. -/
theorem write_root (hn : IsName n) (hsize : (Stamp.name n 0).utf8ByteSize ≤ 255)
    (hfind : fs.find? [n] = some (.file data mode)) (hfree : fs.find? [Stamp.name n 0] = none)
    {header body : String} (hne : data ≠ outputBytes header body) :
    ∃ done, fs.write header ⟨"/", [n]⟩ body = (done, .ok .updated) ∧
      Places fs done [n] (outputBytes header body) := by
  rcases replace_root hn hsize hfind hfree (outputBytes header body) with ⟨done, hdone, hplaces⟩
  have hexists : fs.exists? ⟨"/", [n]⟩ = .ok true := by
    rw [exists?, test, status_file_root hn (size_of_stamp hsize) hfind]
  have hholds : fs.holds ⟨"/", [n]⟩ (outputBytes header body) = .ok false := by
    rw [holds, read_root hn (size_of_stamp hsize) hfind, Except.map, Except.ok.injEq,
      Bool.eq_false_iff, ne_eq, beq_bytes_iff]
    exact hne
  refine ⟨done, ?_, hplaces⟩
  rw [write, writeData, ← outputBytes, hexists]
  simp only [hholds, hdone]
  rfl

end Root

end FileSystem

/-- The query with a name and a text, at the root. -/
def plainQuery (name text : String) : Source :=
  ⟨name, ⟨"/", [name]⟩, .query, ".sql.tmpl", text, Sha256.hexDigest (Text.Utf8.encode text)⟩

/-- Two queries, and their outputs from before. The output of the first one is a
    link to that of the second. -/
def mirrored : FileSystem :=
  ⟨[(["a.sql"], .link "b.sql"),
    (["a.sql.tmpl"], .file (Text.Utf8.encode "select 1") 0o644),
    (["b.sql"], .file (Text.Utf8.encode "select 1") 0o644),
    (["b.sql.tmpl"], .file (Text.Utf8.encode "select 2") 0o644)], []⟩

/-- Outputs have no header. -/
def bareConfig : Config :=
  { Config.default with header := "", includeIgnored := true }

/-- The catalog of the two queries. -/
def mirroredCatalog : Catalog :=
  ⟨⟨"/", []⟩, [plainQuery "a.sql.tmpl" "select 1", plainQuery "b.sql.tmpl" "select 2"]⟩

section Mirrored

theorem accepted_bareConfig : bareConfig.Accepted :=
  ⟨[("header", .text ""), ("include_ignored", .bool true)], rfl⟩

theorem names_mirrored :
    mirrored.names [] = ["a.sql", "a.sql.tmpl", "b.sql", "b.sql.tmpl"] := by
  have hsorted : ["a.sql", "a.sql.tmpl", "b.sql", "b.sql.tmpl"].Pairwise
      fun m n : String => (!decide (n < m)) = true := by
    decide
  exact List.mergeSort_of_pairwise hsorted

theorem isName_mirrored {n : String} (hn : n ∈ ["a.sql", "a.sql.tmpl", "b.sql", "b.sql.tmpl"]) :
    IsName n ∧ n.utf8ByteSize ≤ 255 := by
  simp only [List.mem_cons, List.not_mem_nil, or_false] at hn
  rcases hn with rfl | rfl | rfl | rfl
  all_goals exact ⟨⟨by decide, by decide, by decide, by decide, by decide⟩, by decide⟩

theorem proper_mirrored : mirrored.Proper := by
  have hnodup : (mirrored.entries.map Prod.fst).Nodup := by decide
  refine ⟨hnodup, fun e he n hn => ?_, fun n hn => absurd hn List.not_mem_nil⟩
  have hsingle : ∀ e ∈ mirrored.entries, ∀ n ∈ e.1,
      n ∈ ["a.sql", "a.sql.tmpl", "b.sql", "b.sql.tmpl"] := by
    intro e he n hn
    simp only [mirrored, List.mem_cons, List.not_mem_nil, or_false] at he
    rcases he with rfl | rfl | rfl | rfl
    all_goals
      simp only [List.mem_singleton] at hn
      subst hn
      simp
  exact (isName_mirrored (hsingle e he n hn)).1

/-- A link to a file counts as a file. -/
theorem isFlat_mirrored : mirrored.IsFlat := by
  have hfile : ∀ n ∈ ["a.sql.tmpl", "b.sql", "b.sql.tmpl"],
      ∃ data mode, mirrored.find? [n] = some (.file data mode) := by
    intro n hn
    simp only [List.mem_cons, List.not_mem_nil, or_false] at hn
    rcases hn with rfl | rfl | rfl
    all_goals exact ⟨_, _, rfl⟩
  intro n hn
  rw [names_mirrored] at hn
  refine ⟨(isName_mirrored hn).1, ?_⟩
  rcases List.mem_cons.mp hn with rfl | hrest
  · have hlink : mirrored.find? ["a.sql"] = some (.link "b.sql") := rfl
    have hentry : mirrored.find? ["b.sql"] =
      some (.file (Text.Utf8.encode "select 1") 0o644) := rfl
    have ha := isName_mirrored hn
    have hb := @isName_mirrored "b.sql" (by simp)
    have hstatus := FileSystem.status_link_root ha.1 ha.2 hb.1 hb.2 hlink hentry
    rw [entryRole, hlink, Path.child_of_isName _ ha.1]
    simp only [List.nil_append, FileSystem.isDirectory, FileSystem.test, hstatus,
      FileSystem.Entry.isDirectory]
  · rcases hfile n hrest with ⟨data, mode, hfind⟩
    rw [entryRole, hfind]

theorem catalog_mirrored :
    Catalog.build mirrored ⟨"/", []⟩ bareConfig = ([], .ok mirroredCatalog) := by
  have hname := @isName_mirrored
  have hread : List.Forall₂
      (fun n s => Catalog.readSource mirrored bareConfig n ⟨"/", [n]⟩ = .ok s) (mirrored.names [])
      [none, some (plainQuery "a.sql.tmpl" "select 1"), none,
        some (plainQuery "b.sql.tmpl" "select 2")] := by
    have ha := @isName_mirrored "a.sql.tmpl" (by simp)
    have hb := @isName_mirrored "b.sql.tmpl" (by simp)
    rw [names_mirrored]
    refine .cons (Catalog.readSource_of_none (by decide)) (.cons ?_
      (.cons (Catalog.readSource_of_none (by decide)) (.cons ?_ .nil)))
    · exact Catalog.readSource_of_root ha.1 ha.2 (by decide) rfl
    · exact Catalog.readSource_of_root hb.1 hb.2 (by decide) rfl
  have hcatalog := Catalog.build_of_isFlat isFlat_mirrored rfl hread
  have hsorted : [plainQuery "a.sql.tmpl" "select 1", plainQuery "b.sql.tmpl" "select 2"].Pairwise
      fun s t => Catalog.before s t = true := by
    rw [List.pairwise_pair, Catalog.before]
    decide
  rwa [List.reduceOption_cons_of_none, List.reduceOption_cons_of_some,
    List.reduceOption_cons_of_none, List.reduceOption_cons_of_some, List.reduceOption_nil,
    Catalog.ofSources, List.mergeSort_of_pairwise hsorted] at hcatalog

theorem isFlat_mirroredCatalog : mirroredCatalog.IsFlat := by
  constructor
  · intro s hs
    simp only [mirroredCatalog, List.mem_cons, List.not_mem_nil, or_false] at hs
    rcases hs with rfl | rfl
    all_goals rfl
  · intro s hs
    simp only [mirroredCatalog, List.mem_cons, List.not_mem_nil, or_false] at hs
    rcases hs with rfl | rfl
    all_goals decide

/-- The outputs, in the order in which they are written. -/
theorem outputs_mirrored : (Graph.ofCollected mirroredCatalog bareConfig).outputs bareConfig =
    [(⟨"/", ["a.sql"]⟩, "select 1"), (⟨"/", ["b.sql"]⟩, "select 2")] := by
  have hascending : mirroredCatalog.sources.Pairwise fun s t => s.path < t.path := by
    rw [mirroredCatalog, List.pairwise_pair]
    decide
  rw [@Graph.outputs_of_isFlat mirroredCatalog bareConfig isFlat_mirroredCatalog hascending
    Source.content ?_]
  · have hfirst : (plainQuery "a.sql.tmpl" "select 1").outputPath ⟨"/", []⟩ bareConfig =
      ⟨"/", ["a.sql"]⟩ := by decide
    have hsecond : (plainQuery "b.sql.tmpl" "select 2").outputPath ⟨"/", []⟩ bareConfig =
      ⟨"/", ["b.sql"]⟩ := by decide
    simp only [mirroredCatalog, List.map_cons, List.map_nil, hfirst, hsecond]
    rfl
  · intro s hs
    refine Graph.render_of_find? (Catalog.find?_of_ascending hascending hs) ?_ _
    simp only [mirroredCatalog, List.mem_cons, List.not_mem_nil, or_false] at hs
    rcases hs with rfl | rfl
    · rfl
    · rfl

theorem conflict?_mirrored :
    RenderTask.conflict? ((Graph.ofCollected mirroredCatalog bareConfig).queries.map
      ((Graph.ofCollected mirroredCatalog bareConfig).taskOf bareConfig)) = none := by
  decide

theorem encode_queries_ne : Text.Utf8.encode "select 1" ≠ Text.Utf8.encode "select 2" := by
  intro heq
  have hdecode := Text.Utf8.decode_encode "select 1"
  rw [heq, Text.Utf8.decode_encode, Except.ok.injEq] at hdecode
  exact absurd hdecode (by decide)

/-- What has succeeded is something else at the end, if its path leads through a
    link to another output: the output was unchanged when it was compared, and
    the other one was written afterwards. -/
theorem build_succeeded_stale : mirrored.Proper ∧ bareConfig.Accepted ∧
    '/' ∉ bareConfig.extension.toList ∧
    ∃ r, (build mirrored ⟨"/", []⟩ (some bareConfig)).report = .ok r ∧
      ∃ d ∈ r.results, d.output ∈ r.succeeded ∧
        (build mirrored ⟨"/", []⟩ (some bareConfig)).files.read d.output ≠
          .ok (outputBytes bareConfig.header d.text) := by
  refine ⟨proper_mirrored, accepted_bareConfig, by decide, ?_⟩
  have ha := @isName_mirrored "a.sql" (by simp)
  have hb := @isName_mirrored "b.sql" (by simp)
  have hlink : mirrored.find? ["a.sql"] = some (.link "b.sql") := rfl
  have hfile : mirrored.find? ["b.sql"] = some (.file (Text.Utf8.encode "select 1") 0o644) := rfl
  have hbytes : ∀ body, outputBytes bareConfig.header body = Text.Utf8.encode body := by
    intro body
    rw [outputBytes, Header.apply_of_lines_eq_nil rfl]
  have hfirst : mirrored.write bareConfig.header ⟨"/", ["a.sql"]⟩ "select 1" =
      (mirrored, .ok .unchanged) := by
    refine FileSystem.write_of_read (FileSystem.read_eq_ok_iff.mpr ⟨["b.sql"], 0o644, ?_⟩)
    rw [hbytes]
    exact FileSystem.status_link_root ha.1 ha.2 hb.1 hb.2 hlink hfile
  have hne : Text.Utf8.encode "select 1" ≠ outputBytes bareConfig.header "select 2" := by
    rw [hbytes]
    exact encode_queries_ne
  rcases FileSystem.write_root hb.1 (by decide) hfile (by decide) hne with
    ⟨done, hsecond, hplaces⟩
  have hwrites : mirrored.writeAll bareConfig.header
      ((Graph.ofCollected mirroredCatalog bareConfig).outputs bareConfig) =
        (done, .ok ⟨[], [⟨"/", ["b.sql"]⟩], [⟨"/", ["a.sql"]⟩], []⟩) := by
    rw [outputs_mirrored]
    simp only [FileSystem.writeAll, FileSystem.writeFrom, hfirst, hsecond]
    rfl
  rcases build_of_catalog catalog_mirrored (Graph.build_of_isFlat isFlat_mirroredCatalog) with
    ⟨hfiles, hreport⟩
  have hbuild := buildGraph_eq_ok_iff.mpr ⟨conflict?_mirrored, _, hwrites, rfl⟩
  rw [hbuild] at hfiles hreport
  refine ⟨_, hreport, ?_⟩
  have hmem : (⟨"/", ["a.sql"]⟩, "select 1") ∈
      (Graph.ofCollected mirroredCatalog bareConfig).outputs bareConfig := by
    rw [outputs_mirrored]
    exact List.mem_cons_self
  rcases List.mem_map.mp hmem with ⟨d, hd, heq⟩
  rcases Prod.mk.inj heq with ⟨houtput, htext⟩
  refine ⟨d, hd, List.mem_filter.mpr ⟨List.mem_map_of_mem hd, rfl⟩, ?_⟩
  -- The link leads to what was written.
  rcases hplaces.placed with ⟨mode, hplaced⟩
  have hlink' : done.find? ["a.sql"] = some (.link "b.sql") := by
    rw [hplaces.others ["a.sql"] (by decide), hlink]
  have hread : done.read ⟨"/", ["a.sql"]⟩ = .ok (outputBytes bareConfig.header "select 2") :=
    FileSystem.read_eq_ok_iff.mpr ⟨["b.sql"], mode,
      FileSystem.status_link_root ha.1 ha.2 hb.1 hb.2 hlink' hplaced⟩
  rw [hfiles, houtput, htext, hread, hbytes, hbytes, ne_eq, Except.ok.injEq]
  exact encode_queries_ne.symm

end Mirrored

end Stencil
