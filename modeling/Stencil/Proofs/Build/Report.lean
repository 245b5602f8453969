import Stencil.Proofs.Build.Templates
import Stencil.Proofs.Output.Apart
import Stencil.Proofs.Output.Attempt
import Stencil.Proofs.Render.Pool

/-!
# Build Reports

Every query is accounted for once.

A report is filled from three sides: what rendering gave, what became of the
outputs, and what each query watches. They are kept under different keys, the
paths of queries, the paths of outputs, and those paths as texts. What brings
them together is that no two queries have one output: the tasks are refused
otherwise. So an output is in one of the four lists that writing fills, and
taking those that failed away from all outputs leaves the ones in the other
three.

## Main definitions

* `BuildReport.Accounts`: The report accounts for the queries of a catalog.

## Theorems

* `RenderTask.conflict?_eq_none_iff`: There is no conflict iff no two tasks have
  one output.
* `FileSystem.perm_writeAll`: Every output that is written is in one of four
  lists.
* `Path.le_trans`, `Path.le_total`: Paths are ordered, so sorting sorts them.
* `buildGraph_eq_ok_iff`: When there is a report of a graph, and which.
* `build_accounts`: Every report accounts for the queries of the catalog.
-/

namespace Stencil

section Order

/-- What paths are ordered by. -/
def Path.key (p : Path) : List String :=
  (if p.root.isEmpty then [] else [p.root]) ++ p.parts

theorem Path.le_iff {p q : Path} : p.le q = true ↔ ¬ q.key < p.key := by
  rw [Path.le, Bool.not_eq_true', decide_eq_false_iff_not]
  exact Iff.rfl

theorem Path.le_trans {p q r : Path} (h : p.le q = true) (h' : q.le r = true) :
    p.le r = true := by
  rw [Path.le_iff, List.not_lt] at h h' ⊢
  exact List.le_trans h h'

theorem Path.le_total (p q : Path) : (p.le q || q.le p) = true := by
  rw [Bool.or_eq_true, Path.le_iff, Path.le_iff, List.not_lt, List.not_lt]
  exact List.le_total _ _

end Order

/-- There is no conflict iff no two tasks have one output. -/
theorem RenderTask.conflict?_eq_none_iff {ts : List RenderTask} :
    conflict? ts = none ↔ (ts.map RenderTask.output).Nodup := by
  have hcount : ∀ output, (ts.map RenderTask.output).count output =
      (withOutput ts output).length := by
    intro output
    rw [List.count, List.countP_map, List.countP_eq_length_filter]
    rfl
  rw [conflict?, Option.map_eq_none_iff, List.find?_eq_none, List.nodup_iff_count_le_one]
  constructor
  · intro h output
    by_cases hmem : output ∈ ts.map RenderTask.output
    · rcases List.mem_map.mp hmem with ⟨t, ht, rfl⟩
      have hfew := h t ht
      rw [decide_eq_true_eq] at hfew
      rw [hcount]
      omega
    · rw [List.count_eq_zero_of_not_mem hmem]
      omega
  · intro h t _
    have hfew := h t.output
    rw [hcount] at hfew
    rw [decide_eq_true_eq]
    omega

/-- Every output that is written is in one of four lists. -/
theorem FileSystem.perm_writeAll {fs done : FileSystem} {header : String}
    {outputs : List (Path × String)} {w : WriteSummary}
    (h : fs.writeAll header outputs = (done, .ok w)) :
    (w.created ++ w.updated ++ w.unchanged ++ w.errors.map WriteError.path).Perm
      (outputs.map Prod.fst) := by
  rcases writeFrom_eq_ok_iff.mp h with ⟨_, _, rfl⟩
  rw [WriteSummary.foldl_note, ← paths_attempts header outputs fs]
  simp only [List.nil_append]
  exact Attempt.perm_paths _

namespace BuildReport

/-- The report accounts for the queries of a catalog. -/
structure Accounts (r : BuildReport) (config : Config) (c : Catalog) : Prop where
  /-- Queries are in the order of their paths. -/
  queries : c.queries.Pairwise fun q q' => q.path < q'.path
  /-- Every query has a result or an error, and one of them. -/
  once : (r.results.map Rendered.source ++ r.renderErrors.map RenderError.path).Perm
    (c.queries.map Source.path)
  /-- No query has both. -/
  disjoint : ∀ d ∈ r.results, ∀ e ∈ r.renderErrors, d.source ≠ e.path
  /-- Results are in the order of the paths of their queries. -/
  results : r.results.Pairwise fun d d' => d.source < d'.source
  /-- So are errors. -/
  renderErrors : r.renderErrors.Pairwise fun e e' => e.path < e'.path
  /-- The output of a result is that of its query. -/
  output : ∀ d ∈ r.results, ∃ q ∈ c.queries, d.source = q.path ∧
    d.output = q.outputPath c.root config
  /-- The output of a result is in one of four lists, and there once. Of those
      that failed the path is looked for as a text. -/
  list : ∀ d ∈ r.results, r.writes.created.count d.output + r.writes.updated.count d.output +
    r.writes.unchanged.count d.output +
      (r.writes.errors.map fun e => e.path.text).count d.output.text = 1
  /-- There is nothing else in them. -/
  lists : (r.writes.created ++ r.writes.updated ++ r.writes.unchanged ++
    r.writes.errors.map WriteError.path).Perm (r.results.map Rendered.output)
  /-- An output has succeeded if it is in one of three. -/
  succeeded : r.succeeded = (r.results.map Rendered.output).filter fun p =>
    decide (p ∈ r.writes.created ++ r.writes.updated ++ r.writes.unchanged)
  /-- Nothing else has. -/
  three : r.succeeded.Perm (r.writes.created ++ r.writes.updated ++ r.writes.unchanged)
  /-- What changed are the outputs in two. -/
  written : r.writes.written.Perm (r.writes.created ++ r.writes.updated)
  /-- They are in order. -/
  sorted : r.writes.written.Pairwise fun p q => p.le q = true
  /-- Successes and failures make up all queries. -/
  total : r.succeeded.length + r.errorCount = c.queries.length
  /-- Every query has a watch set, in order. -/
  watch : r.watch.map Prod.fst = c.queries.map Source.path
  /-- A build is fine if every query has succeeded. -/
  fine : r.isOk = true ↔ r.succeeded.length = c.queries.length

theorem hasFailed_iff {r : BuildReport} {p : Path} :
    r.hasFailed p = true ↔ p ∈ r.writes.errors.map WriteError.path := by
  rw [hasFailed, List.any_eq_true, List.mem_map]
  simp only [beq_iff_eq]

theorem written_perm (w : WriteSummary) : w.written.Perm (w.created ++ w.updated) :=
  List.mergeSort_perm _ _

theorem written_sorted (w : WriteSummary) : w.written.Pairwise fun p q => p.le q = true := by
  rw [WriteSummary.written]
  exact @List.pairwise_mergeSort Path Path.le (fun _ _ _ => Path.le_trans) Path.le_total _

/-- Looking for the text of a path is looking for the path. -/
theorem count_text {ps : List Path} (hps : ∀ p ∈ ps, p.Spelled) {p : Path} (hp : p.Spelled) :
    (ps.map Path.text).count p.text = ps.count p := by
  rw [List.count, List.countP_map, List.count]
  refine List.countP_congr (fun q hq => ?_)
  rw [Function.comp_apply, beq_iff_eq, beq_iff_eq]
  exact ⟨(hps q hq).text_inj hp, congrArg Path.text⟩

section Lists

variable {r : BuildReport}
  (hlists : (r.writes.created ++ r.writes.updated ++ r.writes.unchanged ++
    r.writes.errors.map WriteError.path).Perm (r.results.map Rendered.output))
  (hnodup : (r.results.map Rendered.output).Nodup)

include hlists hnodup

/-- An output has not failed if it is in one of the other lists. -/
theorem succeeded_eq_filter : r.succeeded = (r.results.map Rendered.output).filter fun p =>
    decide (p ∈ r.writes.created ++ r.writes.updated ++ r.writes.unchanged) := by
  have hapart := (List.nodup_append.mp (hlists.nodup_iff.mpr hnodup)).2.2
  rw [succeeded]
  refine List.filter_congr (fun p hp => ?_)
  have hsomewhere := List.mem_append.mp (hlists.mem_iff.mpr hp)
  by_cases hfailed : r.hasFailed p = true
  · have hnot : p ∉ r.writes.created ++ r.writes.updated ++ r.writes.unchanged := by
      intro hmem
      exact hapart p hmem p (hasFailed_iff.mp hfailed) rfl
    rw [hfailed, decide_eq_false hnot, Bool.not_true]
  · have hmem := hsomewhere.resolve_right (fun h => hfailed (hasFailed_iff.mpr h))
    rw [decide_eq_true hmem, Bool.eq_false_iff.mpr hfailed, Bool.not_false]

theorem succeeded_perm :
    r.succeeded.Perm (r.writes.created ++ r.writes.updated ++ r.writes.unchanged) := by
  have hall := hlists.nodup_iff.mpr hnodup
  rw [succeeded_eq_filter hlists hnodup]
  refine (List.perm_ext_iff_of_nodup (hnodup.filter _) hall.of_append_left).mpr (fun p => ?_)
  rw [List.mem_filter, decide_eq_true_eq]
  constructor
  · exact fun h => h.2
  · intro hp
    exact ⟨hlists.mem_iff.mp (List.mem_append_left _ hp), hp⟩

/-- The output of a result is in one of the four lists. -/
theorem count_lists (hspelled : ∀ p ∈ r.results.map Rendered.output, p.Spelled) {p : Path}
    (hp : p ∈ r.results.map Rendered.output) :
    r.writes.created.count p + r.writes.updated.count p + r.writes.unchanged.count p +
      (r.writes.errors.map fun e => e.path.text).count p.text = 1 := by
  have hone : (r.results.map Rendered.output).count p = 1 :=
    List.count_eq_one_of_mem hnodup hp
  rw [← hlists.count_eq, List.count_append, List.count_append, List.count_append] at hone
  have htexts : (r.writes.errors.map fun e => e.path.text) =
      (r.writes.errors.map WriteError.path).map Path.text := by
    rw [List.map_map]
    rfl
  have herrors : ∀ q ∈ r.writes.errors.map WriteError.path, q.Spelled := by
    intro q hq
    exact hspelled q (hlists.mem_iff.mp (List.mem_append_right _ hq))
  rw [htexts, count_text herrors (hspelled p hp)]
  exact hone

/-- What succeeded and what failed make up what there was to do. -/
theorem length_succeeded {queries : List String}
    (honce : (r.results.map Rendered.source ++ r.renderErrors.map RenderError.path).Perm
      queries) : r.succeeded.length + r.errorCount = queries.length := by
  have hsucceeded := (succeeded_perm hlists hnodup).length_eq
  have houtputs := hlists.length_eq
  have hqueries := honce.length_eq
  rw [List.length_append, List.length_map, List.length_map] at houtputs hqueries
  rw [errorCount]
  omega

end Lists

end BuildReport

/-- There is a report of a graph if no two queries have one output and no path
    is refused, and it is made of what rendering and writing gave. -/
theorem buildGraph_eq_ok_iff {fs done : FileSystem} {g : Graph} {config : Config}
    {r : BuildReport} : buildGraph fs g config = (done, .ok r) ↔
      RenderTask.conflict? (g.queries.map (g.taskOf config)) = none ∧
        ∃ w, fs.writeAll config.header (g.outputs config) = (done, .ok w) ∧
          r = ⟨g.catalog.root,
            (g.runTasks config.context (g.queries.map (g.taskOf config))).results,
            (g.runTasks config.context (g.queries.map (g.taskOf config))).errors, w,
            g.watchSets⟩ := by
  rw [buildGraph, Graph.tasks]
  rcases RenderTask.conflict? (g.queries.map (g.taskOf config)) with _ | conflict
  · simp only [true_and]
    rw [← Graph.outputs]
    rcases fs.writeAll config.header (g.outputs config) with ⟨fs', why | w⟩
    · simp only [Prod.mk.injEq, reduceCtorEq, and_false, false_and, exists_false]
    · simp only [Prod.mk.injEq, Except.ok.injEq]
      constructor
      · intro h
        exact ⟨w, ⟨h.1, rfl⟩, h.2.symm⟩
      · intro h
        rcases h with ⟨w', ⟨hdone, rfl⟩, hr⟩
        exact ⟨hdone, hr.symm⟩
  · simp only [Prod.mk.injEq, reduceCtorEq, and_false, false_and]

/-- A build that has a report found a configuration and a catalog, and built
    the graph of the catalog. -/
theorem exists_graph_of_build {fs : FileSystem} {root : Path} {c : Option Config}
    {r : BuildReport} (h : (build fs root c).report = .ok r) :
    ∃ config notes catalog g, c.elim (Config.load fs root none) .ok = .ok config ∧
      Catalog.build fs root config = (notes, .ok catalog) ∧
      Graph.build catalog config = .ok g ∧
      buildGraph fs g config = ((build fs root c).files, .ok r) := by
  rcases build_cases fs root c with ⟨_, why, hwhy⟩ | ⟨config, g, hconfig, hg, hfiles, hreport⟩
  · rw [hwhy] at h
    exact absurd h (by simp only [reduceCtorEq, not_false_eq_true])
  · rcases loadGraph_eq_ok_iff.mp hg with ⟨notes, catalog, hcatalog, hgraph⟩
    exact ⟨config, notes, catalog, g, hconfig, hcatalog, hgraph,
      Prod.ext hfiles.symm (hreport.symm.trans h)⟩

/-- Building a tree with a catalog is building its graph. -/
theorem build_of_catalog {fs : FileSystem} {root : Path} {config : Config}
    {notes : Catalog.Notes} {c : Catalog}
    (hc : Catalog.build fs root config = (notes, .ok c)) {g : Graph}
    (hg : Graph.build c config = .ok g) :
    (build fs root (some config)).files = (buildGraph fs g config).1 ∧
      (build fs root (some config)).report = (buildGraph fs g config).2 := by
  have hload : loadGraph fs root config = (notes, .ok g) := by
    rw [loadGraph, hc]
    simp only [hg]
    rfl
  simp only [build, Option.elim, buildWith, hload]
  exact ⟨trivial, trivial⟩

/-- No two results have one output: their tasks would have it too. -/
theorem Graph.nodup_output_results {g : Graph} {config : Config}
    (hascending : g.catalog.sources.Pairwise fun s t => s.path < t.path)
    (hconflict : RenderTask.conflict? (g.queries.map (g.taskOf config)) = none) :
    ((g.runTasks config.context (g.queries.map (g.taskOf config))).results.map
      Rendered.output).Nodup := by
  have hsettled := g.settled_runTasks config.context (@nodup_path_taskOf g config hascending)
  have houtputs := RenderTask.conflict?_eq_none_iff.mp hconflict
  have hnodup := hsettled.results_ascending.imp (fun {d d'} hlt => String.ne_of_lt hlt)
  refine List.Nodup.map_on (fun d hd d' hd' hsame => ?_)
    (hnodup.imp (fun hne heq => hne (by rw [heq])))
  rcases (hsettled.mem_results d).mp hd with ⟨t, ht, text, hrender, rfl⟩
  rcases (hsettled.mem_results d').mp hd' with ⟨t', ht', text', hrender', rfl⟩
  obtain rfl : t = t' := List.inj_on_of_nodup_map houtputs ht ht' hsame
  rw [Except.ok.inj (hrender.symm.trans hrender')]

/-- What a result and its output come from. -/
theorem Graph.query_of_mem_results {g : Graph} {config : Config}
    (hascending : g.catalog.sources.Pairwise fun s t => s.path < t.path) {d : Rendered}
    (hd : d ∈ (g.runTasks config.context (g.queries.map (g.taskOf config))).results) :
    ∃ q ∈ g.queries, d.source = q.path ∧ d.output = q.outputPath g.catalog.root config := by
  have hsettled := g.settled_runTasks config.context (@nodup_path_taskOf g config hascending)
  rcases (hsettled.mem_results d).mp hd with ⟨t, ht, text, _, hresult⟩
  rcases List.mem_map.mp ht with ⟨q, hq, htask⟩
  refine ⟨q, hq, ?_, ?_⟩
  · rw [hresult, ← htask]
    rfl
  · rw [hresult, ← htask, taskOf]

section Outputs

variable {fs done : FileSystem} {g : Graph} {config : Config} {r : BuildReport}

/-- Every output is that of a query. -/
theorem Graph.query_of_mem_outputs
    (hascending : g.catalog.sources.Pairwise fun s t => s.path < t.path) {output : Path × String}
    (houtput : output ∈ g.outputs config) :
    ∃ q ∈ g.queries, output.1 = q.outputPath g.catalog.root config := by
  rcases List.mem_map.mp houtput with ⟨d, hd, rfl⟩
  rcases Graph.query_of_mem_results hascending hd with ⟨q, hq, _, hpath⟩
  exact ⟨q, hq, hpath⟩

theorem Graph.spelled_of_mem_outputs (hconfig : config.Accepted)
    (hascending : g.catalog.sources.Pairwise fun s t => s.path < t.path)
    (hroot : g.catalog.root.Spelled) : ∀ output ∈ g.outputs config, output.1.Spelled := by
  intro output houtput
  rcases query_of_mem_outputs hascending houtput with ⟨q, _, hpath⟩
  rw [hpath]
  exact hconfig.spelled_outputPath hroot q

/-- What building a graph leaves, if there is a report. -/
theorem files_of_buildGraph (h : buildGraph fs g config = (done, .ok r)) :
    done = fs.written config.header (g.outputs config) := by
  rcases buildGraph_eq_ok_iff.mp h with ⟨_, w, hwrites, _⟩
  exact (FileSystem.writeFrom_eq_ok_iff.mp hwrites).2.1

/-- If the extension has no slash then outputs have different places. -/
theorem Graph.pairwise_place_outputs (hconfig : config.Accepted)
    (hregular : g.catalog.Regular config) (hslash : '/' ∉ config.extension.toList)
    (hconflict : RenderTask.conflict? (g.queries.map (g.taskOf config)) = none) :
    (g.outputs config).Pairwise fun a b => a.1.place ≠ b.1.place := by
  have hnodup : ((g.outputs config).map Prod.fst).Nodup := by
    rw [outputs, List.map_map]
    exact nodup_output_results hregular.ascending hconflict
  refine (List.pairwise_map.mp hnodup).imp_of_mem (fun {a b} ha hb hne hplace => hne ?_)
  rcases query_of_mem_outputs hregular.ascending ha with ⟨q, hq, hpath⟩
  rcases query_of_mem_outputs hregular.ascending hb with ⟨q', hq', hpath'⟩
  rw [hpath, hpath'] at hplace ⊢
  exact hregular.place_inj (List.mem_filter.mp hq).1 (List.mem_filter.mp hq').1 _ hslash
    hconfig.extension hplace

end Outputs

/-- The report of a graph accounts for its queries. -/
theorem BuildReport.accounts_of_buildGraph {fs done : FileSystem} {g : Graph} {config : Config}
    (hconfig : config.Accepted) (hregular : g.catalog.Regular config)
    (hroot : g.catalog.root.Spelled) {r : BuildReport}
    (h : buildGraph fs g config = (done, .ok r)) : r.Accounts config g.catalog := by
  rcases buildGraph_eq_ok_iff.mp h with ⟨hconflict, w, hwrites, hr⟩
  have hresults : r.results =
      (g.runTasks config.context (g.queries.map (g.taskOf config))).results := by rw [hr]
  have herrors : r.renderErrors =
      (g.runTasks config.context (g.queries.map (g.taskOf config))).errors := by rw [hr]
  have hwatch : r.watch = g.watchSets := by rw [hr]
  obtain rfl : r.writes = w := by rw [hr]
  have hsettled := g.settled_runTasks config.context
    (@Graph.nodup_path_taskOf g config hregular.ascending)
  have hascending := hsettled.results_ascending
  have hascending' := hsettled.errors_ascending
  have honce := hsettled.once
  rw [List.map_map] at honce
  have hlists := FileSystem.perm_writeAll hwrites
  -- The four lists are the outputs in some order, and no output is there twice.
  rw [Graph.outputs, List.map_map] at hlists
  have hnodup := Graph.nodup_output_results hregular.ascending hconflict
  have hquery : ∀ d ∈ r.results, ∃ q ∈ g.queries, d.source = q.path ∧
      d.output = q.outputPath g.catalog.root config := by
    intro d hd
    rw [hresults] at hd
    exact Graph.query_of_mem_results hregular.ascending hd
  rw [← hresults] at hascending honce hlists hnodup
  rw [← herrors] at hascending' honce
  have hspelled : ∀ p ∈ r.results.map Rendered.output, p.Spelled := by
    intro p hp
    rcases List.mem_map.mp hp with ⟨d, hd, rfl⟩
    rcases hquery d hd with ⟨q, _, _, hpath⟩
    rw [hpath]
    exact hconfig.spelled_outputPath hroot q
  have htotal := length_succeeded hlists hnodup honce
  rw [List.length_map] at htotal
  refine ⟨hregular.ascending.filter _, honce, fun d hd e he => ?_, hascending, hascending', hquery,
    fun d hd => count_lists hlists hnodup hspelled (List.mem_map_of_mem hd), hlists,
    succeeded_eq_filter hlists hnodup, succeeded_perm hlists hnodup, written_perm r.writes,
    written_sorted r.writes, htotal, ?_, ?_⟩
  · -- Paths of queries are in the two lists once, so in one of them.
    have hpaths : (g.catalog.queries.map Source.path).Nodup :=
      List.pairwise_map.mpr ((hregular.ascending.filter _).imp fun hlt => String.ne_of_lt hlt)
    exact (List.nodup_append.mp (honce.nodup_iff.mpr hpaths)).2.2 _ (List.mem_map_of_mem hd) _
      (List.mem_map_of_mem he)
  · rw [hwatch, Graph.watchSets, List.map_map]
    rfl
  · rw [isOk_iff]
    have hqueries : g.queries.length = g.catalog.queries.length := rfl
    omega

/-- A configuration that was accepted, or the one that is found. -/
theorem Config.accepted_of_elim {fs : FileSystem} {root : Path} {c : Option Config}
    (hc : ∀ config, c = some config → config.Accepted) {config : Config}
    (h : c.elim (Config.load fs root none) .ok = .ok config) : config.Accepted := by
  cases c with
  | none => exact accepted_of_load (show load fs root none = .ok config from h)
  | some given => exact hc config (congrArg some (Except.ok.inj h))

/-- Every report accounts for the queries of the catalog. Take any tree, and a
    configuration that was accepted or the one that is found in the tree. If a
    build has a report, then each query has a result or an error; the output of
    each result is in one of the lists created, updated, unchanged and failed,
    and there once; the outputs that succeeded are those in the first three; and
    the numbers add up to that of the queries. -/
theorem build_accounts {fs : FileSystem} (hfs : fs.Proper) {root : Path} {c : Option Config}
    (hc : ∀ config, c = some config → config.Accepted) {r : BuildReport}
    (h : (build fs root c).report = .ok r) :
    ∃ config notes catalog, c.elim (Config.load fs root none) .ok = .ok config ∧
      Catalog.build fs root config = (notes, .ok catalog) ∧ r.Accounts config catalog := by
  rcases exists_graph_of_build h with ⟨config, notes, catalog, g, hconfig, hcatalog, hgraph, hbuild⟩
  have haccepted := Config.accepted_of_elim hc hconfig
  refine ⟨config, notes, catalog, hconfig, hcatalog, ?_⟩
  obtain rfl : g.catalog = catalog := by
    rw [(Graph.build_eq_ok_iff.mp hgraph).2.1]
    rfl
  exact BuildReport.accounts_of_buildGraph haccepted (Catalog.regular_of_build hfs hcatalog)
    (Catalog.spelled_of_build hfs hcatalog).1 hbuild

/-- The tree of one query can be built. -/
theorem exists_report_oneQuery :
    ∃ r, (build oneQuery ⟨"/", []⟩ (some (extensionConfig "sql"))).report = .ok r := by
  have hroot : Path.Spelled ⟨"/", []⟩ := ⟨Or.inl rfl, fun _ h => absurd h List.not_mem_nil⟩
  have habs := (accepted_extensionConfig.1.spelled_outputPath hroot answer).isAbsolute
  have hnull : (answer.outputPath ⟨"/", []⟩ (extensionConfig "sql")).NullFree := by
    rw [show answer.outputPath ⟨"/", []⟩ (extensionConfig "sql") = ⟨"/", ["answer.sql"]⟩ by
      decide]
    exact ⟨by decide, by decide⟩
  have hun := FileSystem.unrefused_write oneQuery habs hnull (extensionConfig "sql").header
    "select 42"
  rcases (build_of_isSingle isSingle_oneQuery (catalog_oneQuery "sql") (render_oneQuery "sql")).2
    hun with ⟨r, hr, _⟩
  exact ⟨r, hr⟩

/-- The report of the tree of one query accounts for the query. -/
theorem build_accounts_oneQuery :
    ∃ r, (build oneQuery ⟨"/", []⟩ (some (extensionConfig "sql"))).report = .ok r ∧
      r.Accounts (extensionConfig "sql") ⟨⟨"/", []⟩, [answer]⟩ := by
  rcases exists_report_oneQuery with ⟨r, hr⟩
  rcases build_accounts (by decide)
    (fun config hconfig => Option.some.inj hconfig ▸ accepted_extensionConfig.1) hr
    with ⟨config, notes, catalog, hconfig, hcatalog, haccounts⟩
  obtain rfl : extensionConfig "sql" = config := Except.ok.inj hconfig
  rw [catalog_oneQuery, Prod.mk.injEq, Except.ok.injEq] at hcatalog
  rw [← hcatalog.2] at haccounts
  exact ⟨r, hr, haccounts⟩

end Stencil
