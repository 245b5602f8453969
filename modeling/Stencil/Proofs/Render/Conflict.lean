import Stencil.Output.Watch
import Stencil.Proofs.Build.Report
import Stencil.Proofs.Build.Single
import Stencil.Proofs.Catalog.Flat

/-!
# Conflicts of Outputs

Tasks are refused iff two queries lose their suffixes to one name.

Outputs are compared as paths, and a path is less than the text it is read
from: empty components and single dots are dropped. What follows the name of a
query in the text is the same for all queries, a dot and the extension, and the
extension may have slashes of its own. Only its first piece goes on with the
last name of the query. That piece has a stem and a dot in it, so it is neither
empty nor a dot itself and stays; what else is dropped is dropped for all
queries alike. So the path of an output gives back the name of the query, and
outputs conflict iff names do.

If there is no conflict then nothing is lost between queries and outputs, and
the index of outputs has an entry for each query.

## Main definitions

* `OutputConflict.Names`: The conflict names an output and all of its queries.
* `Graph.Plans`: The tasks are one for each query.

## Theorems

* `Path.ofString_wayText_append`: What a path keeps of an output.
* `Catalog.Regular.outputPath_inj`: An output gives back the name of its query.
* `Graph.outputIndex_of_nodup`: The index has an entry for each query.
* `Graph.tasks_conflict`: When tasks are refused, and what they are otherwise.
-/

namespace Stencil

/-- What follows a last name goes on with it up to its first slash. The piece
    that this makes stays, and of the others those stay that always do. -/
theorem Path.ofString_wayText_append (ext : String) : ∃ first more, ∀ dirs stem,
    (∀ n ∈ dirs, IsName n) → stem ≠ "" → '/' ∉ stem.toList →
      ofString (wayText (dirs ++ [stem]) ++ "." ++ ext) =
        ⟨"", dirs ++ (stem ++ first) :: more⟩ := by
  rcases Text.exists_splitOnChar_eq '/' ext with ⟨first, more, hsplit⟩
  refine ⟨"." ++ first, more.filter isProper, fun dirs stem hdirs hstem hslash => ?_⟩
  have hdot : '/' ∉ (stem ++ ".").toList := by
    rw [String.toList_append, List.mem_append, not_or]
    exact ⟨hslash, by decide⟩
  rcases hchars : stem.toList with _ | ⟨c, cs⟩
  · exact absurd (String.toList_eq_nil_iff.mp hchars) hstem
  · -- With the dot the piece is longer than all that is dropped.
    have hpiece : isProper (stem ++ "." ++ first) = true := by
      have hlength : ∀ n : String, n.length < 2 → stem ++ "." ++ first ≠ n := by
        rintro n hn rfl
        rw [← String.length_toList, String.toList_append, String.toList_append, hchars,
          List.length_append, List.length_append, List.length_cons] at hn
        have hone : ".".toList.length = 1 := rfl
        omega
      rw [isProper, Bool.and_eq_true, bne_iff_ne, bne_iff_ne]
      exact ⟨hlength "" (by decide), hlength "." (by decide)⟩
    have hc : c ≠ '/' := by
      rintro rfl
      exact hslash (hchars ▸ List.mem_cons_self)
    -- A query at the root has no slash before its name, and one below it has.
    by_cases hnil : dirs = []
    · have hhead : (stem ++ "." ++ ext).toList.head? = some c := by
        rw [String.toList_append, String.toList_append, hchars, List.cons_append, List.cons_append,
          List.head?_cons]
      rw [hnil, List.nil_append, List.nil_append, wayText, Text.joinStrings, ofString,
        rootOf_of_head? hhead hc, hsplit _ hdot, List.filter_cons_of_pos hpiece,
        String.append_assoc]
    · rcases head?_joinStrings hnil (fun n hn => (hdirs n hn).isPiece) with ⟨d, hd, hd'⟩
      have htext : wayText (dirs ++ [stem]) ++ "." ++ ext =
          wayText dirs ++ String.ofList ['/'] ++ (stem ++ "." ++ ext) := by
        rw [wayText_concat hnil]
        simp only [String.append_assoc]
      have hhead : (wayText (dirs ++ [stem]) ++ "." ++ ext).toList.head? = some d := by
        rw [htext, String.toList_append, String.toList_append, List.append_assoc,
          List.head?_append, wayText, hd, Option.some_or]
      rw [ofString, rootOf_of_head? hhead hd', htext, Text.splitOnChar_join,
        splitOnChar_wayText hnil hdirs, hsplit _ hdot, List.filter_append,
        filter_isProper (fun n hn => (hdirs n hn).isPiece), List.filter_cons_of_pos hpiece,
        String.append_assoc]

/-- An output gives back the name of its query. -/
theorem Catalog.Regular.outputPath_inj {c : Catalog} {config₀ : Config}
    (h : c.Regular config₀) {s t : Source} (hs : s ∈ c.sources) (ht : t ∈ c.sources)
    (root : Path) (config : Config) :
    s.outputPath root config = t.outputPath root config ↔ s.logicalName = t.logicalName := by
  constructor
  · intro hpath
    rcases Path.ofString_wayText_append config.extension with ⟨first, more, hread⟩
    rcases h.exists_logicalName_eq hs with ⟨dirs, stem, hdirs, hstem, hslash, hname, _⟩
    rcases h.exists_logicalName_eq ht with ⟨dirs', stem', hdirs', hstem', hslash', hname', _⟩
    rw [Source.outputPath, Source.outputPath, Source.outputName, Source.outputName, hname, hname',
      Path.child, Path.child, hread dirs stem hdirs hstem hslash,
      hread dirs' stem' hdirs' hstem' hslash'] at hpath
    -- The same pieces follow both names, and the same characters both stems.
    have hparts : dirs ++ [stem ++ first] ++ more = dirs' ++ [stem' ++ first] ++ more := by
      rw [List.append_assoc, List.append_assoc]
      exact List.append_cancel_left (Path.mk.inj hpath).2
    rcases List.append_inj' (List.append_cancel_right hparts) rfl with ⟨rfl, hlast⟩
    rw [hname, hname', (String.append_left_inj _).mp (List.singleton_inj.mp hlast)]
  · intro hname
    rw [Source.outputPath, Source.outputPath, Source.outputName, Source.outputName, hname]

/-- The conflict names an output and all of its queries, of which there are
    several. -/
structure OutputConflict.Names (conflict : OutputConflict) (queries : List Source) (root : Path)
    (config : Config) : Prop where
  /-- It lists the queries with the output. -/
  sources : conflict.sources =
    (queries.filter fun q => q.outputPath root config = conflict.output).map Source.path
  /-- They are listed in the order of their paths. -/
  ascending : conflict.sources.Pairwise (· < ·)
  /-- There are at least two. -/
  several : 2 ≤ conflict.sources.length

namespace Graph

/-- The tasks are one for each query. -/
structure Plans (g : Graph) (config : Config) (ts : List RenderTask) : Prop where
  /-- There is one for each query, in order. -/
  sources : ts.map RenderTask.source = g.queries
  /-- The order is that of their paths. -/
  ascending : (ts.map RenderTask.path).Pairwise (· < ·)
  /-- The output of a task is that of its query. -/
  output : ∀ t ∈ ts, t.output = t.source.outputPath g.catalog.root config
  /-- No two have one output. -/
  distinct : (ts.map RenderTask.output).Nodup
  /-- What a task reaches is what its query reaches. -/
  closure : ∀ t ∈ ts, g.closure? t.path = some t.closure ∧ g.IsClosure t.path t.closure
  /-- None has been started. -/
  pending : (RenderReport.ofFinished ts []).tasks = ts.map fun t => (t, .pending)
  /-- The index has an entry for each of them. -/
  index : g.outputIndex config = ts.map fun t => (t.output, t.path)

/-- Adding different outputs to an index keeps all that is in it. -/
theorem foldl_outputIndex_of_nodup (root : Path) (config : Config) (qs : List Source) :
    ∀ index : List (Path × String),
      (index.map Prod.fst ++ qs.map fun q => q.outputPath root config).Nodup →
      qs.foldl (fun index q =>
        let output := q.outputPath root config
        index.filter (·.1 != output) ++ [(output, q.path)]) index =
          index ++ qs.map fun q => (q.outputPath root config, q.path) := by
  induction qs with
  | nil => exact fun index _ => (List.append_nil index).symm
  | cons q qs ih =>
      intro index h
      -- The output is new, so no entry gives way to it.
      have hkeep : index.filter (·.1 != q.outputPath root config) = index := by
        refine List.filter_eq_self.mpr (fun entry hentry => bne_iff_ne.mpr ?_)
        exact (List.nodup_append.mp h).2.2 _ (List.mem_map_of_mem hentry) _ List.mem_cons_self
      simp only [List.foldl_cons, hkeep]
      rw [ih, List.append_assoc, List.singleton_append, List.map_cons]
      simpa only [List.map_append, List.map_cons, List.map_nil, List.append_assoc,
        List.singleton_append] using h

/-- The index has an entry for each query if no two have one output. -/
theorem outputIndex_of_nodup {g : Graph} {config : Config}
    (h : (g.queries.map fun q => q.outputPath g.catalog.root config).Nodup) :
    g.outputIndex config = g.queries.map fun q => (q.outputPath g.catalog.root config, q.path) :=
  foldl_outputIndex_of_nodup _ _ _ [] h

theorem map_output_taskOf (g : Graph) (config : Config) (qs : List Source) :
    (qs.map (g.taskOf config)).map RenderTask.output =
      qs.map fun q => q.outputPath g.catalog.root config := by
  rw [List.map_map]
  refine List.map_congr_left (fun q _ => ?_)
  rw [Function.comp_apply, taskOf]

theorem tasks_of_nodup {g : Graph} {config : Config}
    (h : (g.queries.map fun q => q.outputPath g.catalog.root config).Nodup) :
    g.tasks config = .ok (g.queries.map (g.taskOf config)) := by
  rw [← map_output_taskOf, ← RenderTask.conflict?_eq_none_iff] at h
  simp only [tasks, h]

/-- Tasks are refused iff two queries have one name without their suffixes. -/
theorem exists_tasks_eq_error_iff {g : Graph} {config₀ : Config}
    (h : g.catalog.Regular config₀) (config : Config) :
    (∃ conflict, g.tasks config = .error conflict) ↔
      ∃ q ∈ g.queries, ∃ q' ∈ g.queries, q ≠ q' ∧ q.logicalName = q'.logicalName := by
  have hnodup : g.queries.Nodup :=
    (h.ascending.filter _).imp (fun hst heq => String.ne_of_lt hst (congrArg Source.path heq))
  have hname : ∀ q ∈ g.queries, ∀ q' ∈ g.queries, q.outputPath g.catalog.root config =
      q'.outputPath g.catalog.root config ↔ q.logicalName = q'.logicalName := fun q hq q' hq' =>
    h.outputPath_inj (List.mem_filter.mp hq).1 (List.mem_filter.mp hq').1 _ _
  have hrefused : (∃ conflict, g.tasks config = .error conflict) ↔
      ¬ (g.queries.map fun q => q.outputPath g.catalog.root config).Nodup := by
    rw [← map_output_taskOf, ← RenderTask.conflict?_eq_none_iff, tasks]
    rcases RenderTask.conflict? (g.queries.map (g.taskOf config)) with _ | conflict
    · simp only [reduceCtorEq, exists_false, not_true_eq_false]
    · simp only [Except.error.injEq, exists_eq', reduceCtorEq, not_false_eq_true]
  -- An output that comes twice is that of two queries.
  rw [hrefused, List.nodup_map_iff_inj_on hnodup]
  constructor
  · intro hsame
    by_contra hnone
    refine hsame (fun q hq q' hq' hpath => ?_)
    by_contra hne
    exact hnone ⟨q, hq, q', hq', hne, (hname q hq q' hq').mp hpath⟩
  · rintro ⟨q, hq, q', hq', hne, hlogical⟩ hinj
    exact hne (hinj q hq q' hq' ((hname q hq q' hq').mpr hlogical))

/-- A conflict names an output and its queries. -/
theorem names_of_tasks_eq_error {g : Graph} {config₀ config : Config}
    (h : g.catalog.Regular config₀) {conflict : OutputConflict}
    (hrefused : g.tasks config = .error conflict) :
    conflict.Names g.queries g.catalog.root config := by
  have hconflict : RenderTask.conflict? (g.queries.map (g.taskOf config)) = some conflict := by
    rw [tasks] at hrefused
    rcases hconflict : RenderTask.conflict? (g.queries.map (g.taskOf config)) with _ | conflict'
    · simp only [hconflict, reduceCtorEq] at hrefused
    · simp only [hconflict, Except.error.injEq] at hrefused
      rw [hrefused]
  rw [RenderTask.conflict?, Option.map_eq_some_iff] at hconflict
  rcases hconflict with ⟨t, hfind, rfl⟩
  have hmany := List.find?_some hfind
  rw [decide_eq_true_eq] at hmany
  have hpaths : (RenderTask.withOutput (g.queries.map (g.taskOf config)) t.output).map
      RenderTask.path = (g.queries.filter fun q =>
        q.outputPath g.catalog.root config = t.output).map Source.path := by
    rw [RenderTask.withOutput, List.filter_map, List.map_map]
    refine congrArg₂ List.map rfl (List.filter_congr (fun q _ => ?_))
    rw [Function.comp_apply, taskOf, beq_eq_decide]
  have hascending : ((g.queries.filter fun q =>
      q.outputPath g.catalog.root config = t.output).map Source.path).Pairwise (· < ·) :=
    List.pairwise_map.mpr ((h.ascending.filter _).filter _)
  have hsorted : sortedSet ((RenderTask.withOutput (g.queries.map (g.taskOf config))
      t.output).map RenderTask.path) = (g.queries.filter fun q =>
        q.outputPath g.catalog.root config = t.output).map Source.path := by
    rw [hpaths, sortedSet_of_pairwise hascending]
  refine ⟨hsorted, hsorted ▸ hascending, ?_⟩
  rw [hsorted, ← hpaths, List.length_map]
  exact hmany

/-- Tasks that are not refused are one for each query. -/
theorem plans_of_tasks_eq_ok {g : Graph} {config₀ config : Config}
    (h : g.catalog.Regular config₀) (hcycle : ∀ q ∈ g.queries, ¬ g.ReachesCycle q.path)
    {ts : List RenderTask} (hts : g.tasks config = .ok ts) : g.Plans config ts := by
  have hconflict : RenderTask.conflict? (g.queries.map (g.taskOf config)) = none := by
    rw [tasks] at hts
    rcases hconflict : RenderTask.conflict? (g.queries.map (g.taskOf config)) with _ | conflict
    · rfl
    · simp only [hconflict, reduceCtorEq] at hts
  have hdistinct := RenderTask.conflict?_eq_none_iff.mp hconflict
  rw [tasks_eq_ok hts]
  refine ⟨?_, ?_, ?_, hdistinct, ?_, ?_, ?_⟩
  · rw [List.map_map]
    exact List.map_id _
  · rw [List.map_map]
    exact List.pairwise_map.mpr (h.ascending.filter _)
  · intro t ht
    rcases List.mem_map.mp ht with ⟨q, _, rfl⟩
    rw [taskOf]
  · intro t ht
    rcases List.mem_map.mp ht with ⟨q, hq, rfl⟩
    rcases exists_closure? (hcycle q hq) with ⟨closure, hclosure, hspec⟩
    rw [taskOf, hclosure]
    exact ⟨hclosure, hspec⟩
  · rfl
  · rw [map_output_taskOf] at hdistinct
    rw [outputIndex_of_nodup hdistinct, List.map_map]
    refine List.map_congr_left (fun q _ => ?_)
    rw [Function.comp_apply, taskOf, RenderTask.path]

/-- Conflicts of outputs are found exactly. Take a graph of a tree and any
    configuration. Tasks are refused iff two queries have one name without their
    suffixes; then the report names an output that several queries have, and lists
    these. Otherwise there is one task for each query. -/
theorem tasks_conflict {fs : FileSystem} {root : Path} {config₀ config₁ : Config}
    {notes : Catalog.Notes} {c : Catalog} {g : Graph} (hfs : fs.Proper)
    (hcatalog : Catalog.build fs root config₀ = (notes, .ok c))
    (hgraph : Graph.build c config₁ = .ok g) (config : Config) :
    ((∃ conflict, g.tasks config = .error conflict) ↔
      ∃ q ∈ g.queries, ∃ q' ∈ g.queries, q ≠ q' ∧ q.logicalName = q'.logicalName) ∧
    (∀ conflict, g.tasks config = .error conflict →
      conflict.Names g.queries g.catalog.root config) ∧
    ∀ ts, g.tasks config = .ok ts → g.Plans config ts := by
  rcases build_eq_ok_iff.mp hgraph with ⟨_, heq, hcycle⟩
  have hregular : g.catalog.Regular config₀ := by
    rw [heq]
    exact Catalog.regular_of_build hfs hcatalog
  exact ⟨exists_tasks_eq_error_iff hregular config, fun _ => names_of_tasks_eq_error hregular,
    fun _ => plans_of_tasks_eq_ok hregular hcycle⟩

/-- Queries have either of two suffixes. -/
def twinConfig : Config :=
  { Config.default with querySuffixes := [".sql.tmpl", ".sql.j2"], includeIgnored := true }

/-- The catalog of two queries that differ in their suffixes. -/
def twinCatalog : Catalog :=
  ⟨⟨"/", []⟩,
    [⟨"a.sql.j2", ⟨"/", ["a.sql.j2"]⟩, .query, ".sql.j2", "1",
        Sha256.hexDigest (Text.Utf8.encode "1")⟩,
      ⟨"a.sql.tmpl", ⟨"/", ["a.sql.tmpl"]⟩, .query, ".sql.tmpl", "2",
        Sha256.hexDigest (Text.Utf8.encode "2")⟩]⟩

theorem isFlat_twinCatalog : twinCatalog.IsFlat := by
  constructor
  · intro s hs
    simp only [twinCatalog, List.mem_cons, List.not_mem_nil, or_false] at hs
    rcases hs with rfl | rfl
    all_goals rfl
  · intro s hs
    simp only [twinCatalog, List.mem_cons, List.not_mem_nil, or_false] at hs
    rcases hs with rfl | rfl
    all_goals decide

/-- Two queries that differ in their suffixes have one output, and are
    reported. -/
theorem tasks_conflict_twins : ∃ notes g conflict,
    Catalog.build (twoFiles "a.sql.j2" "a.sql.tmpl" (Text.Utf8.encode "1") (Text.Utf8.encode "2"))
      ⟨"/", []⟩ twinConfig = (notes, .ok twinCatalog) ∧
    Graph.build twinCatalog twinConfig = .ok g ∧ g.tasks twinConfig = .error conflict ∧
    conflict.Names g.queries g.catalog.root twinConfig := by
  have hlt : "a.sql.j2" < "a.sql.tmpl" := by decide
  have hleft : IsName "a.sql.j2" := ⟨by decide, by decide, by decide, by decide, by decide⟩
  have hright : IsName "a.sql.tmpl" := ⟨by decide, by decide, by decide, by decide, by decide⟩
  have hkinds : classify "a.sql.j2" twinConfig = some (.query, ".sql.j2") ∧
      classify "a.sql.tmpl" twinConfig = some (.query, ".sql.tmpl") := by
    decide
  have hcatalog : Catalog.build
      (twoFiles "a.sql.j2" "a.sql.tmpl" (Text.Utf8.encode "1") (Text.Utf8.encode "2"))
      ⟨"/", []⟩ twinConfig = ([], .ok twinCatalog) := by
    have hsources : Catalog.ofSources ⟨"/", []⟩ twinCatalog.sources = twinCatalog := by
      have hsorted : twinCatalog.sources.Pairwise fun s t => Catalog.before s t = true := by
        rw [twinCatalog, List.pairwise_pair, Catalog.before]
        decide
      rw [Catalog.ofSources, List.mergeSort_of_pairwise hsorted]
      rfl
    rw [Catalog.build_twoFiles _ _ hlt hleft hright rfl
      (Catalog.readSource_of_root hleft (by decide) hkinds.1 (find?_twoFiles_left _ _))
      (Catalog.readSource_of_root hright (by decide) hkinds.2 (find?_twoFiles_right _ _ hlt)),
      List.reduceOption_cons_of_some, List.reduceOption_cons_of_some, List.reduceOption_nil]
    exact congrArg (fun c => ([], Except.ok c)) hsources
  have hgraph := @build_of_isFlat twinCatalog twinConfig isFlat_twinCatalog
  have htasks := tasks_conflict (proper_twoFiles _ _ hlt hleft hright) hcatalog hgraph twinConfig
  rcases htasks.1.mpr ⟨_, List.mem_cons_self, _, List.mem_cons_of_mem _ List.mem_cons_self,
    by decide, by decide⟩ with ⟨conflict, hconflict⟩
  exact ⟨_, _, conflict, hcatalog, hgraph, hconflict, htasks.2.1 conflict hconflict⟩

end Graph

end Stencil
