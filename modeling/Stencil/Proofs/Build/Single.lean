import Stencil.Proofs.Build.Frame
import Stencil.Proofs.Config.Accepted
import Stencil.Proofs.FileSystem.LinkFree
import Stencil.Proofs.Render.Loads

/-!
# Trees of One Query

What a build does with one query that refers to nothing.

There is no edge then, so the query is its own closure and the only output is
the one that it renders to. A build is one write. Trees of this kind are small
enough to be looked at in full, and they show what builds can do.

## Main definitions

* `Catalog.IsSingle`: The catalog has one query that refers to nothing.
* `answer`: The query of the tree `oneQuery`.

## Theorems

* `Graph.outputs_of_isSingle`: There is one output.
* `Graph.render_of_isSingle`: Text alone renders to itself.
* `build_of_isSingle`: A build is one write.
* `catalog_oneQuery`, `render_oneQuery`: How that goes for `oneQuery`.
-/

namespace Stencil

namespace Template

theorem runJob_root {lib : Library} {path : String} {page : Page} (h : lib.load path = .ok page)
    (n ctx : Nat) : runJob lib (n + 1) (.root path ctx) =
      Run.capture true (runRoot ⟨lib, runJob lib n⟩ page ctx) := by
  rw [runJob, perform]
  simp only [h]
  rfl

/-- A template of text alone renders to its text. -/
theorem render_data {lib : Library} {path s : String}
    (h : lib.load path = .ok ⟨path, [.data s], []⟩) : render lib path = .ok s := by
  simp only [render, h, jobDepth, runJob_root h 194]
  rfl

theorem Page.read_data {text s : String} (h : parse text = .ok [.data s]) (path : String) :
    read path text = .ok ⟨path, [.data s], []⟩ := by
  rw [read, h]
  rfl

end Template

/-- The templates of the catalog are queries that refer to nothing. -/
structure Catalog.IsFlat (c : Catalog) : Prop where
  /-- They are queries. -/
  kind : ∀ s ∈ c.sources, s.kind = .query
  /-- They refer to nothing. -/
  scan : ∀ s ∈ c.sources, Reference.scan s.content = []

/-- The catalog has one query that refers to nothing. -/
structure Catalog.IsSingle (c : Catalog) (query : Source) : Prop where
  /-- There is no other template. -/
  sources : c.sources = [query]
  /-- It is a query. -/
  kind : query.kind = .query
  /-- It refers to nothing. -/
  scan : Reference.scan query.content = []

/-- What comes of a query that refers to nothing. -/
def Source.alone (s : Source) (root : Path) (config : Config) (text : String) : Rendered :=
  ⟨s.path, s.outputPath root config, text, [s.path]⟩

section Flat

variable {c : Catalog} {config : Config} {query : Source}

theorem Catalog.IsSingle.isFlat (h : c.IsSingle query) : c.IsFlat := by
  constructor
  · intro s hs
    rw [h.sources, List.mem_singleton] at hs
    rw [hs]
    exact h.kind
  · intro s hs
    rw [h.sources, List.mem_singleton] at hs
    rw [hs]
    exact h.scan

theorem Catalog.IsFlat.occurrences (h : c.IsFlat) : c.occurrences = [] := by
  rw [Catalog.occurrences, List.flatMap_eq_nil_iff]
  intro s hs
  rw [Source.occurrences, h.scan s hs]
  rfl

theorem Catalog.IsFlat.queries (h : c.IsFlat) : c.queries = c.sources := by
  rw [Catalog.queries, List.filter_eq_self]
  intro s hs
  rw [h.kind s hs]
  rfl

theorem Catalog.IsSingle.queries (h : c.IsSingle query) : c.queries = [query] :=
  h.isFlat.queries.trans h.sources

namespace Graph

theorem not_needs_of_isFlat (h : c.IsFlat) (u v : String) :
    ¬ (ofCollected c config).Needs u v := by
  intro hneeds
  rcases (exact_ofCollected c config).needs_iff.mp hneeds with ⟨o, ho, _⟩
  rw [h.occurrences] at ho
  exact absurd ho List.not_mem_nil

theorem not_reaches_of_isFlat (h : c.IsFlat) (u v : String) :
    ¬ (ofCollected c config).Reaches u v := by
  intro hreach
  rcases reaches_iff.mp hreach with ⟨w, hneeds, _⟩
  exact not_needs_of_isFlat h u w hneeds

theorem not_reachesCycle_of_isFlat (h : c.IsFlat) (path : String) :
    ¬ (ofCollected c config).ReachesCycle path := by
  intro hcycle
  rcases hcycle with ⟨v, _, hreach⟩
  exact not_reaches_of_isFlat h v v hreach

theorem build_of_isFlat (h : c.IsFlat) : Graph.build c config = .ok (ofCollected c config) := by
  refine build_eq_ok_iff.mpr ⟨fun o ho => ?_, rfl, fun q _ => not_reachesCycle_of_isFlat h q.path⟩
  rw [h.occurrences] at ho
  exact absurd ho List.not_mem_nil

theorem closure?_of_isFlat (h : c.IsFlat) (path : String) :
    (ofCollected c config).closure? path = some [] := by
  rcases @exists_closure? (ofCollected c config) path (not_reachesCycle_of_isFlat h path) with
    ⟨closure, hclosure, hspec⟩
  have hnil : closure = [] := by
    refine List.eq_nil_iff_forall_not_mem.mpr (fun v hv => ?_)
    exact not_reaches_of_isFlat h path v ((hspec.mem_iff v).mp hv)
  rw [hclosure, hnil]

/-- A query that is text alone renders to its text. -/
theorem render_of_find? {c : Catalog} (hfind : c.find? query.path = some query) {s : String}
    (hparse : Template.parse query.content = .ok [.data s]) (context : List (String × Datum)) :
    (ofCollected c config).render context query.path [] = .ok s := by
  have hsources : (ofCollected c config).sourcesFor query.path [] =
      .ok [(query.path, query.content)] := by
    have hfind' : (ofCollected c config).catalog.find? query.path = some query := hfind
    have hnone : sortedSet ([] : List String) = [] := List.mergeSort_nil
    rw [sourcesFor, hnone, List.mapM_cons, contentOf, hfind']
    rfl
  have hload : ((ofCollected c config).library context query.path
      [(query.path, query.content)]).load query.path = .ok ⟨query.path, [.data s], []⟩ := by
    rw [library, Template.Library.load_ofTexts List.lookup_cons_self,
      Template.Page.read_data hparse]
  rw [render, hsources]
  exact Template.render_data hload

theorem render_of_isSingle (h : c.IsSingle query) {s : String}
    (hparse : Template.parse query.content = .ok [.data s]) (context : List (String × Datum)) :
    (ofCollected c config).render context query.path [] = .ok s := by
  refine render_of_find? ?_ hparse context
  rw [Catalog.find?, h.sources, List.find?_singleton, if_pos (beq_self_eq_true _)]

/-- Every query has an output. -/
theorem outputs_of_isFlat (h : c.IsFlat)
    (hascending : c.sources.Pairwise fun s t => s.path < t.path) {text : Source → String}
    (hrender : ∀ s ∈ c.sources,
      (ofCollected c config).render config.context s.path [] = .ok (text s)) :
    (ofCollected c config).outputs config =
      c.sources.map fun s => (s.outputPath c.root config, text s) := by
  have hrun : ((ofCollected c config).queries.map ((ofCollected c config).taskOf config)).map
      (RenderTask.run (ofCollected c config) config.context) =
        c.sources.map fun s => .ok (s.alone c.root config (text s)) := by
    rw [show (ofCollected c config).queries = c.sources from h.queries, List.map_map]
    refine List.map_congr_left (fun s hs => ?_)
    have htask : (ofCollected c config).taskOf config s = ⟨s, s.outputPath c.root config, []⟩ := by
      rw [taskOf, closure?_of_isFlat h]
      rfl
    simp only [Function.comp_apply, htask, RenderTask.run, RenderTask.path,
      RenderTask.dependencies, hrender s hs]
    rfl
  -- No task fails, so the results are the tasks, in order.
  have hresults : ∀ ss : List Source,
      (ss.map fun s => Except.ok (s.alone c.root config (text s))).filterMap
          RenderReport.resultOf? = ss.map fun s => s.alone c.root config (text s) := by
    intro ss
    induction ss with
    | nil => rfl
    | cons s ss ih => rw [List.map_cons, List.filterMap_cons, ih]; rfl
  -- The sources are in the order of their paths already, so sorting does nothing.
  have hsorted : (c.sources.map fun s => s.alone c.root config (text s)).Pairwise
      fun r r' => keyBefore Rendered.source r r' = true :=
    List.pairwise_map.mpr (hascending.imp
      (fun hlt => keyBefore_iff.mpr (String.not_lt.mp (String.lt_asymm hlt))))
  rw [outputs, runTasks, RenderReport.results_ofFinished, hrun, hresults,
    List.mergeSort_of_pairwise hsorted, List.map_map]
  simp only [Function.comp_def, Source.alone]

/-- There is one output. -/
theorem outputs_of_isSingle (h : c.IsSingle query) {text : String}
    (hrender : (ofCollected c config).render config.context query.path [] = .ok text) :
    (ofCollected c config).outputs config = [(query.outputPath c.root config, text)] := by
  have hflat := @outputs_of_isFlat c config h.isFlat (h.sources ▸ List.pairwise_singleton _ _)
    (fun _ => text) (fun s hs => ?_)
  · rw [hflat, h.sources]
    rfl
  · rw [h.sources, List.mem_singleton] at hs
    rw [hs]
    exact hrender

end Graph

/-- A build is one write. -/
theorem build_of_isSingle (h : c.IsSingle query) {fs : FileSystem} {root : Path}
    {notes : Catalog.Notes} (hc : Catalog.build fs root config = (notes, .ok c)) {text : String}
    (hrender : (Graph.ofCollected c config).render config.context query.path [] = .ok text) :
    (build fs root (some config)).files =
        (fs.write config.header (query.outputPath c.root config) text).1 ∧
      (Unrefused (fs.write config.header (query.outputPath c.root config) text).2 →
        ∃ r, (build fs root (some config)).report = .ok r ∧
          r.writes = WriteSummary.note {} (query.outputPath c.root config)
            (fs.write config.header (query.outputPath c.root config) text).2) := by
  have hload : loadGraph fs root config = (notes, .ok (Graph.ofCollected c config)) := by
    rw [loadGraph, hc]
    simp only [Graph.build_of_isFlat h.isFlat]
    rfl
  -- One output is in conflict with no other.
  have hconflict : RenderTask.conflict? ((Graph.ofCollected c config).queries.map
      ((Graph.ofCollected c config).taskOf config)) = none := by
    rw [show (Graph.ofCollected c config).queries = [query] from h.queries, List.map_singleton,
      RenderTask.conflict?, List.find?_singleton, RenderTask.withOutput]
    simp
  have houtputs := Graph.outputs_of_isSingle h hrender
  rw [Graph.outputs] at houtputs
  simp only [build, Option.elim, buildWith, hload, buildGraph, Graph.tasks, hconflict, houtputs,
    FileSystem.writeAll, FileSystem.writeFrom]
  rcases fs.write config.header (query.outputPath c.root config) text with ⟨fs', f | status⟩
  · simp only []
    by_cases hrefused : f.refusesPath = true
    · rw [if_pos hrefused]
      refine ⟨rfl, fun hunrefused => ?_⟩
      exact absurd (eq_of_beq hrefused) (hunrefused f rfl)
    · rw [if_neg hrefused]
      exact ⟨rfl, fun _ => ⟨_, rfl, rfl⟩⟩
  · exact ⟨rfl, fun _ => ⟨_, rfl, rfl⟩⟩

end Flat

/-- A configuration that only sets the extension of outputs. -/
def extensionConfig (extension : String) : Config :=
  { Config.default with includeIgnored := true, extension := extension }

theorem accepted_extensionConfig :
    (extensionConfig "sql").Accepted ∧ (extensionConfig "sql.tmpl").Accepted :=
  ⟨⟨[("include_ignored", .bool true)], rfl⟩,
    ⟨[("extension", .text "sql.tmpl"), ("include_ignored", .bool true)], rfl⟩⟩

/-- The query of the tree of one query. -/
def answer : Source :=
  ⟨"answer.sql.tmpl", ⟨"/", ["answer.sql.tmpl"]⟩, .query, ".sql.tmpl", "select 42",
    Sha256.hexDigest (Text.Utf8.encode "select 42")⟩

theorem names_oneQuery : oneQuery.names [] = ["answer.sql.tmpl"] :=
  List.mergeSort_of_pairwise (List.pairwise_singleton _ _)

theorem isFlat_oneQuery : oneQuery.IsFlat := by
  intro n hn
  rw [names_oneQuery, List.mem_singleton] at hn
  rw [hn]
  exact ⟨by decide, rfl⟩

theorem catalog_oneQuery (extension : String) :
    Catalog.build oneQuery ⟨"/", []⟩ (extensionConfig extension) =
      ([], .ok ⟨⟨"/", []⟩, [answer]⟩) := by
  have hkind : classify "answer.sql.tmpl" (extensionConfig extension) =
      some (.query, ".sql.tmpl") := by
    rw [show classify "answer.sql.tmpl" (extensionConfig extension) =
      classify "answer.sql.tmpl" Config.default from rfl]
    decide
  have hread : List.Forall₂ (fun n s => Catalog.readSource oneQuery (extensionConfig extension) n
      ⟨"/", [n]⟩ = .ok s) ["answer.sql.tmpl"] [some answer] :=
    .cons (Catalog.readSource_of_root (by decide) (by decide) hkind rfl) .nil
  rw [Catalog.build_of_isFlat isFlat_oneQuery rfl (names_oneQuery ▸ hread),
    List.reduceOption_singleton, Option.toList_some, Catalog.ofSources, List.mergeSort_singleton]

theorem isSingle_oneQuery : Catalog.IsSingle ⟨⟨"/", []⟩, [answer]⟩ answer :=
  ⟨rfl, rfl, by decide⟩

theorem render_oneQuery (extension : String) :
    (Graph.ofCollected ⟨⟨"/", []⟩, [answer]⟩ (extensionConfig extension)).render [] answer.path [] =
      .ok "select 42" :=
  Graph.render_of_isSingle isSingle_oneQuery rfl []

theorem linkFree_oneQuery : oneQuery.LinkFree := by
  refine FileSystem.linkFree_of_entries (fun entry hentry target => ?_)
  rw [List.mem_singleton.mp hentry]
  simp only [ne_eq, reduceCtorEq, not_false_eq_true]

end Stencil
