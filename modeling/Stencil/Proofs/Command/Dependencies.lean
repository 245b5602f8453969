import Stencil.Command.Run
import Stencil.Proofs.Build.Report
import Stencil.Proofs.Render.Watch

/-!
# Dependency Reports

Every report of what a query depends on is made from one list.

The graph, the task, the result, the watch set and the lines for a build tool
each compute what a query depends on by themselves. Some sort before the query
is put in front and some after, some sort before the root is put in front of
the paths and some after. `DependsOn` fixes the one list that all of them show:
the query, then what it reaches in ascending order.

Sorting before or after the root is put in front makes no difference, because
every path below the root starts with the same text. `Path.lead` is that text.
It needs templates to be named by relative paths, as those of a tree are; the
root would be dropped from in front of an absolute one.

## Main definitions

* `Path.lead`: What the text of a path below a root starts with.
* `Graph.DependsOn`: All reports about a query show one list.
* `BuildReport.rerunPaths`: The paths that a build lists for a build tool.

## Theorems

* `Path.text_child_wayText`: A path below a root is the lead and the way to it.
* `Graph.dependsOn`: All reports about a query show one list.
* `Graph.absolutePaths_eq`: Sorting absolute paths changes nothing.
* `Graph.dependency_reports_agree`: All dependency reports agree.
-/

namespace Stencil

/-- What the text of a path below a root starts with. -/
def Path.lead (root : Path) : String :=
  root.root ++ if root.parts = [] then "" else Text.joinStrings "/" root.parts ++ "/"

/-- A path below a root is the lead and the way to it. -/
theorem Path.text_child_wayText (root : Path) {way : List String} (hne : way ≠ [])
    (h : ∀ n ∈ way, IsPiece n) : (root.child (wayText way)).text = root.lead ++ wayText way := by
  have hchild : root.child (wayText way) = ⟨root.root, root.parts ++ way⟩ := by
    rw [child, ofString_wayText hne h]
    rfl
  have hfull : (root.parts ++ way).isEmpty = false := by
    rw [List.isEmpty_eq_false_iff]
    exact List.append_ne_nil_of_right_ne_nil _ hne
  rw [hchild, text, hfull, Bool.and_false, if_neg Bool.false_ne_true, lead]
  by_cases hroot : root.parts = []
  · rw [hroot, if_pos rfl, List.nil_append, String.append_empty, wayText]
  · rw [if_neg hroot, Text.joinStrings_append "/" hroot hne, wayText]
    simp only [String.append_assoc]

/-- A text put in front of all keeps their order. -/
theorem pairwise_map_append (lead : String) {ss : List String} (h : ss.Pairwise (· < ·)) :
    (ss.map (lead ++ ·)).Pairwise (· < ·) := by
  rw [List.pairwise_map]
  refine h.imp (fun {a b} hab => ?_)
  rw [String.lt_iff] at hab ⊢
  rw [String.toList_append, String.toList_append]
  exact List.append_left_lt hab

namespace Graph

variable {c : Catalog} {config : Config} {g : Graph}

/-- All reports about a query show one list: the query and then its closure, of
    which the query is no member. -/
structure DependsOn (g : Graph) (query : String) (closure : List String) : Prop where
  /-- The closure is what the query reaches, ascending. -/
  isClosure : g.IsClosure query closure
  /-- The query does not reach itself. -/
  notMem : query ∉ closure
  /-- What is reached are templates that can be referred to. -/
  importable : ∀ p ∈ closure, ∃ s ∈ g.catalog.importables, s.path = p
  /-- The graph finds the closure. -/
  closure? : g.closure? query = some closure
  /-- The graph lists it after the query. -/
  dependencies? : g.dependencies? query = some (query :: closure)
  /-- The query has a task, and its tasks list it. -/
  task : ∀ config ts, g.tasks config = .ok ts →
    (∃ t ∈ ts, t.path = query) ∧ ∀ t ∈ ts, t.path = query → t.dependencies = query :: closure
  /-- What comes of its tasks lists it. -/
  result : ∀ config ts context, g.tasks config = .ok ts →
    ∀ r ∈ (g.runTasks context ts).results, r.source = query → r.dependencies = query :: closure
  /-- The watch set is the same list, sorted. -/
  watchSet : g.watchSet query = sortTexts (query :: closure)

theorem DependsOn.nodup {query : String} {closure : List String}
    (h : g.DependsOn query closure) : (query :: closure).Nodup :=
  List.nodup_cons.mpr ⟨h.notMem, h.isClosure.ascending.imp (fun hab => String.ne_of_lt hab)⟩

/-- All reports about a query show one list. -/
theorem dependsOn (hg : Graph.build c config = .ok g) {q : Source} (hq : q ∈ g.queries) :
    ∃ closure, g.DependsOn q.path closure := by
  rcases build_eq_ok_iff.mp hg with ⟨_, heq, hcycle⟩
  rcases exists_closure? (hcycle q hq) with ⟨closure, hfound, hclosure⟩
  have hself : q.path ∉ closure := by
    intro hmem
    exact hcycle q hq ⟨q.path, Or.inl rfl, (hclosure.mem_iff _).mp hmem⟩
  have htask : ∀ (config : Config) (s : Source), s.path = q.path →
      (g.taskOf config s).dependencies = q.path :: closure := by
    intro config s hs
    rw [RenderTask.dependencies, RenderTask.path, taskOf]
    simp only [hs, hfound, Option.getD_some]
  refine ⟨closure, hclosure, hself, fun p hp => ?_, hfound, ?_, fun config ts hts => ?_,
    fun config ts context hts r hr hpath => ?_, ?_⟩
  · have hreach := (hclosure.mem_iff p).mp hp
    rw [heq] at hreach ⊢
    exact importable_of_reaches hreach
  · rw [dependencies?, hfound, Option.map_some]
  · rw [tasks_eq_ok hts]
    refine ⟨⟨g.taskOf config q, List.mem_map_of_mem hq, rfl⟩, fun t ht hpath => ?_⟩
    rcases List.mem_map.mp ht with ⟨s, _, rfl⟩
    exact htask config s hpath
  · rcases mem_results_runTasks.mp hr with ⟨t, ht, hrun⟩
    rcases run_eq_ok_iff.mp hrun with ⟨text, _, rfl⟩
    rw [tasks_eq_ok hts] at ht
    rcases List.mem_map.mp ht with ⟨s, _, rfl⟩
    exact htask config s hpath
  · -- The query is no member of its closure, so sorting drops nothing.
    have hnodup : (q.path :: closure).Nodup :=
      List.nodup_cons.mpr ⟨hself, hclosure.ascending.imp (fun hab => String.ne_of_lt hab)⟩
    rw [watchSet, watchSet?, hfound, Option.map_some, Option.getD_some, sortedSet,
      eraseDups_of_nodup hnodup]

theorem mem_watchSet (hg : Graph.build c config = .ok g) {q : Source} (hq : q ∈ g.queries)
    (p : String) : p ∈ g.watchSet q.path ↔ p = q.path ∨ g.Reaches q.path p := by
  rcases dependsOn hg hq with ⟨closure, h⟩
  rw [h.watchSet, mem_sortTexts, List.mem_cons, h.isClosure.mem_iff]

/-- All that is watched is a query or reached by one. -/
theorem mem_watched (hg : Graph.build c config = .ok g) (p : String) :
    p ∈ g.watched ↔ ∃ q ∈ g.queries, p = q.path ∨ g.Reaches q.path p := by
  rw [watched, mem_sortedSet, watchSets, List.flatMap_map, List.mem_flatMap]
  exact exists_congr (fun q => and_congr_right (fun hq => mem_watchSet hg hq p))

/-- Adding outputs to the index lists no query but theirs. -/
theorem mem_foldl_outputIndex (root : Path) (config : Config) (qs : List Source) :
    ∀ (index : List (Path × String)) (entry : Path × String),
      entry ∈ qs.foldl (fun index q =>
        let output := q.outputPath root config
        index.filter (·.1 != output) ++ [(output, q.path)]) index →
      entry ∈ index ∨ ∃ q ∈ qs, entry.2 = q.path := by
  induction qs with
  | nil => exact fun _ _ h => Or.inl h
  | cons q qs ih =>
      intro index entry h
      rw [List.foldl_cons] at h
      rcases ih _ entry h with h | ⟨q', hq', hpath⟩
      · rcases List.mem_append.mp h with hold | hnew
        · exact Or.inl (List.mem_filter.mp hold).1
        · rw [List.mem_singleton.mp hnew]
          exact Or.inr ⟨q, List.mem_cons_self, rfl⟩
      · exact Or.inr ⟨q', List.mem_cons_of_mem q hq', hpath⟩

theorem exists_of_lookup_outputIndex {config : Config} {output : Path} {query : String}
    (h : (g.outputIndex config).lookup output = some query) : ∃ q ∈ g.queries, query = q.path := by
  rcases mem_foldl_outputIndex _ _ _ [] _ (mem_of_lookup h) with hnil | hquery
  · exact absurd hnil List.not_mem_nil
  · exact hquery

/-- The query of an output is a query of the graph. -/
theorem exists_of_queryForOutput {fs : FileSystem} {config : Config} {output query : String}
    (h : g.queryForOutput fs config output = .ok query) : ∃ q ∈ g.queries, query = q.path := by
  simp only [queryForOutput] at h
  -- Whichever of its two paths the output is found under, the index lists queries.
  split at h
  · cases h
  · split at h
    · cases h
    · split at h
      · next hreal =>
          rw [← Except.ok.inj h]
          exact exists_of_lookup_outputIndex hreal
      · next hpath =>
          rw [← Except.ok.inj h]
          exact exists_of_lookup_outputIndex hpath
      · cases h

/-- A listing is of all that is watched, or of what one query watches. -/
theorem watchPaths_eq_ok {fs : FileSystem} {config : Config} {output : Option String}
    {paths : List String} (h : g.watchPaths fs config output = .ok paths) :
    paths = g.watched ∨ ∃ q ∈ g.queries, paths = g.watchSet q.path := by
  cases output with
  | none => exact Or.inl (Except.ok.inj h).symm
  | some output =>
      rw [watchPaths] at h
      rcases hquery : g.queryForOutput fs config output with why | query
      · rw [hquery] at h
        cases h
      · rw [hquery] at h
        rcases exists_of_queryForOutput hquery with ⟨q, hq, rfl⟩
        exact Or.inr ⟨q, hq, (Except.ok.inj h).symm⟩

/-- Sorting absolute paths changes nothing: they ascend as the relative ones
    do. -/
theorem absolutePaths_eq (hc : g.catalog.Named) {paths : List String}
    (hsorted : paths.Pairwise (· < ·)) (hmem : ∀ p ∈ paths, ∃ s ∈ g.catalog.sources, s.path = p) :
    (g.absolutePaths paths = paths.map fun p => (g.catalog.root.child p).text) ∧
      g.absolutePaths paths = paths.map (g.catalog.root.lead ++ ·) := by
  -- The same text comes to stand in front of all, which leaves them in order.
  have htext : (paths.map fun p => (g.catalog.root.child p).text) =
      paths.map (g.catalog.root.lead ++ ·) := by
    refine List.map_congr_left (fun p hp => ?_)
    rcases hmem p hp with ⟨s, hs, rfl⟩
    rcases hc s hs with ⟨way, hne, hnames, hpath⟩
    rw [hpath]
    exact Path.text_child_wayText _ hne (fun n hn => (hnames n hn).isPiece)
  rw [absolutePaths, htext, sortedSet_of_pairwise (pairwise_map_append _ hsorted)]
  exact ⟨rfl, rfl⟩

/-- What is watched and listed is a template of the catalog. -/
theorem exists_source_of_watched (hg : Graph.build c config = .ok g) {p : String}
    (hp : p ∈ g.watched) : ∃ s ∈ g.catalog.sources, s.path = p := by
  rcases (mem_watched hg p).mp hp with ⟨q, hq, rfl | hreach⟩
  · exact ⟨q, (List.mem_filter.mp hq).1, rfl⟩
  · rcases build_eq_ok_iff.mp hg with ⟨_, rfl, _⟩
    rcases importable_of_reaches hreach with ⟨s, hs, hpath⟩
    exact ⟨s, (List.mem_filter.mp hs).1, hpath⟩

/-- Every listing, made absolute, is the same list with the root in front. -/
theorem absolutePaths_of_watchPaths (hg : Graph.build c config = .ok g)
    (hc : g.catalog.Named) {fs : FileSystem} {config' : Config} {output : Option String}
    {paths : List String} (h : g.watchPaths fs config' output = .ok paths) :
    (g.absolutePaths paths = paths.map fun p => (g.catalog.root.child p).text) ∧
      g.absolutePaths paths = paths.map (g.catalog.root.lead ++ ·) := by
  rcases watchPaths_eq_ok h with rfl | ⟨q, hq, rfl⟩
  · exact absolutePaths_eq hc (sortedSet_pairwise _) (fun p => exists_source_of_watched hg)
  · refine absolutePaths_eq hc ?_ (fun p hp => exists_source_of_watched hg ?_)
    · rcases dependsOn hg hq with ⟨closure, hdeps⟩
      rw [watchSet, watchSet?, hdeps.closure?, Option.map_some, Option.getD_some]
      exact sortedSet_pairwise _
    · exact (mem_watched hg p).mpr ⟨q, hq, (mem_watchSet hg hq p).mp hp⟩

end Graph

/-- The paths that a build lists for a build tool. -/
def BuildReport.rerunPaths (r : BuildReport) : List String :=
  r.watched.map fun p => (r.root.child p).text

/-- A build that is asked for lines for a build tool shows these paths first. -/
theorem Command.showBuild_of_printRerun {o : BuildOptions} (h : o.printRerun = true) (c : Config)
    (r : BuildReport) :
    (showBuild o c r).1 = (rerunLines rerunMark r.rerunPaths).flatMap cleanLines := by
  simp only [showBuild, if_pos h, BuildReport.rerunPaths]
  by_cases hdocument : o.asDocument = true
  · rw [if_pos hdocument]
  · rw [if_neg hdocument]
    split
    · rfl
    · split
      · rfl
      · rfl

/-- All dependency reports agree. In the graph of a catalog, everything that is
    reported about a query shows one list without duplicates, the query and
    then its closure in ascending order, and the watch set is that list sorted;
    a build reports the same watch sets. What is watched in all ascends without
    duplicates and is what some query is or reaches. Where templates are named
    by relative paths, a listing of all, or of what one output depends on,
    becomes absolute by putting the same text in front of every path, in the
    same order; and the absolute listing of all is what a build of the graph
    lists for a build tool. -/
theorem Graph.dependency_reports_agree {c : Catalog} {config : Config} {g : Graph}
    (hg : Graph.build c config = .ok g) :
    (∀ q ∈ g.queries, ∃ closure, (q.path :: closure).Nodup ∧ g.DependsOn q.path closure) ∧
    (∀ fs config', g.watchPaths fs config' none = .ok g.watched) ∧
    g.watched.Pairwise (· < ·) ∧
    (∀ p, p ∈ g.watched ↔ ∃ q ∈ g.queries, p = q.path ∨ g.Reaches q.path p) ∧
    (∀ fs config' fs' r, buildGraph fs g config' = (fs', .ok r) → r.watch = g.watchSets ∧
      ∃ ts, g.tasks config' = .ok ts ∧ r.results = (g.runTasks config'.context ts).results) ∧
    (c.Named →
      (∀ fs config' output paths, g.watchPaths fs config' output = .ok paths →
        (g.absolutePaths paths = paths.map fun p => (g.catalog.root.child p).text) ∧
        g.absolutePaths paths = paths.map (g.catalog.root.lead ++ ·)) ∧
      ∀ fs config' fs' r, buildGraph fs g config' = (fs', .ok r) →
        r.rerunPaths = g.absolutePaths g.watched ∧
        ∀ o, o.printRerun = true → (Command.showBuild o config' r).1 =
          Command.showWatch ⟨none, true, .cargo⟩ g g.watched) := by
  have hcatalog : g.catalog = c := by
    rcases build_eq_ok_iff.mp hg with ⟨_, rfl, _⟩
    rfl
  refine ⟨fun q hq => ?_, fun _ _ => rfl, sortedSet_pairwise _, mem_watched hg,
    fun fs config' fs' r h => ?_, fun hc => ?_⟩
  · rcases dependsOn hg hq with ⟨closure, hdeps⟩
    exact ⟨closure, hdeps.nodup, hdeps⟩
  · rcases buildGraph_eq_ok_iff.mp h with ⟨hconflict, w, _, rfl⟩
    refine ⟨rfl, g.queries.map (g.taskOf config'), ?_, rfl⟩
    simp only [tasks, hconflict]
  · rw [← hcatalog] at hc
    have habsolute := fun fs config' output paths =>
      @absolutePaths_of_watchPaths c config g hg hc fs config' output paths
    refine ⟨habsolute, fun fs config' fs' r h => ?_⟩
    have hrerun : r.rerunPaths = g.absolutePaths g.watched := by
      rcases buildGraph_eq_ok_iff.mp h with ⟨_, w, _, rfl⟩
      exact (habsolute fs config' none g.watched rfl).1.symm
    refine ⟨hrerun, fun o ho => ?_⟩
    rw [Command.showBuild_of_printRerun ho, hrerun]
    rfl

/-- A query reaches what it includes, and nothing else does. -/
theorem reaches_greeting_iff {aside u v : String} (h : Reference.scan aside = []) :
    (greetingGraph aside).Reaches u v ↔ u = "greet.sql.tmpl" ∧ v = "who.partial.tmpl" := by
  refine ⟨reaches_greeting h, ?_⟩
  rintro ⟨rfl, rfl⟩
  refine Graph.Needs.reaches ((Graph.exact_ofCollected _ _).needs_iff.mpr
    ⟨("greet.sql.tmpl", ⟨"who", .includes, 1, false⟩), ?_, rfl, candidates_greeting aside⟩)
  rw [occurrences_greeting h]
  exact List.mem_singleton_self _

/-- A query that includes a template depends on both, which are watched as they
    are and below the root. -/
theorem Graph.dependency_reports_agree_greeting :
    (greetingCatalog "hello").Named ∧
    Graph.build (greetingCatalog "hello") greetingConfig = .ok (greetingGraph "hello") ∧
    (greetingGraph "hello").DependsOn "greet.sql.tmpl" ["who.partial.tmpl"] ∧
    (greetingGraph "hello").watched = ["greet.sql.tmpl", "who.partial.tmpl"] ∧
    (greetingGraph "hello").absolutePaths (greetingGraph "hello").watched =
      ["/greet.sql.tmpl", "/who.partial.tmpl"] := by
  have hscan : Reference.scan "hello" = [] := by decide
  have hnamed : (greetingCatalog "hello").Named := by
    intro s hs
    rcases List.mem_cons.mp hs with rfl | hs
    · exact ⟨["aside.partial.tmpl"], by decide, by decide, rfl⟩
    · rcases List.mem_cons.mp hs with rfl | hs
      · exact ⟨["greet.sql.tmpl"], by decide, by decide, rfl⟩
      · rw [List.mem_singleton.mp hs]
        exact ⟨["who.partial.tmpl"], by decide, by decide, rfl⟩
  have hqueries : (greetingGraph "hello").queries = [(greetingCatalog "hello").sources[1]] := rfl
  rcases dependency_reports_agree (buildGraph_greeting hscan) with
    ⟨hlists, hlisted, hsorted, hwatched, _, habsolute⟩
  rcases hlists _ (hqueries ▸ List.mem_singleton_self _) with ⟨closure, _, hdeps⟩
  have hclosure : closure = ["who.partial.tmpl"] := by
    refine eq_of_pairwise_lt hdeps.isClosure.ascending (List.pairwise_singleton _ _) (fun v => ?_)
    rw [hdeps.isClosure.mem_iff, reaches_greeting_iff hscan, List.mem_singleton]
    exact and_iff_right rfl
  have hall : (greetingGraph "hello").watched = ["greet.sql.tmpl", "who.partial.tmpl"] := by
    refine eq_of_pairwise_lt hsorted (List.pairwise_pair.mpr (by decide)) (fun p => ?_)
    rw [hwatched, hqueries, List.mem_cons, List.mem_singleton]
    simp only [List.mem_singleton, exists_eq_left, reaches_greeting_iff hscan]
    exact or_congr_right (and_iff_right rfl)
  refine ⟨hnamed, buildGraph_greeting hscan, hclosure ▸ hdeps, hall, ?_⟩
  rw [((habsolute hnamed).1 (greeting "hello") greetingConfig none _ (hlisted _ _)).2, hall]
  decide

end Stencil
