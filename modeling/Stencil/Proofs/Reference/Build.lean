import Stencil.Proofs.Reference.Closure
import Stencil.Proofs.Reference.Collect
import Stencil.Proofs.Reference.Cycle

/-!
# Exact Graphs

The graph of a catalog is what its references say, and every failure shows.

Building a graph can end in three ways: with the references that fail, with a
cycle, or with the graph. Which way it ends is settled by the catalog alone.
If a reference fails, all that fail are reported and nothing else. If none
does, there is a graph, and `Exact` says what it holds; it is refused if a
query reaches a cycle and given otherwise. The check that the ends of edges
are templates never speaks up, because an edge leads from a template that was
scanned to one that was found.

## Main definitions

* `Catalog.resolver`: The resolver of a catalog before it has answered.
* `Graph.Exact`: The graph holds what the references of a catalog say.
* `Graph.ofCollected`: The graph of a catalog before cycles are looked for.

## Theorems

* `Graph.exact_ofCollected`: What was collected makes an exact graph.
* `Graph.ofEdges_collected`: The check of the ends of its edges passes.
* `Graph.build_cases`: The three ways in which building ends.
* `Graph.build_eq_unresolved_iff`: A reference that fails refuses the graph.
* `Graph.exists_build_eq_cycle_iff`: Without one, a cycle refuses it.
* `Graph.build_eq_ok_iff`: Without both, the graph is built.
* `Graph.build_reports_exactly`: How building ends, and what it gives.
-/

namespace Stencil

/-- The resolver of a catalog before it has answered anything. -/
def Catalog.resolver (c : Catalog) (config : Config) : Resolver :=
  Resolver.ofCatalog c config.partialsDir

/-- A template of a catalog is found in it. -/
theorem Catalog.has_iff {c : Catalog} {path : String} :
    c.has path = true ↔ ∃ s ∈ c.sources, s.path = path := by
  rw [has, find?, List.find?_isSome]
  simp only [beq_iff_eq]

/-- What a name can mean in a catalog is a template that can be referred to. -/
theorem Catalog.importable_of_candidate {c : Catalog} {config : Config}
    {o : Occurrence} {path : String} (h : path ∈ (c.resolver config).candidates o) :
    ∃ s ∈ c.importables, s.path = path := by
  rcases Resolver.mem_search h with ⟨key, hkey⟩
  rw [resolver, Resolver.ofCatalog] at hkey
  rcases List.mem_flatMap.mp hkey with ⟨s, hs, hmem⟩
  simp only [List.mem_cons, Prod.mk.injEq, List.not_mem_nil, or_false] at hmem
  rcases hmem with ⟨_, hpath⟩ | ⟨_, hpath⟩
  · exact ⟨s, hs, hpath.symm⟩
  · exact ⟨s, hs, hpath.symm⟩

namespace Graph

/-- The graph holds what the references of a catalog say: an edge for each
    that means one template, and what each of these names means. -/
structure Exact (c : Catalog) (config : Config) (g : Graph) : Prop where
  /-- The templates are those of the catalog. -/
  catalog : g.catalog = c
  /-- No edge is listed twice. -/
  nodup : g.edges.Nodup
  /-- An edge is a reference of its kind that means its target. -/
  mem_edges : ∀ path target kind, ⟨path, target, kind⟩ ∈ g.edges ↔
    ∃ o ∈ c.occurrences, o.1 = path ∧ o.2.tag.kind = kind ∧
      (c.resolver config).candidates o = [target]
  /-- The table has what each name means, where that is one template. -/
  resolve_eq_some : ∀ path name target, g.resolve path name = some target ↔
    ∃ o ∈ c.occurrences, o.1 = path ∧ o.2.name = name ∧
      (c.resolver config).candidates o = [target]
  /-- Edges start at templates. -/
  source_mem : ∀ e ∈ g.edges, ∃ s ∈ c.sources, s.path = e.source
  /-- Edges end at templates that can be referred to. -/
  target_mem : ∀ e ∈ g.edges, ∃ s ∈ c.importables, s.path = e.target

/-- What collecting the references of a catalog gives. -/
def collected (c : Catalog) (config : Config) : Collected :=
  c.occurrences.foldl (c.resolver config).record Collected.empty

theorem collectEdges_ofCatalog (c : Catalog) (config : Config) :
    collectEdges c (Resolver.ofCatalog c config.partialsDir) = collected c config :=
  collectEdges_eq c config.partialsDir

/-- The failures of a catalog, in the order of its occurrences. -/
theorem failures_collected (c : Catalog) (config : Config) :
    (collected c config).failures = c.occurrences.filterMap (c.resolver config).failure? := by
  rw [collected, Resolver.failures_foldl_record]
  exact List.nil_append _

theorem failures_eq_nil_iff {c : Catalog} {config : Config} :
    (collected c config).failures = [] ↔
      ∀ o ∈ c.occurrences, ¬ (c.resolver config).Fails o := by
  rw [failures_collected, List.filterMap_eq_nil_iff]
  constructor
  · intro h o ho hfails
    rw [← Resolver.isSome_failure?, h o ho] at hfails
    exact absurd hfails (by simp only [Option.isSome_none, Bool.false_eq_true,
      not_false_eq_true])
  · intro h o ho
    rw [← Option.not_isSome_iff_eq_none, Resolver.isSome_failure?]
    exact h o ho

theorem mem_edges_collected {c : Catalog} {config : Config} (e : Edge) :
    e ∈ (collected c config).edges ↔
      ∃ o ∈ c.occurrences, ∃ target, (c.resolver config).candidates o = [target] ∧
        e = Resolver.edgeTo o target := by
  rw [collected, Resolver.mem_edges_foldl_record]
  simp only [Collected.empty, List.not_mem_nil, false_or]

/-- The graph of what was collected, before cycles are looked for. -/
def ofCollected (c : Catalog) (config : Config) : Graph :=
  ⟨c, (collected c config).edges, (collected c config).references⟩

theorem exact_ofCollected (c : Catalog) (config : Config) :
    Exact c config (ofCollected c config) := by
  refine ⟨rfl, ?_, fun path target kind => ?_, fun path name target => ?_,
    fun e he => ?_, fun e he => ?_⟩
  · exact Resolver.nodup_edges_foldl_record _ _ _ List.nodup_nil
  · rw [ofCollected, mem_edges_collected]
    simp only [Resolver.edgeTo, Edge.mk.injEq]
    constructor
    · intro h
      rcases h with ⟨o, ho, t, hc, hpath, rfl, hkind⟩
      exact ⟨o, ho, hpath.symm, hkind.symm, hc⟩
    · intro h
      rcases h with ⟨o, ho, hpath, hkind, hc⟩
      exact ⟨o, ho, target, hc, hpath.symm, rfl, hkind.symm⟩
  · rw [resolve, ofCollected, collected, Resolver.references_foldl_record,
      Resolver.lookup_tableOf]
    simp only [Resolver.keyOf, Prod.mk.injEq, and_assoc]
  · rcases (mem_edges_collected e).mp he with ⟨o, ho, t, _, rfl⟩
    rcases Catalog.mem_occurrences.mp ho with ⟨s, hs, hpath, _⟩
    exact ⟨s, hs, hpath⟩
  · rcases (mem_edges_collected e).mp he with ⟨o, _, t, hc, rfl⟩
    have hmem : t ∈ (c.resolver config).candidates o := by
      rw [hc]
      exact List.mem_singleton_self t
    exact Catalog.importable_of_candidate hmem

/-- What is reached in the graph of a catalog can be referred to. -/
theorem importable_of_reaches {c : Catalog} {config : Config} {u v : String}
    (h : (ofCollected c config).Reaches u v) : ∃ s ∈ c.importables, s.path = v := by
  induction h with
  | edge he => exact (exact_ofCollected c config).target_mem _ he
  | step _ _ ih => exact ih

/-- The check of the ends of edges passes, and edges are listed once already. -/
theorem ofEdges_collected (c : Catalog) (config : Config) :
    ofEdges c (collected c config).edges (collected c config).references =
      .ok (ofCollected c config) := by
  have hexact := exact_ofCollected c config
  have hends : ((collected c config).edges.findSome? fun e =>
      ([e.source, e.target].find? fun p => !c.has p).map fun p => (e.source, p)) = none := by
    rw [List.findSome?_eq_none_iff]
    intro e he
    have hsource : c.has e.source = true := Catalog.has_iff.mpr (hexact.source_mem e he)
    have htarget : c.has e.target = true := by
      rcases hexact.target_mem e he with ⟨s, hs, hpath⟩
      exact Catalog.has_iff.mpr ⟨s, (List.mem_filter.mp hs).1, hpath⟩
    simp only [List.find?_cons, hsource, htarget, Bool.not_true, List.find?_nil,
      Option.map_none]
  have honce : (collected c config).edges.eraseDups = (collected c config).edges :=
    eraseDups_of_nodup hexact.nodup
  rw [ofEdges]
  simp only [hends, honce]
  rw [ofCollected]

/-- A reference that fails refuses the graph, and all that fail are reported. -/
theorem build_of_fails {c : Catalog} {config : Config}
    (h : ∃ o ∈ c.occurrences, (c.resolver config).Fails o) :
    Graph.build c config =
      .error (.unresolved (c.occurrences.filterMap (c.resolver config).failure?)) := by
  have hne : (collected c config).failures ≠ [] := by
    intro hnil
    rcases h with ⟨o, ho, hfails⟩
    exact failures_eq_nil_iff.mp hnil o ho hfails
  rw [Graph.build, collectEdges_ofCatalog]
  simp only [List.isEmpty_iff, if_neg hne]
  rw [failures_collected]

/-- Without a reference that fails, a cycle alone refuses the graph. -/
theorem build_of_not_fails {c : Catalog} {config : Config}
    (h : ∀ o ∈ c.occurrences, ¬ (c.resolver config).Fails o) :
    (∃ nodes, (ofCollected c config).findCycle = some nodes ∧
        Graph.build c config = .error (.cycle nodes)) ∨
      (ofCollected c config).findCycle = none ∧
        Graph.build c config = .ok (ofCollected c config) := by
  rw [Graph.build, collectEdges_ofCatalog]
  simp only [List.isEmpty_iff, if_pos (failures_eq_nil_iff.mpr h), ofEdges_collected]
  cases (ofCollected c config).findCycle with
  | some nodes => exact Or.inl ⟨nodes, rfl, rfl⟩
  | none => exact Or.inr ⟨rfl, rfl⟩

/-- The three ways in which building ends, told apart by the catalog. -/
theorem build_cases (c : Catalog) (config : Config) :
    ((∃ o ∈ c.occurrences, (c.resolver config).Fails o) ∧ Graph.build c config =
      .error (.unresolved (c.occurrences.filterMap (c.resolver config).failure?))) ∨
    (∀ o ∈ c.occurrences, ¬ (c.resolver config).Fails o) ∧
      ((∃ q ∈ (ofCollected c config).queries, (ofCollected c config).ReachesCycle q.path) ∧
        (∃ nodes, Graph.build c config = .error (.cycle nodes)) ∨
      (∀ q ∈ (ofCollected c config).queries, ¬ (ofCollected c config).ReachesCycle q.path) ∧
        Graph.build c config = .ok (ofCollected c config)) := by
  by_cases hfails : ∃ o ∈ c.occurrences, (c.resolver config).Fails o
  · exact Or.inl ⟨hfails, build_of_fails hfails⟩
  · have hfine : ∀ o ∈ c.occurrences, ¬ (c.resolver config).Fails o :=
      fun o ho hfail => hfails ⟨o, ho, hfail⟩
    refine Or.inr ⟨hfine, ?_⟩
    rcases build_of_not_fails hfine with ⟨nodes, hfind, hbuild⟩ | ⟨hfind, hbuild⟩
    · refine Or.inl ⟨?_, nodes, hbuild⟩
      by_contra hnone
      rw [findCycle_eq_none_iff.mpr (fun q hq hcycle => hnone ⟨q, hq, hcycle⟩)] at hfind
      exact absurd hfind (by simp only [reduceCtorEq, not_false_eq_true])
    · exact Or.inr ⟨findCycle_eq_none_iff.mp hfind, hbuild⟩

theorem build_eq_unresolved_iff {c : Catalog} {config : Config}
    {failures : List ResolutionError} :
    Graph.build c config = .error (.unresolved failures) ↔
      (∃ o ∈ c.occurrences, (c.resolver config).Fails o) ∧
        failures = c.occurrences.filterMap (c.resolver config).failure? := by
  rcases build_cases c config with
    ⟨hfails, hbuild⟩ | ⟨hfine, ⟨_, nodes, hbuild⟩ | ⟨_, hbuild⟩⟩
  · rw [hbuild, Except.error.injEq, GraphError.unresolved.injEq, @eq_comm _ _ failures]
    exact ⟨fun h => ⟨hfails, h⟩, fun h => h.2⟩
  · rw [hbuild]
    simp only [Except.error.injEq, reduceCtorEq, false_iff, not_and]
    exact fun ⟨o, ho, hfail⟩ => absurd hfail (hfine o ho)
  · rw [hbuild]
    simp only [reduceCtorEq, false_iff, not_and]
    exact fun ⟨o, ho, hfail⟩ => absurd hfail (hfine o ho)

theorem exists_build_eq_cycle_iff {c : Catalog} {config : Config}
    (hfine : ∀ o ∈ c.occurrences, ¬ (c.resolver config).Fails o) :
    (∃ nodes, Graph.build c config = .error (.cycle nodes)) ↔
      ∃ q ∈ (ofCollected c config).queries, (ofCollected c config).ReachesCycle q.path := by
  rcases build_cases c config with
    ⟨⟨o, ho, hfail⟩, _⟩ | ⟨_, ⟨hcycle, hbuild⟩ | ⟨hnone, hbuild⟩⟩
  · exact absurd hfail (hfine o ho)
  · exact ⟨fun _ => hcycle, fun _ => hbuild⟩
  · rw [hbuild]
    simp only [reduceCtorEq, exists_false, false_iff, not_exists, not_and]
    exact hnone

theorem build_eq_ok_iff {c : Catalog} {config : Config} {g : Graph} :
    Graph.build c config = .ok g ↔
      (∀ o ∈ c.occurrences, ¬ (c.resolver config).Fails o) ∧ g = ofCollected c config ∧
        ∀ q ∈ g.queries, ¬ g.ReachesCycle q.path := by
  rcases build_cases c config with
    ⟨⟨o, ho, hfail⟩, hbuild⟩ | ⟨hfine, ⟨⟨q, hq, hcycle⟩, nodes, hbuild⟩ | ⟨hnone, hbuild⟩⟩
  · rw [hbuild]
    simp only [reduceCtorEq, false_iff]
    exact fun h => h.1 o ho hfail
  · rw [hbuild]
    simp only [reduceCtorEq, false_iff]
    rintro ⟨_, rfl, hnone⟩
    exact hnone q hq hcycle
  · rw [hbuild, Except.ok.injEq]
    constructor
    · intro h
      rw [← h]
      exact ⟨hfine, rfl, hnone⟩
    · exact fun h => h.2.1.symm

/-- The ends of edges are never at fault. -/
theorem build_ne_notTemplate (c : Catalog) (config : Config) (e : ResolutionError) :
    Graph.build c config ≠ .error (.notTemplate e) := by
  rcases build_cases c config with ⟨_, hbuild⟩ | ⟨_, ⟨_, nodes, hbuild⟩ | ⟨_, hbuild⟩⟩
  · rw [hbuild]
    simp only [ne_eq, Except.error.injEq, reduceCtorEq, not_false_eq_true]
  · rw [hbuild]
    simp only [ne_eq, Except.error.injEq, reduceCtorEq, not_false_eq_true]
  · rw [hbuild]
    simp only [ne_eq, reduceCtorEq, not_false_eq_true]

/-- The templates with references that fail, ascending and each once. -/
theorem failingFiles_failures {c : Catalog} {config : Config} :
    (failingFiles (c.occurrences.filterMap (c.resolver config).failure?)).Pairwise (· < ·) ∧
      ∀ path, path ∈ failingFiles (c.occurrences.filterMap (c.resolver config).failure?) ↔
        ∃ o ∈ c.occurrences, (c.resolver config).Fails o ∧ o.1 = path := by
  refine ⟨sortedSet_pairwise _, fun path => ?_⟩
  rw [failingFiles, mem_sortedSet, List.mem_map]
  constructor
  · intro h
    rcases h with ⟨e, he, rfl⟩
    rcases List.mem_filterMap.mp he with ⟨o, ho, hfail⟩
    refine ⟨o, ho, Resolver.isSome_failure?.mp ?_, (Resolver.importer_of_failure? hfail).1.symm⟩
    rw [hfail, Option.isSome_some]
  · intro h
    rcases h with ⟨o, ho, hfails, rfl⟩
    rcases Option.isSome_iff_exists.mp (Resolver.isSome_failure?.mpr hfails) with ⟨e, he⟩
    exact ⟨e, List.mem_filterMap.mpr ⟨o, ho, he⟩, (Resolver.importer_of_failure? he).1⟩

/-- How building ends. It reports failures if and only if a reference is
    ambiguous, or is found nowhere and not optional, and then the report has
    one entry for each of these in the order of the catalog, and their
    templates ascending. Otherwise there is an exact graph, which is refused
    with a cycle if and only if a query reaches one; if none does, every query
    has a closure. The ends of edges are never at fault. -/
theorem build_reports_exactly (c : Catalog) (config : Config) :
    ((∃ failures, Graph.build c config = .error (.unresolved failures)) ↔
      ∃ o ∈ c.occurrences, (c.resolver config).Fails o) ∧
    (∀ failures, Graph.build c config = .error (.unresolved failures) →
      failures = c.occurrences.filterMap (c.resolver config).failure? ∧
      (failingFiles failures).Pairwise (· < ·) ∧
      ∀ path, path ∈ failingFiles failures ↔
        ∃ o ∈ c.occurrences, (c.resolver config).Fails o ∧ o.1 = path) ∧
    ((∀ o ∈ c.occurrences, ¬ (c.resolver config).Fails o) →
      ∃ g, Exact c config g ∧
        ((∃ nodes, Graph.build c config = .error (.cycle nodes)) ↔
          ∃ q ∈ g.queries, g.ReachesCycle q.path) ∧
        ((∀ q ∈ g.queries, ¬ g.ReachesCycle q.path) →
          Graph.build c config = .ok g ∧
            ∀ q ∈ g.queries, ∃ found, g.closure? q.path = some found)) ∧
    ∀ e, Graph.build c config ≠ .error (.notTemplate e) := by
  refine ⟨⟨fun h => ?_, fun h => ⟨_, build_of_fails h⟩⟩, fun failures h => ?_, fun hfine => ?_,
    build_ne_notTemplate c config⟩
  · rcases h with ⟨failures, h⟩
    exact (build_eq_unresolved_iff.mp h).1
  · rw [(build_eq_unresolved_iff.mp h).2]
    exact ⟨rfl, failingFiles_failures⟩
  -- With no failure the graph is the collected one, and only a cycle can refuse it.
  · refine ⟨ofCollected c config, exact_ofCollected c config, exists_build_eq_cycle_iff hfine,
      fun hnone => ⟨build_eq_ok_iff.mpr ⟨hfine, rfl, hnone⟩, fun q hq => ?_⟩⟩
    rcases exists_closure? (hnone q hq) with ⟨found, hfound, _⟩
    exact ⟨found, hfound⟩

end Graph

end Stencil
