import Stencil.Build
import Stencil.Proofs.Catalog.Flat
import Stencil.Proofs.FileSystem.Walk
import Stencil.Proofs.Reference.Keep

/-!
# Complete Watch Sets

What a query does not watch cannot change it.

Two trees are compared under one configuration, of which the second keeps the
templates that a query watches in the first. The query has one closure in
both, and what a render is handed is the same: the texts of the closure, the
values, and the part of the table of references that is about these texts. The
last is a statement about lists and not only about lookups, because a render
is a function of the whole list. The two tables were made from different
catalogs, but entries of other templates can be left out before the table is
made as well as after, and then the same occurrences remain.

## Theorems

* `Resolver.filter_tableOf`: Entries of some templates are the table of their
  occurrences.
* `Graph.Alike.contentOf_eq`, `Graph.Alike.linksOf_eq`,
  `Graph.Alike.valuesFor_eq`: What a render is handed.
* `Graph.Alike.render_eq`: A render gives the same.
* `loadGraph_watchSet_complete`: Watch sets are complete.
-/

namespace Stencil

namespace Resolver

/-- The entry is about one of some templates. -/
def entryIn (paths : List String) (entry : (String × String) × String) : Bool :=
  paths.contains entry.1.1

theorem filter_addEntry (r : Resolver) (paths : List String) (refs : References)
    (o : Occurrence) : (r.addEntry refs o).filter (entryIn paths) =
      if paths.contains o.1 then r.addEntry (refs.filter (entryIn paths)) o
      else refs.filter (entryIn paths) := by
  rw [addEntry, addEntry]
  rcases r.candidates o with _ | ⟨target, more⟩
  · simp only [ite_self]
  · cases more with
    | cons target' more => simp only [ite_self]
    | nil =>
        simp only [References.set]
        have hfilter : ((refs.filter (·.1 != keyOf o)).filter (entryIn paths)) =
            (refs.filter (entryIn paths)).filter (·.1 != keyOf o) := by
          rw [List.filter_filter, List.filter_filter]
          exact List.filter_congr (fun entry _ => Bool.and_comm _ _)
        by_cases hin : paths.contains o.1 = true
        · have hhead : entryIn paths (keyOf o, target) = true := hin
          rw [if_pos hin, List.filter_cons_of_pos hhead, hfilter]
        · have hhead : ¬ entryIn paths (keyOf o, target) = true := hin
          rw [if_neg hin, List.filter_cons_of_neg hhead, hfilter, List.filter_eq_self]
          -- No entry that is left has the key of the occurrence.
          intro entry hentry
          rw [bne_iff_ne]
          intro heq
          have hkept := (List.mem_filter.mp hentry).2
          rw [entryIn, heq] at hkept
          exact hin hkept

/-- The entries of some templates are the table of their occurrences. -/
theorem filter_tableOf (r : Resolver) (paths : List String) (os : List Occurrence) :
    (r.tableOf os).filter (entryIn paths) =
      r.tableOf (os.filter fun o => paths.contains o.1) := by
  have hgen : ∀ refs : References, (os.foldl r.addEntry refs).filter (entryIn paths) =
      (os.filter fun o => paths.contains o.1).foldl r.addEntry
        (refs.filter (entryIn paths)) := by
    induction os with
    | nil => intro refs; rfl
    | cons o os ih =>
        intro refs
        rw [List.foldl_cons, ih, filter_addEntry]
        by_cases hin : paths.contains o.1 = true
        · rw [if_pos hin, List.filter_cons, if_pos hin, List.foldl_cons]
        · rw [if_neg hin, List.filter_cons, if_neg hin]
  exact hgen []

/-- A table depends on its occurrences and on what each of them means. -/
theorem tableOf_congr {r r' : Resolver} {os : List Occurrence}
    (h : ∀ o ∈ os, r'.candidates o = r.candidates o) : r'.tableOf os = r.tableOf os := by
  refine List.foldl_ext _ _ _ (fun refs o ho => ?_)
  rw [addEntry, addEntry, h o ho]

end Resolver

/-- The occurrences of some templates of a catalog. -/
theorem Catalog.filter_occurrences (c : Catalog) (paths : List String) :
    (c.occurrences.filter fun o => paths.contains o.1) =
      (c.sources.filter fun s => paths.contains s.path).flatMap Source.occurrences := by
  rw [occurrences]
  induction c.sources with
  | nil => rfl
  | cons s ss ih =>
      have hsame : ∀ o ∈ s.occurrences, o.1 = s.path := by
        intro o ho
        rcases List.mem_map.mp ho with ⟨d, _, rfl⟩
        rfl
      rw [List.flatMap_cons, List.filter_append, ih]
      by_cases hin : paths.contains s.path = true
      · have hall : (s.occurrences.filter fun o => paths.contains o.1) = s.occurrences :=
          List.filter_eq_self.mpr (fun o ho => by rwa [hsame o ho])
        rw [hall, List.filter_cons, if_pos hin, List.flatMap_cons]
      · have hnone : (s.occurrences.filter fun o => paths.contains o.1) = [] :=
          List.filter_eq_nil_iff.mpr (fun o ho => by rwa [hsame o ho])
        rw [hnone, List.filter_cons, if_neg hin, List.nil_append]

namespace Graph

namespace Alike

variable {c c' : Catalog} {config : Config} {query : String}

/-- A watched template is found in both catalogs, with the same content. -/
theorem find? (h : Alike c' c config query) {path : String}
    (hw : (ofCollected c config).Watches query path) : ∃ s s', c.find? path = some s ∧
      c'.find? path = some s' ∧ s.path = path ∧ s'.path = path ∧ s'.content = s.content := by
  rcases h.source_of_watches hw with ⟨s, hs, rfl⟩
  rcases h.keeps.same s hs hw with ⟨s', hs', hpath, hcontent⟩
  exact ⟨s, s', h.regular.find?_eq_some_iff.mpr ⟨hs, rfl⟩,
    h.regular'.find?_eq_some_iff.mpr ⟨hs', hpath⟩, rfl, hpath, hcontent⟩

theorem contentOf_eq (h : Alike c' c config query) {path : String}
    (hw : (ofCollected c config).Watches query path) :
    (ofCollected c' config).contentOf path = (ofCollected c config).contentOf path := by
  rcases h.find? hw with ⟨s, s', hs, hs', _, _, hcontent⟩
  simp only [contentOf, ofCollected, hs, hs', hcontent]

theorem valuesFor_eq (h : Alike c' c config query) (context : List (String × Datum)) :
    (ofCollected c' config).valuesFor context query =
      (ofCollected c config).valuesFor context query := by
  rcases h.find? (Or.inl rfl) with ⟨s, s', hs, hs', hpath, hpath', _⟩
  have hname : s'.logicalName = s.logicalName :=
    h.regular.logicalName_eq h.regular' (Catalog.mem_of_find? hs).1 (Catalog.mem_of_find? hs').1
      (hpath'.trans hpath.symm)
  simp only [valuesFor, ofCollected, hs, hs', Option.map_some, Option.getD_some, hname]

/-- Watched templates stand in the same order in both catalogs. -/
theorem paths_filter_eq (h : Alike c' c config query) {paths : List String}
    (hw : ∀ p ∈ paths, (ofCollected c config).Watches query p) :
    ((c'.sources.filter fun s => paths.contains s.path).map (·.path)) =
      (c.sources.filter fun s => paths.contains s.path).map (·.path) := by
  have hsorted : ∀ {c : Catalog}, c.Regular config →
      ((c.sources.filter fun s => paths.contains s.path).map (·.path)).Pairwise (· < ·) :=
    fun hc => List.pairwise_map.mpr (hc.ascending.filter _)
  refine eq_of_pairwise_lt (hsorted h.regular') (hsorted h.regular) (fun p => ?_)
  simp only [List.mem_map, List.mem_filter, List.contains_iff_mem]
  constructor
  · intro hp
    rcases hp with ⟨s', ⟨_, hin⟩, rfl⟩
    rcases h.source_of_watches (hw _ hin) with ⟨s, hs, hpath⟩
    exact ⟨s, ⟨hs, by rwa [hpath]⟩, hpath⟩
  · intro hp
    rcases hp with ⟨s, ⟨hs, hin⟩, rfl⟩
    rcases h.keeps.same s hs (hw _ hin) with ⟨s', hs', hpath, _⟩
    exact ⟨s', ⟨hs', by rwa [hpath]⟩, hpath⟩

/-- Watched templates have the same occurrences in the same order. -/
theorem filter_occurrences_eq (h : Alike c' c config query) {paths : List String}
    (hw : ∀ p ∈ paths, (ofCollected c config).Watches query p) :
    (c'.occurrences.filter fun o => paths.contains o.1) =
      c.occurrences.filter fun o => paths.contains o.1 := by
  -- What a path contributes is read off the template that is found under it.
  have hfound : ∀ {c : Catalog}, c.Regular config →
      (c.sources.filter fun s => paths.contains s.path).flatMap Source.occurrences =
        ((c.sources.filter fun s => paths.contains s.path).map (·.path)).flatMap
          fun p => ((c.find? p).map Source.occurrences).getD [] := by
    intro c hc
    rw [List.flatMap_map]
    refine List.flatMap_congr (fun s hs => ?_)
    rw [hc.find?_eq_some_iff.mpr ⟨(List.mem_filter.mp hs).1, rfl⟩, Option.map_some,
      Option.getD_some]
  rw [Catalog.filter_occurrences, Catalog.filter_occurrences, hfound h.regular,
    hfound h.regular', h.paths_filter_eq hw]
  refine List.flatMap_congr (fun p hp => ?_)
  rcases List.mem_map.mp hp with ⟨s, hs, rfl⟩
  have hin := List.contains_iff_mem.mp (List.mem_filter.mp hs).2
  rcases h.find? (hw _ hin) with ⟨t, t', ht, ht', hpath, hpath', hcontent⟩
  rw [ht, ht', Option.map_some, Option.map_some, Option.getD_some, Option.getD_some,
    Source.occurrences, Source.occurrences, hpath, hpath', hcontent]

theorem linksOf_eq (h : Alike c' c config query) {paths : List String}
    (hw : ∀ p ∈ paths, (ofCollected c config).Watches query p) :
    (ofCollected c' config).linksOf paths = (ofCollected c config).linksOf paths := by
  have htable : ∀ c : Catalog, (ofCollected c config).linksOf paths =
      (c.resolver config).tableOf (c.occurrences.filter fun o => paths.contains o.1) := by
    intro c
    rw [← Resolver.filter_tableOf, ← Resolver.references_foldl_record]
    rfl
  rw [htable c, htable c', h.filter_occurrences_eq hw]
  refine Resolver.tableOf_congr (fun o ho => ?_)
  rw [List.mem_filter, List.contains_iff_mem] at ho
  exact h.candidates_eq ho.1 (hw _ ho.2)

theorem sourcesFor_eq (h : Alike c' c config query) {closure : List String}
    (hw : ∀ p ∈ query :: sortedSet closure, (ofCollected c config).Watches query p) :
    (ofCollected c' config).sourcesFor query closure =
      (ofCollected c config).sourcesFor query closure := by
  rw [sourcesFor, sourcesFor]
  generalize query :: sortedSet closure = paths at hw
  induction paths with
  | nil => rfl
  | cons p ps ih =>
      rw [List.mapM_cons, List.mapM_cons, h.contentOf_eq (hw p List.mem_cons_self),
        ih (fun q hq => hw q (List.mem_cons_of_mem p hq))]

/-- A render of the query with its closure gives the same. -/
theorem render_eq (h : Alike c' c config query) {closure : List String}
    (hclosure : (ofCollected c config).IsClosure query closure)
    (context : List (String × Datum)) :
    (ofCollected c' config).render context query closure =
      (ofCollected c config).render context query closure := by
  have hw : ∀ p ∈ query :: sortedSet closure, (ofCollected c config).Watches query p := by
    intro p hp
    rcases List.mem_cons.mp hp with rfl | hp
    · exact Or.inl rfl
    · exact Or.inr ((hclosure.mem_iff p).mp (mem_sortedSet.mp hp))
  rw [render, render, h.sourcesFor_eq hw]
  rcases htexts : (ofCollected c config).sourcesFor query closure with why | texts
  · simp only [bind, Except.bind]
  · have hpaths := paths_sourcesFor (ofCollected c config) query closure texts htexts
    have hlibrary : (ofCollected c' config).library context query texts =
        (ofCollected c config).library context query texts := by
      rw [library, library, h.valuesFor_eq, h.linksOf_eq (by rwa [hpaths])]
    simp only [bind, Except.bind, hlibrary]

end Alike

end Graph

/-- A tree that has a graph has a catalog of which it is the graph. -/
theorem loadGraph_eq_ok_iff {fs : FileSystem} {root : Path} {config : Config} {g : Graph} :
    (loadGraph fs root config).2 = .ok g ↔ ∃ notes c,
      Catalog.build fs root config = (notes, .ok c) ∧ Graph.build c config = .ok g := by
  rw [loadGraph]
  rcases hbuild : Catalog.build fs root config with ⟨notes, built⟩
  rcases built with why | c
  · simp only [Prod.mk.injEq, reduceCtorEq, and_false, false_and, exists_false]
  · simp only [Prod.mk.injEq, Except.ok.injEq]
    rcases hgraph : Graph.build c config with why | g'
    · constructor
      · intro heq
        cases heq
      · intro hall
        rcases hall with ⟨_, c', ⟨_, rfl⟩, hg⟩
        exact absurd (hgraph.symm.trans hg) (by simp only [reduceCtorEq, not_false_eq_true])
    · constructor
      · intro heq
        exact ⟨notes, c, ⟨rfl, rfl⟩, hgraph.trans (congrArg _ (Except.ok.inj heq))⟩
      · intro hall
        rcases hall with ⟨_, c', ⟨_, rfl⟩, hg⟩
        exact congrArg _ (hgraph.symm.trans hg)

/-- The graph of a tree is that of its catalog, and the catalog is regular. -/
theorem exists_catalog_of_loadGraph {fs : FileSystem} (h : fs.Proper) {root : Path}
    {config : Config} {g : Graph} (hg : (loadGraph fs root config).2 = .ok g) :
    ∃ c : Catalog, c.Regular config ∧ g = Graph.ofCollected c config ∧
      (∀ o ∈ c.occurrences, ¬ (c.resolver config).Fails o) ∧
      ∀ q ∈ g.queries, ¬ g.ReachesCycle q.path := by
  rcases loadGraph_eq_ok_iff.mp hg with ⟨notes, c, hbuild, hgraph⟩
  rcases Graph.build_eq_ok_iff.mp hgraph with ⟨hfine, heq, hcycle⟩
  exact ⟨c, Catalog.regular_of_build h hbuild, heq, hfine, hcycle⟩

/-- Watch sets are complete. Two trees have graphs under one configuration, and
    a query is a query of both. The second tree has no template but those of
    the first, and it has every template that the query watches in the first
    with the same content; whatever else it has may differ. Then the query has
    the same closure and the same watch set in both, and rendering it gives
    the same text or fails in the same way. -/
theorem loadGraph_watchSet_complete {fs fs' : FileSystem} {root root' : Path} {config : Config}
    {g g' : Graph} {query : String} (hfs : fs.Proper) (hfs' : fs'.Proper)
    (hg : (loadGraph fs root config).2 = .ok g) (hg' : (loadGraph fs' root' config).2 = .ok g')
    (hq : ∃ s ∈ g.queries, s.path = query) (hq' : ∃ s ∈ g'.queries, s.path = query)
    (hpaths : ∀ p ∈ g'.catalog.paths, p ∈ g.catalog.paths)
    (hsame : ∀ p ∈ g.watchSet query,
      (g'.catalog.find? p).map Source.content = (g.catalog.find? p).map Source.content) :
    ∃ closure, g.closure? query = some closure ∧ g'.closure? query = some closure ∧
      g'.watchSet query = g.watchSet query ∧
      ∀ context, g'.render context query closure = g.render context query closure := by
  rcases exists_catalog_of_loadGraph hfs hg with ⟨c, hc, rfl, hfine, hcycle⟩
  rcases exists_catalog_of_loadGraph hfs' hg' with ⟨c', hc', rfl, _, hcycle'⟩
  rcases hq with ⟨s, hs, rfl⟩
  rcases hq' with ⟨s', hs', hpath'⟩
  rcases Graph.exists_closure? (hcycle s hs) with ⟨closure, hcl, hclosure⟩
  rcases Graph.exists_closure? (hcycle' s' hs') with ⟨closure', hcl', hclosure'⟩
  rw [hpath'] at hcl' hclosure'
  have hwatch : (Graph.ofCollected c config).watchSet? s.path =
      some (sortedSet (s.path :: closure)) := by
    rw [Graph.watchSet?, hcl, Option.map_some]
  have hwatched : ∀ p, (Graph.ofCollected c config).Watches s.path p →
      p ∈ (Graph.ofCollected c config).watchSet s.path := by
    intro p hp
    rw [Graph.watchSet, hwatch, Option.getD_some]
    exact (Graph.mem_watchSet? hwatch p).mpr hp
  -- What the query watches has the same content in the second tree.
  have halike : Graph.Alike c' c config s.path := by
    refine ⟨hc, hc', ⟨s, (List.mem_filter.mp hs).1, rfl⟩, hfine, fun t' ht' => ?_,
      fun t ht hw => ?_⟩
    · rcases List.mem_map.mp (hpaths t'.path (List.mem_map_of_mem ht')) with ⟨t, ht, hpath⟩
      exact ⟨t, ht, hpath⟩
    · have hcontent := hsame t.path (hwatched t.path hw)
      have hfind : c.find? t.path = some t := hc.find?_eq_some_iff.mpr ⟨ht, rfl⟩
      simp only [Graph.ofCollected, hfind, Option.map_some, Option.map_eq_some_iff] at hcontent
      rcases hcontent with ⟨t', hfind', hcontent⟩
      rcases Catalog.mem_of_find? hfind' with ⟨ht', hpath⟩
      exact ⟨t', ht', hpath, hcontent⟩
  have heq : closure' = closure := (halike.isClosure_iff.mp hclosure').unique hclosure
  rw [heq] at hcl'
  refine ⟨closure, hcl, hcl', ?_, halike.render_eq hclosure⟩
  rw [Graph.watchSet, Graph.watchSet, Graph.watchSet?, Graph.watchSet?, hcl, hcl']

/-- A text that includes another. -/
def greetingText : String :=
  "\x7b% include 'who' %\x7d"

/-- The names of three templates, ascending. -/
def greetingNames : List String :=
  ["aside.partial.tmpl", "greet.sql.tmpl", "who.partial.tmpl"]

theorem greetingNames_pairwise : greetingNames.Pairwise fun a b => (!decide (b < a)) = true := by
  decide

/-- A tree of a query, a template that it includes, and one that stands aside. -/
def greeting (aside : String) : FileSystem where
  entries := [(["aside.partial.tmpl"], .file (Text.Utf8.encode aside) 0o644),
    (["greet.sql.tmpl"], .file (Text.Utf8.encode greetingText) 0o644),
    (["who.partial.tmpl"], .file (Text.Utf8.encode "you") 0o644)]
  here := []

/-- The configuration of its build. -/
def greetingConfig : Config :=
  { Config.default with includeIgnored := true }

/-- Its catalog. -/
def greetingCatalog (aside : String) : Catalog where
  root := ⟨"/", []⟩
  sources :=
    [⟨"aside.partial.tmpl", ⟨"/", ["aside.partial.tmpl"]⟩, .fragment, ".partial.tmpl", aside,
        Sha256.hexDigest (Text.Utf8.encode aside)⟩,
      ⟨"greet.sql.tmpl", ⟨"/", ["greet.sql.tmpl"]⟩, .query, ".sql.tmpl", greetingText,
        Sha256.hexDigest (Text.Utf8.encode greetingText)⟩,
      ⟨"who.partial.tmpl", ⟨"/", ["who.partial.tmpl"]⟩, .fragment, ".partial.tmpl", "you",
        Sha256.hexDigest (Text.Utf8.encode "you")⟩]

/-- Its graph. -/
def greetingGraph (aside : String) : Graph :=
  Graph.ofCollected (greetingCatalog aside) greetingConfig

theorem names_greeting (aside : String) : (greeting aside).names [] = greetingNames :=
  List.mergeSort_of_pairwise greetingNames_pairwise

theorem isFlat_greeting (aside : String) : (greeting aside).IsFlat := by
  intro n hn
  rw [names_greeting, greetingNames, List.mem_cons, List.mem_cons, List.mem_singleton] at hn
  rcases hn with rfl | rfl | rfl
  · exact ⟨by decide, rfl⟩
  · exact ⟨by decide, rfl⟩
  · exact ⟨by decide, rfl⟩

theorem build_greeting (aside : String) :
    Catalog.build (greeting aside) ⟨"/", []⟩ greetingConfig =
      ([], .ok (greetingCatalog aside)) := by
  have hkinds : classify "aside.partial.tmpl" greetingConfig = some (.fragment, ".partial.tmpl") ∧
      classify "greet.sql.tmpl" greetingConfig = some (.query, ".sql.tmpl") ∧
      classify "who.partial.tmpl" greetingConfig = some (.fragment, ".partial.tmpl") := by decide
  have hread : List.Forall₂
      (fun n s => Catalog.readSource (greeting aside) greetingConfig n ⟨"/", [n]⟩ = .ok s)
      greetingNames ((greetingCatalog aside).sources.map some) := by
    refine .cons ?_ (.cons ?_ (.cons ?_ .nil))
    · exact Catalog.readSource_of_root (by decide) (by decide) hkinds.1 rfl
    · exact Catalog.readSource_of_root (by decide) (by decide) hkinds.2.1 rfl
    · exact Catalog.readSource_of_root (by decide) (by decide) hkinds.2.2 rfl
  have hpaths : ((greetingCatalog aside).sources.map Source.path).Pairwise
      fun a b => (!decide (b < a)) = true := greetingNames_pairwise
  have hsorted : (greetingCatalog aside).sources.Pairwise fun s t => Catalog.before s t = true :=
    List.pairwise_map.mp hpaths
  have hfound : ((greetingCatalog aside).sources.map some).reduceOption =
      (greetingCatalog aside).sources := rfl
  rw [Catalog.build_of_isFlat (isFlat_greeting aside) rfl (names_greeting aside ▸ hread), hfound,
    Catalog.ofSources, List.mergeSort_of_pairwise hsorted]
  rfl

section Greeting

variable {aside : String}

theorem occurrences_greeting (h : Reference.scan aside = []) :
    (greetingCatalog aside).occurrences = [("greet.sql.tmpl", ⟨"who", .includes, 1, false⟩)] := by
  have hgreet : Reference.scan greetingText = [⟨"who", .includes, 1, false⟩] := by
    decide
  have hwho : Reference.scan "you" = [] := by decide
  simp only [Catalog.occurrences, greetingCatalog, List.flatMap_cons, List.flatMap_nil,
    Source.occurrences, hgreet, h, hwho]
  rfl

theorem candidates_greeting (aside : String) :
    ((greetingCatalog aside).resolver greetingConfig).candidates
      ("greet.sql.tmpl", ⟨"who", .includes, 1, false⟩) = ["who.partial.tmpl"] := by
  have haside : String.ofList ("aside.partial.tmpl".toList.take
      ("aside.partial.tmpl".length - ".partial.tmpl".length)) = "aside" := by decide
  have hwho : String.ofList ("who.partial.tmpl".toList.take
      ("who.partial.tmpl".length - ".partial.tmpl".length)) = "who" := by decide
  have hindex : ((greetingCatalog aside).resolver greetingConfig).index =
      [("aside.partial.tmpl", "aside.partial.tmpl"), ("aside", "aside.partial.tmpl"),
        ("who.partial.tmpl", "who.partial.tmpl"), ("who", "who.partial.tmpl")] := by
    have himportables : (greetingCatalog aside).importables =
        (greetingCatalog aside).sources.eraseIdx 1 := rfl
    rw [Catalog.resolver, Resolver.ofCatalog, himportables]
    simp only [greetingCatalog, List.eraseIdx_cons_succ, List.eraseIdx_cons_zero,
      List.flatMap_cons, List.flatMap_nil, Source.logicalName, haside, hwho]
    rfl
  have hpaths : ((greetingCatalog aside).resolver greetingConfig).pathsOf "who" =
      ["who.partial.tmpl"] := by
    rw [Resolver.pathsOf, hindex]
    exact sortedSet_of_pairwise (List.pairwise_singleton _ _)
  have hplan : Reference.searchPlan (directoryOf "greet.sql.tmpl") (some "partials") "who" =
      (["", "partials"], "who") := by decide
  have hkey : Reference.keyAt? "" "who" = some "who" := by decide
  have hdir : ((greetingCatalog aside).resolver greetingConfig).partialsDir = some "partials" := rfl
  simp only [Resolver.candidates, Resolver.search, hdir, hplan, List.findSome?_cons, hkey, hpaths,
    Option.getD_some]

/-- The query is the only template that reaches another. -/
theorem reaches_greeting (h : Reference.scan aside = []) {u v : String}
    (huv : (greetingGraph aside).Reaches u v) : u = "greet.sql.tmpl" ∧ v = "who.partial.tmpl" := by
  have hneeds : ∀ u v, (greetingGraph aside).Needs u v →
      u = "greet.sql.tmpl" ∧ v = "who.partial.tmpl" := by
    intro u v hn
    rcases (Graph.exact_ofCollected _ _).needs_iff.mp hn with ⟨o, ho, hpath, hcand⟩
    rw [occurrences_greeting h, List.mem_singleton] at ho
    rw [ho] at hpath hcand
    rw [candidates_greeting] at hcand
    exact ⟨hpath.symm, (List.singleton_inj.mp hcand).symm⟩
  rcases Graph.reaches_iff.mp huv with ⟨w, huw, hw⟩
  rcases hneeds u w huw with ⟨hu, hwho⟩
  rcases hw with hw | hw
  · exact ⟨hu, hw ▸ hwho⟩
  · rcases Graph.reaches_iff.mp hw with ⟨x, hx, _⟩
    exact absurd (hwho.symm.trans (hneeds w x hx).1) (by decide)

theorem not_reachesCycle_greeting (h : Reference.scan aside = []) (path : String) :
    ¬ (greetingGraph aside).ReachesCycle path := by
  intro hcycle
  rcases hcycle with ⟨v, _, hv⟩
  exact absurd ((reaches_greeting h hv).1.symm.trans (reaches_greeting h hv).2) (by decide)

theorem buildGraph_greeting (h : Reference.scan aside = []) :
    Graph.build (greetingCatalog aside) greetingConfig = .ok (greetingGraph aside) := by
  refine Graph.build_eq_ok_iff.mpr ⟨fun o ho hfails => ?_, rfl,
    fun q _ => not_reachesCycle_greeting h q.path⟩
  rw [occurrences_greeting h, List.mem_singleton] at ho
  rw [ho, Resolver.Fails, candidates_greeting] at hfails
  simp at hfails

theorem loadGraph_greeting (h : Reference.scan aside = []) :
    (loadGraph (greeting aside) ⟨"/", []⟩ greetingConfig).2 = .ok (greetingGraph aside) := by
  rw [loadGraph, build_greeting]
  simp only [buildGraph_greeting h]
  rfl

theorem mem_watchSet_greeting (h : Reference.scan aside = []) {path : String}
    (hp : path ∈ (greetingGraph aside).watchSet "greet.sql.tmpl") :
    path = "greet.sql.tmpl" ∨ path = "who.partial.tmpl" := by
  rcases Graph.exists_closure? (not_reachesCycle_greeting h "greet.sql.tmpl") with
    ⟨closure, hclosure, _⟩
  have hwatch : (greetingGraph aside).watchSet? "greet.sql.tmpl" =
      some (sortedSet ("greet.sql.tmpl" :: closure)) := by
    rw [Graph.watchSet?, hclosure, Option.map_some]
  rw [Graph.watchSet, hwatch, Option.getD_some, Graph.mem_watchSet? hwatch] at hp
  rcases hp with hp | hp
  · exact Or.inl hp
  · exact Or.inr (reaches_greeting h hp).2

end Greeting

/-- What stands aside may change: the query keeps its closure and its watch
    set, and renders to the same. -/
theorem loadGraph_watchSet_complete_greeting : ∃ g g' closure,
    (loadGraph (greeting "hello") ⟨"/", []⟩ greetingConfig).2 = .ok g ∧
      (loadGraph (greeting "goodbye") ⟨"/", []⟩ greetingConfig).2 = .ok g' ∧
      g.closure? "greet.sql.tmpl" = some closure ∧ g'.closure? "greet.sql.tmpl" = some closure ∧
      g'.watchSet "greet.sql.tmpl" = g.watchSet "greet.sql.tmpl" ∧
      ∀ context, g'.render context "greet.sql.tmpl" closure =
        g.render context "greet.sql.tmpl" closure := by
  have hhello : Reference.scan "hello" = [] := by decide
  have hgoodbye : Reference.scan "goodbye" = [] := by decide
  have hquery : ∀ aside, ∃ s ∈ (greetingGraph aside).queries, s.path = "greet.sql.tmpl" :=
    fun aside => ⟨_, List.mem_cons_self, rfl⟩
  have hsame : ∀ p ∈ (greetingGraph "hello").watchSet "greet.sql.tmpl",
      ((greetingGraph "goodbye").catalog.find? p).map Source.content =
        ((greetingGraph "hello").catalog.find? p).map Source.content := by
    intro p hp
    rcases mem_watchSet_greeting hhello hp with rfl | rfl
    · rfl
    · rfl
  rcases loadGraph_watchSet_complete (by decide) (by decide) (loadGraph_greeting hhello)
    (loadGraph_greeting hgoodbye) (hquery "hello") (hquery "goodbye") (fun p hp => hp) hsame with
    ⟨closure, hcomplete⟩
  exact ⟨_, _, closure, loadGraph_greeting hhello, loadGraph_greeting hgoodbye, hcomplete⟩

end Stencil
