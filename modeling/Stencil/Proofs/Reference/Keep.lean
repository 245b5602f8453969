import Stencil.Proofs.Catalog.Tree
import Stencil.Proofs.Reference.Build

/-!
# Keeping Watched Templates

Two catalogs of which the second keeps what a query watches in the first.

The second catalog may have lost templates of the first and have others with
new contents. A name in a watched template means the same in both: if it meant
one template, that one is watched and therefore kept, and if it meant none,
there are only fewer templates that it could mean now. So the two graphs have
the same edges out of watched templates, and following them from the query
never leaves the watched ones.

## Main definitions

* `Catalog.Keeps`: A catalog has some templates of another unchanged.
* `Graph.Watches`: A template is a query or what the query reaches.
* `Graph.Alike`: What a query watches in one catalog is kept in another.

## Theorems

* `Catalog.Keeps.candidates_eq`: A name in a watched template means the same.
* `Graph.Alike.needs_iff`: A watched template needs the same.
* `Graph.Alike.reaches_iff`: A watched template reaches the same.
* `Graph.Alike.isClosure_iff`: The closure of the query is the same.
-/

namespace Stencil

/-- A catalog that has no template but those of another one, and the watched
    ones with the contents that they have there. -/
structure Catalog.Keeps (c' c : Catalog) (watched : String → Prop) : Prop where
  /-- No template is new. -/
  paths : ∀ s' ∈ c'.sources, ∃ s ∈ c.sources, s.path = s'.path
  /-- Watched templates are there, with the same content. -/
  same : ∀ s ∈ c.sources, watched s.path →
    ∃ s' ∈ c'.sources, s'.path = s.path ∧ s'.content = s.content

/-- The index of a resolver has a template under its path and under its
    logical name, if it can be referred to. -/
theorem Catalog.mem_index {c : Catalog} {config : Config} {key path : String} :
    (key, path) ∈ (c.resolver config).index ↔
      ∃ s ∈ c.importables, s.path = path ∧ (key = s.path ∨ key = s.logicalName) := by
  rw [resolver, Resolver.ofCatalog]
  simp only [List.mem_flatMap, List.mem_cons, Prod.mk.injEq, List.not_mem_nil, or_false]
  constructor
  · intro h
    rcases h with ⟨s, hs, ⟨hkey, hpath⟩ | ⟨hkey, hpath⟩⟩
    · exact ⟨s, hs, hpath.symm, Or.inl hkey⟩
    · exact ⟨s, hs, hpath.symm, Or.inr hkey⟩
  · intro h
    rcases h with ⟨s, hs, hpath, hkey | hkey⟩
    · exact ⟨s, hs, Or.inl ⟨hkey, hpath.symm⟩⟩
    · exact ⟨s, hs, Or.inr ⟨hkey, hpath.symm⟩⟩

namespace Catalog.Regular

variable {c c' : Catalog} {config : Config}

theorem logicalName_eq (hc : c.Regular config) (hc' : c'.Regular config) {s s' : Source}
    (hs : s ∈ c.sources) (hs' : s' ∈ c'.sources) (hpath : s'.path = s.path) :
    s'.logicalName = s.logicalName := by
  rw [Source.logicalName, Source.logicalName, hpath, (hc'.congr hc hs' hs hpath).2]

theorem importable_of_path_eq (hc : c.Regular config) (hc' : c'.Regular config) {s s' : Source}
    (hs : s ∈ c.importables) (hs' : s' ∈ c'.sources) (hpath : s'.path = s.path) :
    s' ∈ c'.importables := by
  rcases List.mem_filter.mp hs with ⟨hs, hkind⟩
  refine List.mem_filter.mpr ⟨hs', ?_⟩
  rwa [(hc'.congr hc hs' hs hpath).1]

end Catalog.Regular

namespace Catalog.Keeps

variable {c c' : Catalog} {config : Config} {watched : String → Prop}

/-- Names can only lose templates that they could mean. -/
theorem fewer (h : c'.Keeps c watched) (hc : c.Regular config) (hc' : c'.Regular config) :
    Resolver.Fewer (c'.resolver config) (c.resolver config) := by
  refine ⟨fun entry hentry => ?_, rfl⟩
  rcases entry with ⟨key, path⟩
  rcases mem_index.mp hentry with ⟨s', hs', hpath', hkey⟩
  have hmem' := (List.mem_filter.mp hs').1
  rcases h.paths s' hmem' with ⟨s, hs, hpath⟩
  refine mem_index.mpr ⟨s, hc'.importable_of_path_eq hc hs' hs hpath, hpath.trans hpath', ?_⟩
  rwa [hpath, ← hc.logicalName_eq hc' hs hmem' hpath.symm]

/-- A watched template keeps its names. -/
theorem index_of_watched (h : c'.Keeps c watched) (hc : c.Regular config)
    (hc' : c'.Regular config) {target : String} (ht : watched target) (key : String)
    (hkey : (key, target) ∈ (c.resolver config).index) :
    (key, target) ∈ (c'.resolver config).index := by
  rcases mem_index.mp hkey with ⟨s, hs, rfl, hname⟩
  have hmem := (List.mem_filter.mp hs).1
  rcases h.same s hmem ht with ⟨s', hs', hpath, _⟩
  refine mem_index.mpr ⟨s', hc.importable_of_path_eq hc' hs hs' hpath, hpath, ?_⟩
  rwa [hpath, hc.logicalName_eq hc' hmem hs' hpath]

/-- A name that does not fail and leads to a watched template, if it leads to
    one, means the same in both catalogs. -/
theorem candidates_eq (h : c'.Keeps c watched) (hc : c.Regular config)
    (hc' : c'.Regular config) {o : Occurrence} (hfine : ¬ (c.resolver config).Fails o)
    (ht : ∀ target, (c.resolver config).candidates o = [target] → watched target) :
    (c'.resolver config).candidates o = (c.resolver config).candidates o := by
  have hfewer := h.fewer hc hc'
  rcases hcand : (c.resolver config).candidates o with _ | ⟨target, more⟩
  · exact Resolver.search_eq_nil_of_fewer hfewer hcand
  · cases more with
    | nil =>
        exact Resolver.search_eq_singleton_of_fewer hfewer hcand
          (h.index_of_watched hc hc' (ht target hcand))
    | cons target' more =>
        refine absurd (Or.inl ?_) hfine
        rw [hcand]
        simp only [List.length_cons]
        omega

/-- A watched template has the same references in both catalogs. -/
theorem mem_occurrences_iff (h : c'.Keeps c watched) (hc : c.Regular config)
    (hc' : c'.Regular config) {o : Occurrence} (hw : watched o.1)
    (hthere : ∃ s ∈ c.sources, s.path = o.1) : o ∈ c'.occurrences ↔ o ∈ c.occurrences := by
  rcases hthere with ⟨s, hs, hpath⟩
  rcases h.same s hs (hpath ▸ hw) with ⟨s', hs', hpath', hcontent⟩
  rw [mem_occurrences, mem_occurrences]
  constructor
  · intro ho
    rcases ho with ⟨t, ht, htpath, hscan⟩
    have heq : t = s' := hc'.eq_of_path_eq ht hs' (htpath.trans (hpath'.trans hpath).symm)
    rw [heq, hcontent] at hscan
    exact ⟨s, hs, hpath, hscan⟩
  · intro ho
    rcases ho with ⟨t, ht, htpath, hscan⟩
    have heq : t = s := hc.eq_of_path_eq ht hs (htpath.trans hpath.symm)
    rw [heq, ← hcontent] at hscan
    exact ⟨s', hs', hpath'.trans hpath, hscan⟩

end Catalog.Keeps

namespace Graph

/-- The template is the query or what the query reaches. -/
def Watches (g : Graph) (query path : String) : Prop :=
  path = query ∨ g.Reaches query path

theorem Watches.of_needs {g : Graph} {query u v : String} (h : g.Watches query u)
    (hn : g.Needs u v) : g.Watches query v := by
  rcases h with rfl | h
  · exact Or.inr hn.reaches
  · exact Or.inr (h.trans hn.reaches)

/-- A template needs what its references mean. -/
theorem Exact.needs_iff {c : Catalog} {config : Config} {g : Graph} (h : Exact c config g)
    {path target : String} : g.Needs path target ↔
      ∃ o ∈ c.occurrences, o.1 = path ∧ (c.resolver config).candidates o = [target] := by
  constructor
  · intro hn
    rcases hn with ⟨e, he, rfl, rfl⟩
    rcases (h.mem_edges e.source e.target e.kind).mp he with ⟨o, ho, hpath, _, hcand⟩
    exact ⟨o, ho, hpath, hcand⟩
  · intro hn
    rcases hn with ⟨o, ho, hpath, hcand⟩
    exact ⟨_, (h.mem_edges path target o.2.tag.kind).mpr ⟨o, ho, hpath, rfl, hcand⟩, rfl, rfl⟩

section TwoTrees

variable {c c' : Catalog} {config : Config} {query : String}

/-- Two catalogs of which the second keeps what a query watches in the first,
    with no reference that fails in the first. -/
structure Alike (c' c : Catalog) (config : Config) (query : String) : Prop where
  /-- The first catalog is that of a tree. -/
  regular : c.Regular config
  /-- The second catalog is that of a tree. -/
  regular' : c'.Regular config
  /-- The query is a template of the first. -/
  query_mem : ∃ s ∈ c.sources, s.path = query
  /-- No reference of the first fails. -/
  fine : ∀ o ∈ c.occurrences, ¬ (c.resolver config).Fails o
  /-- What the query watches is kept. -/
  keeps : c'.Keeps c ((ofCollected c config).Watches query)

theorem Alike.source_of_watches (h : Alike c' c config query) {path : String}
    (hw : (ofCollected c config).Watches query path) : ∃ s ∈ c.sources, s.path = path := by
  rcases hw with rfl | hw
  · exact h.query_mem
  · -- What is reached is the end of an edge.
    have hend : ∀ {u v : String}, (ofCollected c config).Reaches u v →
        ∃ s ∈ c.sources, s.path = v := by
      intro u v hreach
      induction hreach with
      | edge he =>
          rcases (exact_ofCollected c config).target_mem _ he with ⟨s, hs, hpath⟩
          exact ⟨s, (List.mem_filter.mp hs).1, hpath⟩
      | step _ _ ih => exact ih
    exact hend hw

/-- The reference of a watched template means the same in both. -/
theorem Alike.candidates_eq (h : Alike c' c config query) {o : Occurrence}
    (ho : o ∈ c.occurrences) (hw : (ofCollected c config).Watches query o.1) :
    (c'.resolver config).candidates o = (c.resolver config).candidates o :=
  h.keeps.candidates_eq h.regular h.regular' (h.fine o ho) (fun _ hcand =>
    hw.of_needs ((exact_ofCollected c config).needs_iff.mpr ⟨o, ho, rfl, hcand⟩))

theorem Alike.mem_occurrences_iff (h : Alike c' c config query) {o : Occurrence}
    (hw : (ofCollected c config).Watches query o.1) :
    o ∈ c'.occurrences ↔ o ∈ c.occurrences :=
  h.keeps.mem_occurrences_iff h.regular h.regular' hw (h.source_of_watches hw)

theorem Alike.needs_iff (h : Alike c' c config query) {u v : String}
    (hw : (ofCollected c config).Watches query u) :
    (ofCollected c' config).Needs u v ↔ (ofCollected c config).Needs u v := by
  rw [(exact_ofCollected c config).needs_iff, (exact_ofCollected c' config).needs_iff]
  constructor
  · intro hn
    rcases hn with ⟨o, ho, rfl, hcand⟩
    have ho' := (h.mem_occurrences_iff hw).mp ho
    exact ⟨o, ho', rfl, (h.candidates_eq ho' hw).symm.trans hcand⟩
  · intro hn
    rcases hn with ⟨o, ho, rfl, hcand⟩
    exact ⟨o, (h.mem_occurrences_iff hw).mpr ho, rfl, (h.candidates_eq ho hw).trans hcand⟩

/-- A watched template reaches the same in both: each step goes along an edge
    that both have, to a template that is watched too. -/
theorem Alike.reaches_iff (h : Alike c' c config query) {u v : String}
    (hw : (ofCollected c config).Watches query u) :
    (ofCollected c' config).Reaches u v ↔ (ofCollected c config).Reaches u v := by
  constructor
  · intro hr
    induction hr with
    | edge he => exact ((h.needs_iff hw).mp ⟨_, he, rfl, rfl⟩).reaches
    | step he _ ih =>
        have hn := (h.needs_iff hw).mp ⟨_, he, rfl, rfl⟩
        exact hn.trans_reaches (ih (hw.of_needs hn))
  · intro hr
    induction hr with
    | edge he => exact ((h.needs_iff hw).mpr ⟨_, he, rfl, rfl⟩).reaches
    | step he _ ih =>
        have hn : (ofCollected c config).Needs _ _ := ⟨_, he, rfl, rfl⟩
        exact ((h.needs_iff hw).mpr hn).trans_reaches (ih (hw.of_needs hn))

/-- The closure of the query is the same in both. -/
theorem Alike.isClosure_iff (h : Alike c' c config query) {found : List String} :
    (ofCollected c' config).IsClosure query found ↔
      (ofCollected c config).IsClosure query found := by
  have hreach : ∀ v, (ofCollected c' config).Reaches query v ↔
      (ofCollected c config).Reaches query v := fun _ => h.reaches_iff (Or.inl rfl)
  constructor
  · exact fun hcl => ⟨hcl.ascending, fun v => (hcl.mem_iff v).trans (hreach v)⟩
  · exact fun hcl => ⟨hcl.ascending, fun v => (hcl.mem_iff v).trans (hreach v).symm⟩

end TwoTrees

end Graph

end Stencil
