import Stencil.Proofs.Sorted

/-!
# Resolving Without Memory

A resolver that remembers answers gives those that it would give afresh.

One resolver is threaded through all references of a catalog, so what it
answers could depend on what was asked before. `Remembers` is the invariant
that rules this out: whatever the resolver has stored under a directory and a
name is what a search from that directory finds. `resolve_remembers` shows
that a question keeps the invariant and that its answer is the answer of the
search, so later proofs speak of `search` alone.

A search tries one place after the other. `foundAt` is what it finds at one
place, and `search_eq_find?` says that the first place where something is
found decides. The rest of the module compares two resolvers of which one
knows fewer templates. Losing templates can only empty a place, never fill
it, so a name that meant one template goes on meaning it as long as that
template is still there.

## Main definitions

* `Resolver.foundAt`: The templates found at one place.
* `Resolver.Remembers`: The stored answers are those of a search.
* `Resolver.Fewer`: A resolver that knows some templates of another.

## Theorems

* `Resolver.mem_pathsOf`: The templates that have a name.
* `Resolver.search_eq_find?`: The first place with a match decides.
* `Resolver.search_eq_nil_iff`: Nothing is found if there is nothing anywhere.
* `Resolver.mem_search`: What a search finds is a template of the index.
* `Resolver.resolve_remembers`: Answers are those of a search.
* `Resolver.search_eq_nil_of_fewer`: Nothing is found where templates are lost.
* `Resolver.search_eq_singleton_of_fewer`: A template that stays is found again.
-/

namespace Stencil

namespace Resolver

open Reference

theorem mem_pathsOf {r : Resolver} {key path : String} :
    path ∈ r.pathsOf key ↔ (key, path) ∈ r.index := by
  rw [pathsOf, mem_sortedSet, List.mem_map]
  constructor
  · intro h
    rcases h with ⟨⟨k, p⟩, hmem, rfl⟩
    rw [List.mem_filter, beq_iff_eq] at hmem
    rcases hmem with ⟨hmem, rfl⟩
    exact hmem
  · intro h
    exact ⟨(key, path), List.mem_filter.mpr ⟨h, beq_self_eq_true key⟩, rfl⟩

/-- The templates found at one place. -/
def foundAt (r : Resolver) (name place : String) : List String :=
  ((keyAt? place name).map r.pathsOf).getD []

theorem mem_foundAt {r : Resolver} {name place path : String} :
    path ∈ r.foundAt name place ↔ ∃ key, keyAt? place name = some key ∧ (key, path) ∈ r.index := by
  rw [foundAt]
  cases h : keyAt? place name with
  | none => simp only [Option.map_none, Option.getD_none, List.not_mem_nil, reduceCtorEq,
      false_and, exists_false]
  | some key => simp only [Option.map_some, Option.getD_some, mem_pathsOf, Option.some.injEq,
      exists_eq_left']

theorem foundAt_pairwise (r : Resolver) (name place : String) :
    (r.foundAt name place).Pairwise (· < ·) := by
  rw [foundAt]
  cases keyAt? place name with
  | none => exact List.Pairwise.nil
  | some key => exact sortedSet_pairwise _

/-- The first place where something is found decides. -/
theorem search_eq_find? (r : Resolver) (directory name : String) :
    r.search directory name =
      (((searchPlan directory r.partialsDir name).1.map
        (r.foundAt (searchPlan directory r.partialsDir name).2)).find? (!·.isEmpty)).getD [] := by
  rw [search]
  generalize searchPlan directory r.partialsDir name = plan
  rcases plan with ⟨places, key⟩
  simp only
  induction places with
  | nil => rfl
  | cons place places ih =>
      rw [List.findSome?_cons, List.map_cons, List.find?_cons, foundAt]
      cases keyAt? place key with
      | none =>
          simp only [Option.map_none, Option.getD_none, List.isEmpty_nil, Bool.not_true]
          exact ih
      | some k =>
          simp only [Option.map_some, Option.getD_some]
          cases r.pathsOf k with
          | nil =>
              simp only [List.isEmpty_nil, Bool.not_true]
              exact ih
          | cons p ps => rfl

/-- A search ends with nothing if there is nothing at any of its places. -/
theorem search_eq_nil_iff {r : Resolver} {directory name : String} :
    r.search directory name = [] ↔ ∀ place ∈ (searchPlan directory r.partialsDir name).1,
      r.foundAt (searchPlan directory r.partialsDir name).2 place = [] := by
  rw [search_eq_find?]
  constructor
  · intro h
    cases hf : ((searchPlan directory r.partialsDir name).1.map
        (r.foundAt (searchPlan directory r.partialsDir name).2)).find? (!·.isEmpty) with
    | none =>
        intro place hplace
        have hnone := List.find?_eq_none.mp hf _ (List.mem_map_of_mem hplace)
        rwa [Bool.not_eq_true, Bool.not_eq_false', List.isEmpty_iff] at hnone
    | some found =>
        -- What is found somewhere is not empty.
        rw [hf, Option.getD_some] at h
        have hne := List.find?_some hf
        rw [h, List.isEmpty_nil] at hne
        exact absurd hne Bool.false_ne_true
  · intro h
    have hnone : ((searchPlan directory r.partialsDir name).1.map
        (r.foundAt (searchPlan directory r.partialsDir name).2)).find? (!·.isEmpty) = none := by
      rw [List.find?_eq_none]
      intro found hfound
      rcases List.mem_map.mp hfound with ⟨place, hplace, rfl⟩
      rw [h place hplace, List.isEmpty_nil]
      exact Bool.false_ne_true
    rw [hnone]
    rfl

/-- What a search finds was found at one of its places. -/
theorem mem_search {r : Resolver} {directory name path : String}
    (h : path ∈ r.search directory name) : ∃ key, (key, path) ∈ r.index := by
  rw [search_eq_find?] at h
  cases hf : ((searchPlan directory r.partialsDir name).1.map
      (r.foundAt (searchPlan directory r.partialsDir name).2)).find? (!·.isEmpty) with
  | none =>
      rw [hf, Option.getD_none] at h
      exact absurd h List.not_mem_nil
  | some found =>
      rw [hf, Option.getD_some] at h
      rcases List.mem_map.mp (List.mem_of_find?_eq_some hf) with ⟨place, _, rfl⟩
      rcases mem_foundAt.mp h with ⟨key, _, hkey⟩
      exact ⟨key, hkey⟩

/-- A resolver in use stores only what a search of the fresh one finds, and
    knows the same templates and the same shared directory. -/
structure Remembers (fresh r : Resolver) : Prop where
  /-- The same templates are known. -/
  index : r.index = fresh.index
  /-- The shared directory is the same. -/
  partialsDir : r.partialsDir = fresh.partialsDir
  /-- Every stored answer is that of a search. -/
  answers : ∀ directory name target,
    r.answers.lookup (directory, name) = some target → fresh.search directory name = [target]

theorem remembers_ofCatalog (c : Catalog) (partialsDir : Option String) :
    Remembers (ofCatalog c partialsDir) (ofCatalog c partialsDir) :=
  ⟨rfl, rfl, fun _ _ _ h => by simp only [ofCatalog, List.lookup_nil, reduceCtorEq] at h⟩

theorem search_congr {r s : Resolver} (hi : r.index = s.index)
    (hp : r.partialsDir = s.partialsDir) (directory name : String) :
    r.search directory name = s.search directory name := by
  simp only [search, pathsOf, hi, hp]

theorem answer_eq_ok {importer name target : String} {found : List String}
    (h : answer importer name found = .ok target) : found = [target] := by
  cases found with
  | nil => simp only [answer, reduceCtorEq] at h
  | cons p ps =>
      cases ps with
      | nil =>
          simp only [answer, Except.ok.injEq] at h
          rw [h]
      | cons q qs => simp only [answer, reduceCtorEq] at h

/-- A question keeps the invariant, and its answer is that of a search. Only
    answers are stored and never failures, so a failure names the template
    that asked this time. -/
theorem resolve_remembers {fresh r : Resolver} (h : Remembers fresh r) (importer : Source)
    (name : String) :
    (r.resolve importer name).1 =
        answer importer.path name (fresh.search importer.directory name) ∧
      Remembers fresh (r.resolve importer name).2 := by
  have hsearch := search_congr h.index h.partialsDir importer.directory name
  rw [resolve]
  cases hl : r.answers.lookup (importer.directory, name) with
  | some target =>
      refine ⟨?_, h⟩
      rw [h.answers _ _ _ hl]
      rfl
  | none =>
      simp only [hsearch]
      cases ha : answer importer.path name (fresh.search importer.directory name) with
      | error e => exact ⟨rfl, h⟩
      | ok target =>
          refine ⟨rfl, h.index, h.partialsDir, fun directory name' target' hl' => ?_⟩
          -- Either the answer was stored just now, or it was there before.
          rw [List.lookup_cons] at hl'
          cases hk : (directory, name') == (importer.directory, name) with
          | false =>
              rw [hk] at hl'
              exact h.answers directory name' target' hl'
          | true =>
              rw [hk, Option.some.injEq] at hl'
              rcases Prod.mk.inj (eq_of_beq hk) with ⟨rfl, rfl⟩
              rw [← hl']
              exact answer_eq_ok ha

/-- A resolver that knows some of another's templates, under the names that
    they have there. -/
structure Fewer (s r : Resolver) : Prop where
  /-- No template is new, and none has a new name. -/
  index : ∀ entry ∈ s.index, entry ∈ r.index
  /-- The shared directory is the same. -/
  partialsDir : s.partialsDir = r.partialsDir

theorem foundAt_subset {s r : Resolver} (h : Fewer s r) {name place path : String}
    (hp : path ∈ s.foundAt name place) : path ∈ r.foundAt name place := by
  rcases mem_foundAt.mp hp with ⟨key, hkey, hmem⟩
  exact mem_foundAt.mpr ⟨key, hkey, h.index _ hmem⟩

theorem foundAt_eq_nil_of_fewer {s r : Resolver} (h : Fewer s r) {name place : String}
    (hr : r.foundAt name place = []) : s.foundAt name place = [] := by
  refine List.eq_nil_iff_forall_not_mem.mpr (fun path hp => ?_)
  have hmem := foundAt_subset h hp
  rw [hr] at hmem
  exact List.not_mem_nil hmem

/-- Where one template is found and stays known, it is found alone again. -/
theorem foundAt_eq_singleton_of_fewer {s r : Resolver} (h : Fewer s r)
    {name place target : String} (hr : r.foundAt name place = [target])
    (hstay : ∀ key, (key, target) ∈ r.index → (key, target) ∈ s.index) :
    s.foundAt name place = [target] := by
  refine eq_of_pairwise_lt (foundAt_pairwise s name place) (List.pairwise_singleton _ target)
    (fun path => ?_)
  constructor
  · intro hp
    have hmem := foundAt_subset h hp
    rwa [hr] at hmem
  · intro hp
    rw [List.mem_singleton] at hp
    rw [hp]
    have htarget : target ∈ r.foundAt name place := by
      rw [hr]
      exact List.mem_singleton_self target
    rcases mem_foundAt.mp htarget with ⟨key, hkey, hmem⟩
    exact mem_foundAt.mpr ⟨key, hkey, hstay key hmem⟩

/-- The search stops at the same place: the places before it were empty and
    stay empty, and at that place the one template is still found alone. -/
theorem find?_foundAt_eq_some {s r : Resolver} (h : Fewer s r) {name target : String}
    {places : List String}
    (hstay : ∀ key, (key, target) ∈ r.index → (key, target) ∈ s.index)
    (hr : (places.map (r.foundAt name)).find? (!·.isEmpty) = some [target]) :
    (places.map (s.foundAt name)).find? (!·.isEmpty) = some [target] := by
  induction places with
  | nil => simp only [List.map_nil, List.find?_nil, reduceCtorEq] at hr
  | cons place places ih =>
      rw [List.map_cons, List.find?_cons] at hr ⊢
      cases hf : r.foundAt name place with
      | nil =>
          rw [hf] at hr
          rw [foundAt_eq_nil_of_fewer h hf]
          exact ih hr
      | cons p ps =>
          rw [hf] at hr
          simp only [List.isEmpty_cons, Bool.not_false, Option.some.injEq] at hr
          rw [foundAt_eq_singleton_of_fewer h (hf.trans hr) hstay]
          rfl

theorem search_eq_nil_of_fewer {s r : Resolver} (h : Fewer s r) {directory name : String}
    (hr : r.search directory name = []) : s.search directory name = [] := by
  rw [search_eq_nil_iff] at hr ⊢
  rw [h.partialsDir]
  exact fun place hplace => foundAt_eq_nil_of_fewer h (hr place hplace)

theorem search_eq_singleton_of_fewer {s r : Resolver} (h : Fewer s r)
    {directory name target : String} (hr : r.search directory name = [target])
    (hstay : ∀ key, (key, target) ∈ r.index → (key, target) ∈ s.index) :
    s.search directory name = [target] := by
  rw [search_eq_find?, h.partialsDir]
  rw [search_eq_find?] at hr
  cases hf : ((searchPlan directory r.partialsDir name).1.map
      (r.foundAt (searchPlan directory r.partialsDir name).2)).find? (!·.isEmpty) with
  | none =>
      rw [hf] at hr
      exact absurd hr.symm (List.cons_ne_nil target [])
  | some found =>
      rw [hf, Option.getD_some] at hr
      rw [find?_foundAt_eq_some h hstay (hr ▸ hf)]
      rfl

end Resolver

end Stencil
