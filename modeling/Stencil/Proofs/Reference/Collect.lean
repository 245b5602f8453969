import Stencil.Proofs.Reference.Resolve
import Stencil.Reference.Collect

/-!
# Collecting References

What scanning and resolving a whole catalog gives.

One loop builds three things at once: the edges, the table of references and
the list of failures, with a resolver threaded through it that remembers
answers. `collectEdges_eq` takes the resolver out of the loop. What is left is
a fold of `record` over the occurrences of the catalog, each with the
candidates that a search finds for it, and the three results are then read off
that fold one by one.

An occurrence has one of three outcomes, and its candidates say which. One
candidate makes an edge and an entry. Several make a failure. None makes a
failure unless the reference is optional, and then it makes nothing.

The table is keyed by path and name while candidates depend on directory and
name, and a path has one directory. So two occurrences with one key have the
same candidates, and it does not matter that a later entry replaces an
earlier one.

## Main definitions

* `Catalog.occurrences`: Every reference with the path of its template.
* `Resolver.candidates`: What a reference can mean.
* `Resolver.failure?`: The failure that an occurrence makes.
* `Resolver.Fails`: The occurrence makes a failure.
* `Resolver.record`: One occurrence recorded.
* `Resolver.tableOf`: The table that occurrences make.

## Theorems

* `Resolver.isSome_failure?`: An occurrence fails if it is ambiguous, or found
  nowhere and not optional.
* `collectEdges_eq`: Collecting is recording every occurrence.
* `Resolver.failures_foldl_record`: The failures are those of the occurrences.
* `Resolver.mem_edges_foldl_record`: The edges are those of the occurrences.
* `Resolver.references_foldl_record`: The table is that of the occurrences.
* `Resolver.lookup_tableOf`: An entry is an occurrence with one candidate.
-/

namespace Stencil

/-- A reference with the path of the template that holds it. -/
abbrev Occurrence := String × Directive

/-- Every reference of a template with its path, in the order of the text. -/
def Source.occurrences (s : Source) : List Occurrence :=
  (Reference.scan s.content).map fun d => (s.path, d)

/-- Every reference of a catalog, template by template. -/
def Catalog.occurrences (c : Catalog) : List Occurrence :=
  c.sources.flatMap Source.occurrences

theorem Catalog.mem_occurrences {c : Catalog} {o : Occurrence} :
    o ∈ c.occurrences ↔ ∃ s ∈ c.sources, s.path = o.1 ∧ o.2 ∈ Reference.scan s.content := by
  rcases o with ⟨path, d⟩
  simp only [occurrences, Source.occurrences, List.mem_flatMap, List.mem_map, Prod.mk.injEq]
  constructor
  · intro h
    rcases h with ⟨s, hs, d', hd, rfl, rfl⟩
    exact ⟨s, hs, rfl, hd⟩
  · intro h
    rcases h with ⟨s, hs, rfl, hd⟩
    exact ⟨s, hs, d, hd, rfl, rfl⟩

/-- The directory that holds the template with a path. -/
def directoryOf (path : String) : String :=
  ((Text.cutLast '/' path).map Prod.fst).getD ""

namespace Resolver

/-- What a reference can mean: the templates at the first place with a match. -/
def candidates (r : Resolver) (o : Occurrence) : List String :=
  r.search (directoryOf o.1) o.2.name

/-- The failure that an occurrence makes, if it makes one. -/
def failure? (r : Resolver) (o : Occurrence) : Option ResolutionError :=
  match r.candidates o with
  | [] => if o.2.optional then none else some (.unresolved o.1 o.2.name)
  | [_] => none
  | several => some (.ambiguous o.1 o.2.name several)

/-- The occurrence is ambiguous, or it is found nowhere and not optional. -/
def Fails (r : Resolver) (o : Occurrence) : Prop :=
  1 < (r.candidates o).length ∨ r.candidates o = [] ∧ o.2.optional = false

theorem isSome_failure? {r : Resolver} {o : Occurrence} :
    (r.failure? o).isSome = true ↔ r.Fails o := by
  unfold failure? Fails
  cases h : r.candidates o with
  | nil => cases o.2.optional with
    | true => simp only [if_true, Option.isSome_none, Bool.false_eq_true, List.length_nil,
        Nat.not_lt_zero, reduceCtorEq, and_false, or_self]
    | false => simp only [Bool.false_eq_true, if_false, Option.isSome_some, List.length_nil,
        Nat.not_lt_zero, and_self, or_true]
  | cons p ps =>
      cases ps with
      | nil => simp only [Option.isSome_none, Bool.false_eq_true, List.length_singleton,
          Nat.lt_irrefl, reduceCtorEq, false_and, or_self]
      | cons q qs => simp only [Option.isSome_some, List.length_cons, reduceCtorEq, false_and,
          or_false, Nat.lt_add_left_iff_pos, Nat.zero_lt_succ]

/-- A failure names the template that holds the reference. -/
theorem importer_of_failure? {r : Resolver} {o : Occurrence} {e : ResolutionError}
    (h : r.failure? o = some e) : e.importer = o.1 ∧ e.name = o.2.name := by
  unfold failure? at h
  cases hc : r.candidates o with
  | nil =>
      simp only [hc] at h
      by_cases ho : o.2.optional = true
      · rw [if_pos ho] at h
        exact absurd h (by simp only [reduceCtorEq, not_false_eq_true])
      · rw [if_neg ho, Option.some.injEq] at h
        rw [← h]
        exact ⟨rfl, rfl⟩
  | cons p ps =>
      cases ps with
      | nil => simp only [hc, reduceCtorEq] at h
      | cons q qs =>
          simp only [hc, Option.some.injEq] at h
          rw [← h]
          exact ⟨rfl, rfl⟩

/-- The edge that a reference makes to a template. -/
def edgeTo (o : Occurrence) (target : String) : Edge :=
  ⟨o.1, target, o.2.tag.kind⟩

/-- The key of a reference in the table. -/
def keyOf (o : Occurrence) : String × String :=
  (o.1, o.2.name)

/-- One occurrence recorded. -/
def record (r : Resolver) (found : Collected) (o : Occurrence) : Collected :=
  match r.candidates o with
  | [] => { found with failures := found.failures ++ (r.failure? o).toList }
  | [target] =>
    { found with
      edges := (found.edges ++ [edgeTo o target]).eraseDups
      references := References.set found.references (keyOf o) target }
  | _ => { found with failures := found.failures ++ (r.failure? o).toList }

/-- Recording needs no memory: a step of the loop does what `record` does with
    the candidates of a fresh search, and keeps the memory sound. -/
theorem collectDirective_remembers {fresh r : Resolver} (h : Remembers fresh r)
    (s : Source) (found : Collected) (d : Directive) :
    (collectDirective s (found, r) d).1 = fresh.record found (s.path, d) ∧
      Remembers fresh (collectDirective s (found, r) d).2 := by
  rcases resolve_remembers h s d.name with ⟨hfst, hsnd⟩
  unfold collectDirective record failure?
  -- What is remembered is what a fresh search would find.
  have hcand : fresh.candidates (s.path, d) = fresh.search s.directory d.name := rfl
  rw [← hcand] at hfst
  rcases hres : r.resolve s d.name with ⟨answered, r'⟩
  rw [hres] at hfst hsnd
  simp only [hres] at hfst hsnd ⊢
  rw [hfst]
  cases hc : fresh.candidates (s.path, d) with
  | nil =>
      simp only [answer]
      by_cases ho : d.optional = true
      · rw [if_pos ho, if_pos ho]
        simp only [Option.toList_none, List.append_nil, hsnd, and_self]
      · rw [if_neg ho, if_neg ho]
        exact ⟨rfl, hsnd⟩
  | cons p ps =>
      cases ps with
      | nil => exact ⟨rfl, hsnd⟩
      | cons q qs => exact ⟨rfl, hsnd⟩

theorem foldl_collectDirective {fresh : Resolver} (s : Source) (ds : List Directive) :
    ∀ (found : Collected) (r : Resolver), Remembers fresh r →
      (ds.foldl (collectDirective s) (found, r)).1 =
          (ds.map fun d => (s.path, d)).foldl fresh.record found ∧
        Remembers fresh (ds.foldl (collectDirective s) (found, r)).2 := by
  induction ds with
  | nil => intro found r h; exact ⟨rfl, h⟩
  | cons d ds ih =>
      intro found r h
      rcases collectDirective_remembers h s found d with ⟨hfst, hsnd⟩
      rw [List.foldl_cons, List.map_cons, List.foldl_cons, ← hfst]
      exact ih _ _ hsnd

theorem foldl_collectSource {fresh : Resolver} (ss : List Source) :
    ∀ (found : Collected) (r : Resolver), Remembers fresh r →
      (ss.foldl collectSource (found, r)).1 =
          (ss.flatMap Source.occurrences).foldl fresh.record found ∧
        Remembers fresh (ss.foldl collectSource (found, r)).2 := by
  induction ss with
  | nil => intro found r h; exact ⟨rfl, h⟩
  | cons s ss ih =>
      intro found r h
      rcases foldl_collectDirective s (Reference.scan s.content) found r h with ⟨hfst, hsnd⟩
      rw [List.foldl_cons, List.flatMap_cons, List.foldl_append, Source.occurrences, ← hfst]
      exact ih _ _ hsnd

end Resolver

/-- What a catalog without references gives. -/
def Collected.empty : Collected :=
  ⟨[], [], []⟩

theorem collectEdges_eq (c : Catalog) (partialsDir : Option String) :
    collectEdges c (Resolver.ofCatalog c partialsDir) =
      c.occurrences.foldl (Resolver.ofCatalog c partialsDir).record Collected.empty :=
  (Resolver.foldl_collectSource c.sources _ _ (Resolver.remembers_ofCatalog c partialsDir)).1

namespace Resolver

theorem failures_record (r : Resolver) (found : Collected) (o : Occurrence) :
    (r.record found o).failures = found.failures ++ (r.failure? o).toList := by
  unfold record failure?
  cases r.candidates o with
  | nil => rfl
  | cons p ps =>
      cases ps with
      | nil => exact (List.append_nil _).symm
      | cons q qs => rfl

/-- The failures are those of the occurrences, in their order. -/
theorem failures_foldl_record (r : Resolver) (os : List Occurrence) :
    ∀ found, (os.foldl r.record found).failures = found.failures ++ os.filterMap r.failure? := by
  induction os with
  | nil => intro found; exact (List.append_nil _).symm
  | cons o os ih =>
      intro found
      have hcons : (o :: os).filterMap r.failure? =
          (r.failure? o).toList ++ os.filterMap r.failure? := by
        cases h : r.failure? o with
        | none => rw [List.filterMap_cons_none h, Option.toList_none, List.nil_append]
        | some e => rw [List.filterMap_cons_some h, Option.toList_some, List.singleton_append]
      rw [List.foldl_cons, ih, failures_record, hcons, List.append_assoc]

theorem mem_edges_record {r : Resolver} {found : Collected} {o : Occurrence} {e : Edge} :
    e ∈ (r.record found o).edges ↔
      e ∈ found.edges ∨ ∃ target, r.candidates o = [target] ∧ e = edgeTo o target := by
  unfold record
  cases r.candidates o with
  | nil => simp only [reduceCtorEq, false_and, exists_false, or_false]
  | cons p ps =>
      cases ps with
      | nil => simp only [List.mem_eraseDups, List.mem_append, List.mem_singleton,
          List.cons.injEq, and_true, exists_eq_left']
      | cons q qs => simp only [List.cons.injEq, reduceCtorEq, and_false, false_and,
          exists_false, or_false]

/-- The edges are those that occurrences with one candidate make. -/
theorem mem_edges_foldl_record (r : Resolver) (os : List Occurrence) (e : Edge) :
    ∀ found, e ∈ (os.foldl r.record found).edges ↔
      e ∈ found.edges ∨ ∃ o ∈ os, ∃ target, r.candidates o = [target] ∧ e = edgeTo o target := by
  induction os with
  | nil =>
      intro found
      simp only [List.foldl_nil, List.not_mem_nil, false_and, exists_false, or_false]
  | cons o os ih =>
      intro found
      rw [List.foldl_cons, ih, mem_edges_record, or_assoc, List.exists_mem_cons_iff]

theorem nodup_edges_foldl_record (r : Resolver) (os : List Occurrence) :
    ∀ found, found.edges.Nodup → (os.foldl r.record found).edges.Nodup := by
  induction os with
  | nil => intro found h; exact h
  | cons o os ih =>
      intro found h
      rw [List.foldl_cons]
      refine ih _ ?_
      unfold record
      cases r.candidates o with
      | nil => exact h
      | cons p ps =>
          cases ps with
          | nil => exact nodup_eraseDups _
          | cons q qs => exact h

/-- The table with what one occurrence adds. -/
def addEntry (r : Resolver) (refs : References) (o : Occurrence) : References :=
  match r.candidates o with
  | [target] => References.set refs (keyOf o) target
  | _ => refs

/-- The table that occurrences make. -/
def tableOf (r : Resolver) (os : List Occurrence) : References :=
  os.foldl r.addEntry []

theorem references_record (r : Resolver) (found : Collected) (o : Occurrence) :
    (r.record found o).references = r.addEntry found.references o := by
  unfold record addEntry
  cases r.candidates o with
  | nil => rfl
  | cons p ps =>
      cases ps with
      | nil => rfl
      | cons q qs => rfl

theorem references_foldl_record (r : Resolver) (os : List Occurrence) :
    (os.foldl r.record Collected.empty).references = r.tableOf os := by
  have hgen : ∀ found, (os.foldl r.record found).references =
      os.foldl r.addEntry found.references := by
    induction os with
    | nil => intro found; rfl
    | cons o os ih =>
        intro found
        rw [List.foldl_cons, List.foldl_cons, ih, references_record]
  exact hgen Collected.empty

end Resolver

namespace References

theorem lookup_filter_of_ne {key key' : String × String} (h : key' ≠ key) (refs : References) :
    (refs.filter (·.1 != key)).lookup key' = refs.lookup key' := by
  induction refs with
  | nil => rfl
  | cons entry refs ih =>
      rcases entry with ⟨k, t⟩
      by_cases hk : k = key
      · rw [List.filter_cons_of_neg (by simp only [hk, bne_self_eq_false, Bool.false_eq_true,
          not_false_eq_true]), ih, List.lookup_cons,
          beq_eq_false_iff_ne.mpr (by rw [hk]; exact h)]
      · rw [List.filter_cons, if_pos (bne_iff_ne.mpr hk), List.lookup_cons, List.lookup_cons, ih]

theorem lookup_set_self (refs : References) (key : String × String) (target : String) :
    (refs.set key target).lookup key = some target := by
  rw [set, List.lookup_cons, beq_self_eq_true]

theorem lookup_set_of_ne {key key' : String × String} (h : key' ≠ key) (refs : References)
    (target : String) : (refs.set key target).lookup key' = refs.lookup key' := by
  rw [set, List.lookup_cons, beq_eq_false_iff_ne.mpr h]
  exact lookup_filter_of_ne h refs

end References

namespace Resolver

/-- References with one key have the same candidates: their template has one
    path, and so one directory. -/
theorem candidates_congr {r : Resolver} {o o' : Occurrence} (h : keyOf o = keyOf o') :
    r.candidates o = r.candidates o' := by
  rcases Prod.mk.inj h with ⟨hpath, hname⟩
  rw [candidates, candidates, hpath, hname]

/-- The table says of some occurrences what their candidates say. -/
def Tabulates (r : Resolver) (os : List Occurrence) (refs : References) : Prop :=
  ∀ key target, refs.lookup key = some target ↔
    ∃ o ∈ os, keyOf o = key ∧ r.candidates o = [target]

theorem tabulates_addEntry {r : Resolver} {os : List Occurrence} {refs : References}
    (h : r.Tabulates os refs) (o : Occurrence) :
    r.Tabulates (os ++ [o]) (r.addEntry refs o) := by
  intro key target
  have hsplit : (∃ o' ∈ os ++ [o], keyOf o' = key ∧ r.candidates o' = [target]) ↔
      (refs.lookup key = some target ∨ keyOf o = key ∧ r.candidates o = [target]) := by
    rw [h key target]
    simp only [List.mem_append, List.mem_singleton, or_and_right, exists_or, exists_eq_left]
  rw [hsplit]
  unfold addEntry
  cases hc : r.candidates o with
  | nil => simp only [reduceCtorEq, and_false, or_false]
  | cons p ps =>
      cases ps with
      | cons q qs => simp only [List.cons.injEq, reduceCtorEq, and_false, or_false]
      | nil =>
          simp only
          by_cases hk : keyOf o = key
          · -- An older entry under this key was the same one.
            rw [← hk, References.lookup_set_self]
            constructor
            · intro ht
              exact Or.inr ⟨rfl, by rw [Option.some.inj ht]⟩
            · intro ht
              rcases ht with hold | ⟨_, hnew⟩
              · rcases (h _ target).mp hold with ⟨o', _, hk', hc'⟩
                rw [candidates_congr hk', hc] at hc'
                rw [List.singleton_inj.mp hc']
              · rw [List.singleton_inj.mp hnew]
          · rw [References.lookup_set_of_ne (fun heq => hk heq.symm)]
            simp only [hk, false_and, or_false]

/-- An entry of the table is an occurrence with one candidate. -/
theorem lookup_tableOf (r : Resolver) (os : List Occurrence) :
    r.Tabulates os (r.tableOf os) := by
  have hgen : ∀ (done : List Occurrence) (refs : References),
      r.Tabulates done refs → r.Tabulates (done ++ os) (os.foldl r.addEntry refs) := by
    induction os with
    | nil => intro done refs h; rwa [List.append_nil]
    | cons o os ih =>
        intro done refs h
        rw [List.foldl_cons, ← List.singleton_append, ← List.append_assoc]
        exact ih _ _ (tabulates_addEntry h o)
  refine hgen [] [] (fun key target => ?_)
  simp only [List.lookup_nil, reduceCtorEq, List.not_mem_nil, false_and, exists_false]

end Resolver

end Stencil
