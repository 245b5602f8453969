import Mathlib.Data.List.TakeWhile
import Stencil.Proofs.Reference.Reach

/-!
# Finding Cycles

The visit finds a cycle if a query reaches one.

A visit is a walk along the edges that keeps two lists: the templates on the
way to where it is, and those it is done with. `Settled` is what holds of the
second list throughout: it contains what its members need, none of them
reaches itself, and none of them is on the way. A template is added once all
that it needs is in the list. If it reached itself, the list would contain it
already.

A visit that fails has met a template that is on the way, so the way from
there on is a cycle. It does not fail for want of steps: the templates on the
way differ, each has an edge, and there is one step more than there are edges.

## Main definitions

* `Graph.Settled`: What holds of the templates that a visit is done with.
* `Graph.Trail`: A way from a query that meets no template twice.
* `Graph.IsCycle`: A way from a template back to it.

## Theorems

* `Graph.visit_ok`: What a visit adds is settled.
* `Graph.visit_error`: What a visit fails with is a cycle.
* `Graph.isCycle_of_findCycle`: The cycle found is one that a query reaches.
* `Graph.findCycle_eq_none_iff`: No cycle is found if no query reaches one.
-/

namespace Stencil

namespace Graph

variable {g : Graph}

/-- What holds of the templates that a visit is done with, `active` being
    those on the way to where it is. -/
structure Settled (g : Graph) (active done : List String) : Prop where
  /-- They need only each other. -/
  closed : ∀ u ∈ done, ∀ v, g.Needs u v → v ∈ done
  /-- None reaches itself. -/
  acyclic : ∀ v ∈ done, ¬ g.Reaches v v
  /-- None is on the way. -/
  apart : ∀ v ∈ done, v ∉ active

/-- What a visit of one template achieves, if it ends well. -/
def Completes (g : Graph) (active : List String) (node : String) (done done' : List String) :
    Prop :=
  g.Settled active done' ∧ (∀ v ∈ done, v ∈ done') ∧ node ∈ done'

theorem visitAll_ok {visit : String → List String → Visit} {active : List String}
    (hvisit : ∀ t done done', t ∉ active → t ∉ done → g.Settled active done →
      visit t done = .ok done' → g.Completes active t done done') (ts : List String) :
    ∀ done done', g.Settled active done → visitAll visit active ts done = .ok done' →
      g.Settled active done' ∧ (∀ v ∈ done, v ∈ done') ∧ ∀ t ∈ ts, t ∈ done' := by
  induction ts with
  | nil =>
      intro done done' hs h
      rw [visitAll, Except.ok.injEq] at h
      rw [← h]
      exact ⟨hs, fun _ hv => hv, fun _ ht => absurd ht List.not_mem_nil⟩
  | cons t ts ih =>
      intro done done' hs h
      rw [visitAll] at h
      by_cases hactive : active.contains t = true
      · rw [if_pos hactive] at h
        exact absurd h (by simp only [reduceCtorEq, not_false_eq_true])
      · rw [if_neg hactive] at h
        rw [List.contains_iff_mem] at hactive
        by_cases hdone : done.contains t = true
        -- A template that is done already is passed over.
        · rw [if_pos hdone] at h
          rw [List.contains_iff_mem] at hdone
          rcases ih done done' hs h with ⟨hs', hsub, hts⟩
          refine ⟨hs', hsub, fun v hv => ?_⟩
          rcases List.mem_cons.mp hv with rfl | hv
          · exact hsub _ hdone
          · exact hts _ hv
        · rw [if_neg hdone] at h
          rw [List.contains_iff_mem] at hdone
          cases hstep : visit t done with
          | error cycle =>
              rw [hstep] at h
              exact absurd h (by simp only [reduceCtorEq, not_false_eq_true])
          | ok next =>
              rw [hstep] at h
              rcases hvisit t done next hactive hdone hs hstep with ⟨hs', hsub, ht⟩
              rcases ih next done' hs' h with ⟨hs'', hsub', hts⟩
              refine ⟨hs'', fun v hv => hsub' _ (hsub _ hv), fun v hv => ?_⟩
              rcases List.mem_cons.mp hv with rfl | hv
              · exact hsub' _ ht
              · exact hts _ hv

/-- What a visit adds is settled. The node itself comes last, when all that
    it needs is in the list already. -/
theorem visit_ok (fuel : Nat) : ∀ (active : List String) (node : String)
    (done done' : List String), node ∉ active → node ∉ done → g.Settled active done →
      g.visit fuel active node done = .ok done' → g.Completes active node done done' := by
  induction fuel with
  | zero =>
      intro active node done done' _ _ _ h
      rw [visit] at h
      exact absurd h (by simp only [reduceCtorEq, not_false_eq_true])
  | succ fuel ih =>
      intro active node done done' hactive hdone hs h
      rw [visit] at h
      cases hall : visitAll (g.visit fuel (active ++ [node])) (active ++ [node])
          (g.importsOf node) done with
      | error cycle =>
          simp only [hall, reduceCtorEq] at h
      | ok next =>
          simp only [hall, Except.ok.injEq] at h
          -- The node is on the way now, and it is not among those that are done.
          have hhere : g.Settled (active ++ [node]) done := by
            refine ⟨hs.closed, hs.acyclic, fun v hv hmem => ?_⟩
            rcases List.mem_append.mp hmem with hmem | hmem
            · exact hs.apart v hv hmem
            · rw [List.mem_singleton.mp hmem] at hv
              exact hdone hv
          rcases visitAll_ok (fun t d d' => ih (active ++ [node]) t d d') _ done next hhere hall
            with ⟨hs', hsub, himports⟩
          have hneeds : ∀ v, g.Needs node v → v ∈ next :=
            fun v hv => himports v (mem_importsOf.mpr hv)
          have hnode : node ∉ next := fun hmem =>
            hs'.apart node hmem (List.mem_append_right _ (List.mem_singleton_self _))
          rw [← h]
          refine ⟨⟨fun u hu v hv => ?_, fun v hv => ?_, fun v hv => ?_⟩,
            fun v hv => List.mem_cons_of_mem _ (hsub v hv), List.mem_cons_self⟩
          · rcases List.mem_cons.mp hu with rfl | hu
            · exact List.mem_cons_of_mem _ (hneeds v hv)
            · exact List.mem_cons_of_mem _ (hs'.closed u hu v hv)
          · rcases List.mem_cons.mp hv with rfl | hv
            -- A way back to the node would go through what it needs, and that is done without it.
            · intro hcycle
              rcases reaches_iff.mp hcycle with ⟨w, hw, heq | hback⟩
              · rw [heq] at hw
                exact hnode (hneeds _ hw)
              · exact hnode (hback.mem_of_closed hs'.closed (hneeds w hw))
            · exact hs'.acyclic v hv
          · rcases List.mem_cons.mp hv with rfl | hv
            · exact hactive
            · exact fun hmem => hs'.apart v hv (List.mem_append_left _ hmem)

/-- A way from a query, on which no template stands twice. -/
structure Trail (g : Graph) (way : List String) : Prop where
  /-- Each template needs the next. -/
  steps : way.IsChain g.Needs
  /-- No template stands twice. -/
  distinct : way.Nodup
  /-- The first template is a query. -/
  start : ∀ v ∈ way.head?, ∃ q ∈ g.queries, q.path = v

/-- A way from a template back to it, that passes no other one twice. -/
def IsCycle (g : Graph) (nodes : List String) : Prop :=
  ∃ v way, nodes = v :: way ++ [v] ∧ nodes.IsChain g.Needs ∧ (v :: way).Nodup

/-- A query reaches the template or is it. -/
def QueryReaches (g : Graph) (path : String) : Prop :=
  ∃ q ∈ g.queries, q.path = path ∨ g.Reaches q.path path

/-- Everything on a trail can be reached from a query. -/
theorem Trail.queryReaches {way : List String} (h : g.Trail way) {v : String} (hv : v ∈ way) :
    g.QueryReaches v := by
  cases way with
  | nil => exact absurd hv List.not_mem_nil
  | cons u us =>
      rcases h.start u rfl with ⟨q, hq, rfl⟩
      refine ⟨q, hq, ?_⟩
      rcases List.mem_cons.mp hv with rfl | hv
      · exact Or.inl rfl
      · exact Or.inr ((List.pairwise_cons.mp (reaches_of_isChain h.steps)).1 v hv)

/-- A cycle is found where the way meets itself: what lies between the two
    visits is a way back. -/
theorem Trail.isCycle {way : List String} (h : g.Trail way) {t : String} (ht : t ∈ way)
    (hnext : (way ++ [t]).IsChain g.Needs) : g.IsCycle (way.dropWhile (· != t) ++ [t]) := by
  have hmeets : way.dropWhile (· != t) ≠ [] := by
    intro hnil
    rw [List.dropWhile_eq_nil_iff] at hnil
    exact absurd (hnil t ht) (by simp only [bne_self_eq_false, Bool.false_eq_true,
      not_false_eq_true])
  rcases List.exists_cons_of_ne_nil hmeets with ⟨u, us, hdrop⟩
  have hu : u = t := by
    have hhead := List.head?_dropWhile_not (· != t) way
    rw [hdrop, List.head?_cons] at hhead
    simpa only [bne_eq_false_iff_eq] using hhead
  have hsuffix : way.dropWhile (· != t) <:+ way := List.dropWhile_suffix _
  rw [hdrop, hu] at hsuffix ⊢
  refine ⟨t, us, rfl, ?_, h.distinct.sublist hsuffix.sublist⟩
  rcases hsuffix with ⟨before, hway⟩
  rw [← hway, List.append_assoc] at hnext
  exact hnext.right_of_append

/-- A visit of several templates fails at one of them: because it is on the
    way, or because its own visit fails. -/
theorem visitAll_error {visit : String → List String → Visit} {active : List String}
    (ts : List String) : ∀ done cycle, visitAll visit active ts done = .error cycle →
      ∃ t ∈ ts, t ∈ active ∧ cycle = active.dropWhile (· != t) ++ [t] ∨
        t ∉ active ∧ ∃ done, visit t done = .error cycle := by
  induction ts with
  | nil =>
      intro done cycle h
      rw [visitAll] at h
      exact absurd h (by simp only [reduceCtorEq, not_false_eq_true])
  | cons t ts ih =>
      intro done cycle h
      have hrest : ∀ done, visitAll visit active ts done = .error cycle →
          ∃ u ∈ t :: ts, u ∈ active ∧ cycle = active.dropWhile (· != u) ++ [u] ∨
            u ∉ active ∧ ∃ done, visit u done = .error cycle := by
        intro done h
        rcases ih done cycle h with ⟨u, hu, hcase⟩
        exact ⟨u, List.mem_cons_of_mem _ hu, hcase⟩
      rw [visitAll] at h
      by_cases hactive : active.contains t = true
      · rw [if_pos hactive, Except.error.injEq] at h
        exact ⟨t, List.mem_cons_self, Or.inl ⟨List.contains_iff_mem.mp hactive, h.symm⟩⟩
      · rw [if_neg hactive] at h
        rw [List.contains_iff_mem] at hactive
        by_cases hdone : done.contains t = true
        · rw [if_pos hdone] at h
          exact hrest done h
        · rw [if_neg hdone] at h
          cases hstep : visit t done with
          | error cycle' =>
              rw [hstep, Except.error.injEq] at h
              rw [h] at hstep
              exact ⟨t, List.mem_cons_self, Or.inr ⟨hactive, done, hstep⟩⟩
          | ok next =>
              rw [hstep] at h
              exact hrest next h

theorem Trail.concat {way : List String} (h : g.Trail way) {t : String} (ht : t ∉ way)
    (hnext : (way ++ [t]).IsChain g.Needs) (hne : way ≠ []) : g.Trail (way ++ [t]) := by
  refine ⟨hnext, ?_, ?_⟩
  · exact List.nodup_append.mpr ⟨h.distinct, List.nodup_singleton t, fun u hu v hv =>
      fun heq => ht (by rw [← List.mem_singleton.mp hv, ← heq]; exact hu)⟩
  · rw [List.head?_append_of_ne_nil _ hne]
    exact h.start

/-- What a visit fails with is a cycle that a query reaches, as long as the
    steps and the way together outnumber the edges. -/
theorem visit_error (fuel : Nat) : ∀ (active : List String) (node : String)
    (done cycle : List String), g.Trail (active ++ [node]) →
      g.edges.length < fuel + active.length → g.visit fuel active node done = .error cycle →
      g.IsCycle cycle ∧ ∀ v ∈ cycle.head?, g.QueryReaches v := by
  induction fuel with
  | zero =>
      intro active node done cycle htrail hfuel _
      have hle := length_le_of_isChain htrail.steps (htrail.distinct.sublist
        (List.sublist_append_left active [node]))
      -- The way is a trail without repetition, so it is no longer than there are edges.
      omega
  | succ fuel ih =>
      intro active node done cycle htrail hfuel h
      rw [visit] at h
      cases hall : visitAll (g.visit fuel (active ++ [node])) (active ++ [node])
          (g.importsOf node) done with
      | ok next => simp only [hall, reduceCtorEq] at h
      | error cycle' =>
          simp only [hall, Except.error.injEq] at h
          rw [h] at hall
          rcases visitAll_error _ _ _ hall with ⟨t, ht, hcase⟩
          have hnext := isChain_concat htrail.steps (mem_importsOf.mp ht)
          rcases hcase with ⟨hactive, rfl⟩ | ⟨hactive, done', hvisit⟩
          · rcases htrail.isCycle hactive hnext with ⟨u, us, hnodes, hrest⟩
            refine ⟨⟨u, us, hnodes, hrest⟩, fun v hv => htrail.queryReaches ?_⟩
            have hdrop : (active ++ [node]).dropWhile (· != t) = u :: us :=
              List.append_inj_left' hnodes rfl
            rw [hdrop, List.cons_append, List.head?_cons, Option.mem_some_iff] at hv
            have hmem : u ∈ (active ++ [node]).dropWhile (· != t) := by
              rw [hdrop]
              exact List.mem_cons_self
            rw [← hv]
            exact (List.dropWhile_suffix _).mem hmem
          · refine ih (active ++ [node]) t done' cycle
              (htrail.concat hactive hnext (List.concat_ne_nil _ _)) ?_ hvisit
            rw [List.length_append, List.length_singleton]
            omega

/-- The cycle found is a cycle, and a query reaches it. -/
theorem isCycle_of_findCycle {nodes : List String} (h : g.findCycle = some nodes) :
    g.IsCycle nodes ∧ ∀ v ∈ nodes.head?, g.QueryReaches v := by
  rw [findCycle] at h
  cases hall : visitAll (g.visit (g.edges.length + 1) []) [] (g.queries.map (·.path)) [] with
  | ok done => simp only [hall, reduceCtorEq] at h
  | error cycle =>
      simp only [hall, Option.some.injEq] at h
      rw [h] at hall
      rcases visitAll_error _ _ _ hall with ⟨t, ht, hcase⟩
      rcases hcase with ⟨hactive, _⟩ | ⟨_, done, hvisit⟩
      · exact absurd hactive List.not_mem_nil
      · refine visit_error _ [] t done nodes ?_ (Nat.lt_succ_self _) hvisit
        refine ⟨List.isChain_singleton t, List.nodup_singleton t, fun v hv => ?_⟩
        rw [List.nil_append, List.head?_cons, Option.mem_some_iff] at hv
        rcases List.mem_map.mp ht with ⟨q, hq, hpath⟩
        exact ⟨q, hq, hpath.trans hv⟩

/-- A cycle leads from its first template back to it. -/
theorem IsCycle.reaches {nodes : List String} (h : g.IsCycle nodes) :
    ∃ v ∈ nodes.head?, g.Reaches v v := by
  rcases h with ⟨v, way, rfl, hchain, _⟩
  refine ⟨v, rfl, ?_⟩
  rw [List.cons_append] at hchain
  exact (List.pairwise_cons.mp (reaches_of_isChain hchain)).1 v
    (List.mem_append_right _ (List.mem_singleton_self v))

/-- No cycle is found exactly if no query reaches one. -/
theorem findCycle_eq_none_iff :
    g.findCycle = none ↔ ∀ q ∈ g.queries, ¬ g.ReachesCycle q.path := by
  constructor
  · intro h q hq hcycle
    rw [findCycle] at h
    cases hall : visitAll (g.visit (g.edges.length + 1) []) [] (g.queries.map (·.path)) [] with
    | error cycle => simp only [hall, reduceCtorEq] at h
    | ok done =>
        have hempty : g.Settled [] [] := ⟨fun _ hu => absurd hu List.not_mem_nil,
          fun _ hv => absurd hv List.not_mem_nil, fun _ hv => absurd hv List.not_mem_nil⟩
        rcases visitAll_ok (visit_ok _ []) _ [] done hempty hall with ⟨hs, _, hqueries⟩
        -- All queries are done in the end, and with them all that they reach.
        have hdone : q.path ∈ done := hqueries _ (List.mem_map_of_mem hq)
        rcases hcycle with ⟨v, rfl | hreach, hback⟩
        · exact hs.acyclic _ hdone hback
        · exact hs.acyclic v (hreach.mem_of_closed hs.closed hdone) hback
  · intro h
    cases hfind : g.findCycle with
    | none => rfl
    | some nodes =>
        rcases isCycle_of_findCycle hfind with ⟨hcycle, hreach⟩
        rcases hcycle.reaches with ⟨v, hv, hback⟩
        rcases hreach v hv with ⟨q, hq, hqv⟩
        exact absurd ⟨v, hqv, hback⟩ (h q hq)

end Graph

end Stencil
