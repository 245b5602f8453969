import Stencil.Proofs.Reference.Cycle

/-!
# The Search for a Cycle

The search for a cycle ends by itself, and its answer is the one that it gives.

`visit` counts its steps down, so it ends whatever the graph is. `Explores` is
the same search without a count: a template on the way closes a cycle, one that
is done with is passed over, and any other is entered, with what it needs as
the next templates to look at. A derivation is finite, so that there is one for
a graph says that the search of that graph ends.

`explores_visitAll` finds the derivation. The way from a query to where the
search is never meets a template twice, so it is no longer than there are
edges, and the count is not used up.

## Main definitions

* `Graph.Explores`: A search with its outcome, without a bound on its steps.
* `Graph.Finds`: The answer of the search from all queries.

## Theorems

* `Graph.Explores.unique`: A search has one outcome.
* `Graph.explores_visitAll`: The search with a count is one without.
* `Graph.finds_iff`: The search ends, with the answer of `findCycle`.
* `Graph.findCycle_sound_complete`: The cycle check is sound and complete.
-/

namespace Stencil

namespace Graph

variable {g : Graph} {active ts done : List String}

/-- A search along the edges with its outcome. `active` is the way to where it
    is, then come the templates that are still to be looked at there, and those
    that are done with. -/
inductive Explores (g : Graph) : List String → List String → List String → Visit → Prop where
  /-- Nothing is left to be looked at. -/
  | ends {active done : List String} : Explores g active [] done (.ok done)
  /-- A template on the way is met again. -/
  | meets {active ts done : List String} {t : String} : t ∈ active →
      Explores g active (t :: ts) done (.error (active.dropWhile (· != t) ++ [t]))
  /-- A template that is done with is passed over. -/
  | skips {active ts done : List String} {t : String} {outcome : Visit} : t ∉ active →
      t ∈ done → Explores g active ts done outcome → Explores g active (t :: ts) done outcome
  /-- A template is entered, and a cycle is found from there. -/
  | fails {active ts done cycle : List String} {t : String} : t ∉ active → t ∉ done →
      Explores g (active ++ [t]) (g.importsOf t) done (.error cycle) →
      Explores g active (t :: ts) done (.error cycle)
  /-- A template is entered, found to be done with, and left. -/
  | leaves {active ts done inner : List String} {t : String} {outcome : Visit} : t ∉ active →
      t ∉ done → Explores g (active ++ [t]) (g.importsOf t) done (.ok inner) →
      Explores g active ts (t :: inner) outcome → Explores g active (t :: ts) done outcome

/-- A search has one outcome. -/
theorem Explores.unique {a b : Visit} (h : g.Explores active ts done a)
    (h' : g.Explores active ts done b) : a = b := by
  induction h generalizing b with
  | ends =>
      cases h' with
      | ends => rfl
  | meets hactive =>
      cases h' with
      | meets => rfl
      | skips hout => exact absurd hactive hout
      | fails hout => exact absurd hactive hout
      | leaves hout => exact absurd hactive hout
  | skips hactive hdone _ ih =>
      cases h' with
      | meets hin => exact absurd hin hactive
      | skips _ _ rest => exact ih rest
      | fails _ hnew => exact absurd hdone hnew
      | leaves _ hnew => exact absurd hdone hnew
  | fails hactive hdone _ ih =>
      cases h' with
      | meets hin => exact absurd hin hactive
      | skips _ hold => exact absurd hold hdone
      | fails _ _ inside => exact ih inside
      | leaves _ _ inside => exact absurd (ih inside) (by simp only [reduceCtorEq,
          not_false_eq_true])
  | leaves hactive hdone _ _ ihInside ihRest =>
      cases h' with
      | meets hin => exact absurd hin hactive
      | skips _ hold => exact absurd hold hdone
      | fails _ _ inside => exact absurd (ihInside inside) (by simp only [reduceCtorEq,
          not_false_eq_true])
      | leaves _ _ inside rest =>
          rw [← Except.ok.inj (ihInside inside)] at rest
          exact ihRest rest

/-- The search with a count is one without, as long as the count and the way
    together outnumber the edges. -/
theorem explores_visitAll (fuel : Nat) : ∀ (active ts done : List String),
    g.edges.length < fuel + active.length → (∀ t ∈ ts, t ∉ active → g.Trail (active ++ [t])) →
      g.Explores active ts done (visitAll (g.visit fuel active) active ts done) := by
  induction fuel with
  | zero =>
      intro active ts done hfuel htrail
      cases ts with
      | nil => exact Explores.ends
      | cons t ts =>
          -- The way is too long to go on, so it meets itself here.
          by_cases hactive : t ∈ active
          · rw [visitAll, if_pos (List.contains_iff_mem.mpr hactive)]
            exact Explores.meets hactive
          · have hway := htrail t List.mem_cons_self hactive
            have hle := length_le_of_isChain hway.steps
              (hway.distinct.sublist (List.sublist_append_left active [t]))
            omega
  | succ fuel ih =>
      intro active ts
      induction ts with
      | nil => exact fun _ _ _ => Explores.ends
      | cons t ts ihts =>
          intro done hfuel htrail
          have hrest : ∀ done, g.Explores active ts done
              (visitAll (g.visit (fuel + 1) active) active ts done) := fun done =>
            ihts done hfuel (fun u hu => htrail u (List.mem_cons_of_mem _ hu))
          by_cases hactive : t ∈ active
          · rw [visitAll, if_pos (List.contains_iff_mem.mpr hactive)]
            exact Explores.meets hactive
          rw [visitAll, if_neg (fun h => hactive (List.contains_iff_mem.mp h))]
          by_cases hdone : t ∈ done
          · rw [if_pos (List.contains_iff_mem.mpr hdone)]
            exact Explores.skips hactive hdone (hrest done)
          rw [if_neg (fun h => hdone (List.contains_iff_mem.mp h)), visit]
          have hway := htrail t List.mem_cons_self hactive
          have hinside := ih (active ++ [t]) (g.importsOf t) done
            (by rw [List.length_append, List.length_singleton]; omega)
            (fun u hu hfresh => hway.concat hfresh
              (isChain_concat hway.steps (mem_importsOf.mp hu)) (List.concat_ne_nil _ _))
          cases hall : visitAll (g.visit fuel (active ++ [t])) (active ++ [t]) (g.importsOf t)
              done with
          | error cycle =>
              rw [hall] at hinside
              exact Explores.fails hactive hdone hinside
          | ok inner =>
              rw [hall] at hinside
              exact Explores.leaves hactive hdone hinside (hrest _)

/-- The way to a query from itself. -/
theorem trail_query {q : Source} (hq : q ∈ g.queries) : g.Trail [q.path] := by
  refine ⟨List.isChain_singleton _, List.nodup_singleton _, fun v hv => ?_⟩
  rw [List.head?_cons, Option.mem_some_iff] at hv
  exact ⟨q, hq, hv⟩

/-- The search from all queries, without a bound on its steps, ends with this
    cycle, or without one. -/
def Finds (g : Graph) : Option (List String) → Prop
  | some cycle => g.Explores [] (g.queries.map (·.path)) [] (.error cycle)
  | none => ∃ done, g.Explores [] (g.queries.map (·.path)) [] (.ok done)

/-- The search from all queries ends, with the answer of `findCycle` and no
    other. -/
theorem finds_iff {answer : Option (List String)} : g.Finds answer ↔ g.findCycle = answer := by
  have hends : g.Explores [] (g.queries.map (·.path)) []
      (visitAll (g.visit (g.edges.length + 1) []) [] (g.queries.map (·.path)) []) := by
    refine explores_visitAll _ [] _ [] (Nat.lt_succ_self _) (fun t ht _ => ?_)
    rcases List.mem_map.mp ht with ⟨q, hq, rfl⟩
    exact trail_query hq
  rw [findCycle]
  cases hall : visitAll (g.visit (g.edges.length + 1) []) [] (g.queries.map (·.path)) [] with
  | error cycle =>
      rw [hall] at hends
      cases answer with
      | none =>
          constructor
          · rintro ⟨done, h⟩
            exact absurd (hends.unique h) (by simp only [reduceCtorEq, not_false_eq_true])
          · exact fun h => absurd h (Option.some_ne_none _)
      | some nodes =>
          constructor
          · exact fun h => congrArg some (Except.error.inj (hends.unique h))
          · exact fun h => Option.some.inj h ▸ hends
  | ok done =>
      rw [hall] at hends
      cases answer with
      | none => exact ⟨fun _ => rfl, fun _ => ⟨done, hends⟩⟩
      | some nodes => exact ⟨fun h => absurd (hends.unique h) (by simp only [reduceCtorEq,
          not_false_eq_true]), fun h => absurd h (Option.some_ne_none _).symm⟩

/-- The cycle check is sound and complete. The search ends by itself, with the
    answer of `findCycle` and no other. It finds nothing exactly if no query
    reaches a cycle, and what it finds otherwise is a way from a template back
    to it along edges, on which no other template stands twice, and the
    template is reached from a query. -/
theorem findCycle_sound_complete (g : Graph) :
    (∀ answer, g.Finds answer ↔ g.findCycle = answer) ∧
    (g.findCycle = none ↔ ∀ q ∈ g.queries, ¬ g.ReachesCycle q.path) ∧
    ∀ nodes, g.findCycle = some nodes → ∃ v way, nodes = v :: way ++ [v] ∧
      (v :: way).Nodup ∧ nodes.IsChain g.Needs ∧ ∃ q ∈ g.queries, g.Reaches q.path v := by
  refine ⟨fun _ => finds_iff, findCycle_eq_none_iff, fun nodes h => ?_⟩
  rcases isCycle_of_findCycle h with ⟨hcycle, hreach⟩
  rcases hcycle.reaches with ⟨u, hu, hback⟩
  rcases hcycle with ⟨v, way, rfl, hchain, hnodup⟩
  have hhead : u = v := by
    rw [List.cons_append, List.head?_cons, Option.mem_some_iff] at hu
    exact hu.symm
  rcases hreach u hu with ⟨q, hq, hpath⟩
  rw [hhead] at hpath hback
  refine ⟨v, way, rfl, hnodup, hchain, q, hq, ?_⟩
  -- A query on the cycle is reached from itself.
  rcases hpath with rfl | hpath
  · exact hback
  · exact hpath

end Graph

end Stencil
