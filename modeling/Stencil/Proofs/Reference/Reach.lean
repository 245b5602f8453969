import Mathlib.Data.List.Chain
import Mathlib.Data.List.Nodup
import Mathlib.Data.List.Perm.Subperm
import Stencil.Proofs.Sorted
import Stencil.Reference.Graph

/-!
# Reaching Templates

Needing, reaching and the ways between templates.

`Reaches` is built from edges. Everything that walks a graph asks `importsOf`
instead, which sorts the targets and drops the kinds, so `Needs` is the
relation both agree on. A way is a list of templates each of which needs the
next one. A way that meets a template twice goes around a cycle, and a way
that meets none twice is no longer than there are edges, which is what bounds
both the visit and the closures.

## Main definitions

* `Graph.Needs`: One template needs another, for whatever reason.
* `Graph.ReachesCycle`: A cycle can be reached.

## Theorems

* `Graph.mem_importsOf`: What a template needs directly is what it needs.
* `Graph.reaches_iff`: Reaching is needing, or needing what reaches.
* `Graph.Reaches.trans`: Reaching goes on.
* `Graph.reaches_of_isChain`: What stands later on a way is reached.
* `Graph.isChain_concat`: A way goes on with what its last template needs.
* `Graph.length_le_of_isChain`: A way without repetition is no longer than
  there are edges.
-/

namespace Stencil

namespace Graph

variable {g : Graph}

/-- One template needs another, for whatever reason. -/
def Needs (g : Graph) (path target : String) : Prop :=
  ∃ e ∈ g.edges, e.source = path ∧ e.target = target

theorem mem_importsOf {path target : String} :
    target ∈ g.importsOf path ↔ g.Needs path target := by
  rw [importsOf, mem_sortedSet, List.mem_map, Needs]
  constructor
  · intro h
    rcases h with ⟨e, he, rfl⟩
    rw [List.mem_filter, beq_iff_eq] at he
    exact ⟨e, he.1, he.2, rfl⟩
  · intro h
    rcases h with ⟨e, he, rfl, rfl⟩
    exact ⟨e, List.mem_filter.mpr ⟨he, beq_self_eq_true _⟩, rfl⟩

theorem Needs.reaches {u v : String} (h : g.Needs u v) : g.Reaches u v := by
  rcases h with ⟨e, he, rfl, rfl⟩
  exact Reaches.edge he

theorem Needs.trans_reaches {u v w : String} (h : g.Needs u v) (rest : g.Reaches v w) :
    g.Reaches u w := by
  rcases h with ⟨e, he, rfl, rfl⟩
  exact Reaches.step he rest

theorem reaches_iff {u w : String} :
    g.Reaches u w ↔ ∃ v, g.Needs u v ∧ (v = w ∨ g.Reaches v w) := by
  constructor
  · intro h
    cases h with
    | edge he => exact ⟨_, ⟨_, he, rfl, rfl⟩, Or.inl rfl⟩
    | step he rest => exact ⟨_, ⟨_, he, rfl, rfl⟩, Or.inr rest⟩
  · intro h
    rcases h with ⟨v, hv, rfl | hw⟩
    · exact hv.reaches
    · exact hv.trans_reaches hw

theorem Reaches.trans {u v w : String} (h : g.Reaches u v) (rest : g.Reaches v w) :
    g.Reaches u w := by
  induction h with
  | edge he => exact Reaches.step he rest
  | step he _ ih => exact Reaches.step he (ih rest)

/-- A set that contains what its members need contains what they reach. -/
theorem Reaches.mem_of_closed {u v : String} {done : List String}
    (closed : ∀ x ∈ done, ∀ y, g.Needs x y → y ∈ done) (h : g.Reaches u v) :
    u ∈ done → v ∈ done := by
  induction h with
  | edge he => intro hu; exact closed _ hu _ ⟨_, he, rfl, rfl⟩
  | step he _ ih => intro hu; exact ih (closed _ hu _ ⟨_, he, rfl, rfl⟩)

/-- A cycle can be reached from a template, or the template is on one. -/
def ReachesCycle (g : Graph) (path : String) : Prop :=
  ∃ v, (path = v ∨ g.Reaches path v) ∧ g.Reaches v v

theorem ReachesCycle.of_needs {u v : String} (h : g.Needs u v) (hv : g.ReachesCycle v) :
    g.ReachesCycle u := by
  rcases hv with ⟨w, hw, hcycle⟩
  exact ⟨w, Or.inr (reaches_iff.mpr ⟨v, h, hw⟩), hcycle⟩

/-- What stands later on a way is reached from what stands earlier. -/
theorem reaches_of_isChain {way : List String} (h : way.IsChain g.Needs) :
    way.Pairwise g.Reaches := by
  have htrans : Trans g.Reaches g.Reaches g.Reaches := ⟨fun hu hv => hu.trans hv⟩
  exact (h.imp fun _ _ hn => Needs.reaches hn).pairwise

/-- A way goes on with what its last template needs. -/
theorem isChain_concat {way : List String} {node t : String}
    (h : (way ++ [node]).IsChain g.Needs) (hneeds : g.Needs node t) :
    (way ++ [node] ++ [t]).IsChain g.Needs := by
  refine List.isChain_append.mpr ⟨h, List.isChain_singleton t, fun u hu v hv => ?_⟩
  rw [List.getLast?_concat, Option.mem_some_iff] at hu
  rw [List.head?_cons, Option.mem_some_iff] at hv
  rw [← hu, ← hv]
  exact hneeds

/-- Every template on a way but the last needs another one. A way on which no
    template stands twice therefore has an edge for each but the last. -/
theorem length_le_of_isChain {way : List String} {last : String}
    (h : (way ++ [last]).IsChain g.Needs) (hnodup : way.Nodup) :
    way.length ≤ g.edges.length := by
  have hsource : ∀ v ∈ way, v ∈ g.edges.map (·.source) := by
    intro v hv
    rcases List.append_of_mem hv with ⟨before, after, rfl⟩
    rw [List.append_assoc, List.cons_append] at h
    have hrest : ((v :: (after ++ [last])).IsChain g.Needs) := h.right_of_append
    rcases List.exists_cons_of_ne_nil (List.concat_ne_nil last after) with ⟨w, ws, hw⟩
    rw [hw, List.isChain_cons_cons] at hrest
    rcases hrest.1 with ⟨e, he, hs, _⟩
    exact List.mem_map.mpr ⟨e, he, hs⟩
  have hle : way.length ≤ (g.edges.map (·.source)).length :=
    (List.subperm_of_subset hnodup hsource).length_le
  rwa [List.length_map] at hle

end Graph

end Stencil
