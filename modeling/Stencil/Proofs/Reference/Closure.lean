import Stencil.Proofs.Reference.Reach

/-!
# Closures

A closure is what a template reaches, and it exists if that has no cycle.

Closures are looked up among those known, and each one found is remembered.
`Sound` is what every table of known closures satisfies: an entry ascends,
has what its template reaches and nothing else, and its template reaches no
cycle. The last part makes the converse go through: a walk that ends cannot
have gone around.

The count of `closeFrom` bounds a way that the walk does not record.
`closeFrom_isSome` names that way. As no cycle is reached, no template stands
on it twice, so it is no longer than there are edges.

## Main definitions

* `Graph.IsClosure`: The list is what a template reaches, ascending.
* `Graph.Sound`: Known closures are right.

## Theorems

* `Graph.closeFrom_sound`: What is found is right, and what is remembered too.
* `Graph.closeFrom_isSome`: A template that reaches no cycle has a closure.
* `Graph.closure?_eq_some`: A closure is what a template reaches.
* `Graph.closure?_isSome_iff`: A template has a closure if it reaches no cycle.
* `Graph.mem_watchSet?`: What a watch set contains.
-/

namespace Stencil

namespace Graph

variable {g : Graph}

/-- The list is what a template reaches, ascending. -/
structure IsClosure (g : Graph) (path : String) (found : List String) : Prop where
  /-- The list ascends strictly. -/
  ascending : found.Pairwise (· < ·)
  /-- Its members are what is reached. -/
  mem_iff : ∀ v, v ∈ found ↔ g.Reaches path v

/-- The closure of a template is unique. -/
theorem IsClosure.unique {path : String} {found found' : List String}
    (h : g.IsClosure path found) (h' : g.IsClosure path found') : found = found' :=
  eq_of_pairwise_lt h.ascending h'.ascending (fun v => by rw [h.mem_iff, h'.mem_iff])

/-- Known closures are right, and none is known of a template that reaches a
    cycle. -/
def Sound (g : Graph) (known : Closures) : Prop :=
  ∀ path found, known.lookup path = some found → g.IsClosure path found ∧ ¬ g.ReachesCycle path

theorem sound_nil : g.Sound [] := by
  intro path found h
  exact absurd h (by simp only [List.lookup_nil, reduceCtorEq, not_false_eq_true])

theorem Sound.cons {known : Closures} (h : g.Sound known) {path : String} {found : List String}
    (hfound : g.IsClosure path found) (hcycle : ¬ g.ReachesCycle path) :
    g.Sound ((path, found) :: known) := by
  intro path' found' hlookup
  rw [List.lookup_cons] at hlookup
  by_cases heq : path' = path
  · rw [heq, beq_self_eq_true] at hlookup
    rw [heq, ← Option.some.inj hlookup]
    exact ⟨hfound, hcycle⟩
  · rw [beq_eq_false_iff_ne.mpr heq] at hlookup
    exact h path' found' hlookup

/-- The closure of one template: sound as a step of `collect`. -/
def Closes (g : Graph) (close : Closures → String → Option (List String) × Closures) : Prop :=
  ∀ known path, g.Sound known →
    g.Sound (close known path).2 ∧ ∀ found, (close known path).1 = some found →
      g.IsClosure path found ∧ ¬ g.ReachesCycle path

theorem collect_sound {close : Closures → String → Option (List String) × Closures}
    (hclose : g.Closes close) (ts : List String) : ∀ found known, g.Sound known →
      g.Sound (collect close ts found known).2 ∧
        ∀ all, (collect close ts found known).1 = some all →
          (∀ v, v ∈ all ↔ v ∈ found ∨ ∃ t ∈ ts, t = v ∨ g.Reaches t v) ∧
            ∀ t ∈ ts, ¬ g.ReachesCycle t := by
  induction ts with
  | nil =>
      intro found known hknown
      refine ⟨hknown, fun all h => ?_⟩
      rw [← Option.some.inj h]
      simp only [List.not_mem_nil, false_and, exists_false, or_false, implies_true,
        false_implies, and_self]
  | cons t ts ih =>
      intro found known hknown
      rcases hclose known t hknown with ⟨hsnd, hfst⟩
      rcases hstep : close known t with ⟨answer, known'⟩
      rw [hstep] at hsnd hfst
      rw [collect, hstep]
      cases answer with
      | none => exact ⟨hsnd, fun all h => absurd h (by
          simp only [reduceCtorEq, not_false_eq_true])⟩
      | some more =>
          rcases hfst more rfl with ⟨hmore, hcycle⟩
          rcases ih (found ++ t :: more) known' hsnd with ⟨hsnd', hrest⟩
          refine ⟨hsnd', fun all h => ?_⟩
          rcases hrest all h with ⟨hmem, hcycles⟩
          refine ⟨fun v => ?_, fun u hu => ?_⟩
          · rw [hmem v, List.mem_append, List.mem_cons, hmore.mem_iff v, or_assoc,
              List.exists_mem_cons_iff, @eq_comm _ v t]
          · rcases List.mem_cons.mp hu with rfl | hu
            · exact hcycle
            · exact hcycles u hu

/-- What a template needs and what that reaches is what the template reaches,
    and no cycle is reached unless one of those templates reaches it. -/
theorem isClosure_of_imports {path : String} {found : List String}
    (hmem : ∀ v, v ∈ found ↔ ∃ t ∈ g.importsOf path, t = v ∨ g.Reaches t v) :
    g.IsClosure path (sortedSet found) := by
  refine ⟨sortedSet_pairwise found, fun v => ?_⟩
  rw [mem_sortedSet, hmem v, reaches_iff]
  simp only [mem_importsOf]

theorem not_reachesCycle_of_imports {path : String}
    (h : ∀ t, g.Needs path t → ¬ g.ReachesCycle t) : ¬ g.ReachesCycle path := by
  intro hcycle
  rcases hcycle with ⟨v, hv, hback⟩
  -- The cycle is past the first step, or it comes back to `path` after it.
  have hstep : ∀ w, g.Reaches path w → g.Reaches w w → False := by
    intro w hw hself
    rcases reaches_iff.mp hw with ⟨t, ht, htw⟩
    exact h t ht ⟨w, htw, hself⟩
  rcases hv with rfl | hv
  · exact hstep _ hback hback
  · exact hstep _ hv hback

/-- What is found is right, and what is remembered too. -/
theorem closeFrom_sound (fuel : Nat) : g.Closes (g.closeFrom fuel) := by
  induction fuel with
  | zero =>
      intro known path hknown
      rw [closeFrom]
      exact ⟨hknown, fun found h => absurd h (by simp only [reduceCtorEq, not_false_eq_true])⟩
  | succ fuel ih =>
      intro known path hknown
      rw [closeFrom]
      cases hlookup : known.lookup path with
      | some found =>
          refine ⟨hknown, fun found' h => ?_⟩
          rw [← Option.some.inj h]
          exact hknown path found hlookup
      | none =>
          -- Nothing is known of the template, so it is the closures of its imports that count.
          rcases collect_sound ih (g.importsOf path) [] known hknown with ⟨hsnd, hfst⟩
          rcases hstep : collect (g.closeFrom fuel) (g.importsOf path) [] known
            with ⟨answer, known'⟩
          rw [hstep] at hsnd hfst
          cases answer with
          | none => exact ⟨hsnd, fun found h => absurd h (by
              simp only [reduceCtorEq, not_false_eq_true])⟩
          | some all =>
              rcases hfst all rfl with ⟨hmem, hcycles⟩
              simp only [List.not_mem_nil, false_or] at hmem
              have hright : g.IsClosure path (sortedSet all) := isClosure_of_imports hmem
              have hcycle : ¬ g.ReachesCycle path := not_reachesCycle_of_imports
                (fun t ht => hcycles t (mem_importsOf.mpr ht))
              refine ⟨hsnd.cons hright hcycle, fun found h => ?_⟩
              rw [← Option.some.inj h]
              exact ⟨hright, hcycle⟩

theorem collect_isSome {close : Closures → String → Option (List String) × Closures}
    (ts : List String)
    (hsome : ∀ t ∈ ts, ∀ known, (close known t).1.isSome = true) :
    ∀ found known, (collect close ts found known).1.isSome = true := by
  induction ts with
  | nil => intro found known; rfl
  | cons t ts ih =>
      intro found known
      have hfirst := hsome t List.mem_cons_self known
      rcases hstep : close known t with ⟨answer, known'⟩
      rw [hstep] at hfirst
      rw [collect, hstep]
      cases answer with
      | none => exact absurd hfirst (by simp only [Option.isSome_none, Bool.false_eq_true,
          not_false_eq_true])
      | some more => exact ih (fun u hu => hsome u (List.mem_cons_of_mem _ hu)) _ _

/-- A template that reaches no cycle has a closure. The way that leads to it
    has met no template twice, and the count and the way together exceed the
    edges. -/
theorem closeFrom_isSome (fuel : Nat) : ∀ (way : List String) (path : String) (known : Closures),
    (way ++ [path]).IsChain g.Needs → way.Nodup → ¬ g.ReachesCycle path →
      (∀ v ∈ way, v ≠ path) → g.edges.length < fuel + way.length →
        (g.closeFrom fuel known path).1.isSome = true := by
  induction fuel with
  | zero =>
      intro way path known hsteps hnodup _ _ hfuel
      have hle := length_le_of_isChain hsteps hnodup
      omega
  | succ fuel ih =>
      intro way path known hsteps hnodup hcycle hfresh hfuel
      rw [closeFrom]
      cases known.lookup path with
      | some found => rfl
      | none =>
          have hdistinct : (way ++ [path]).Nodup :=
            List.nodup_append.mpr ⟨hnodup, List.nodup_singleton path, fun u hu v hv =>
              by rw [List.mem_singleton.mp hv]; exact hfresh u hu⟩
          have himports : ∀ t ∈ g.importsOf path, ∀ known,
              (g.closeFrom fuel known t).1.isSome = true := by
            intro t ht known
            rw [mem_importsOf] at ht
            have hnext := isChain_concat hsteps ht
            refine ih (way ++ [path]) t known hnext hdistinct
              (fun h => hcycle (h.of_needs ht)) (fun v hv heq => ?_) ?_
            · -- A template of the way that is needed again closes a cycle.
              rw [heq] at hv
              have hback : g.Reaches t t :=
                (List.pairwise_append.mp (reaches_of_isChain hnext)).2.2 t hv t
                  (List.mem_singleton_self t)
              exact hcycle ⟨t, Or.inr ht.reaches, hback⟩
            · rw [List.length_append, List.length_singleton]
              omega
          have hall := collect_isSome (g.importsOf path) himports [] known
          rcases hstep : collect (g.closeFrom fuel) (g.importsOf path) [] known
            with ⟨answer, known'⟩
          rw [hstep] at hall
          cases answer with
          | none => exact absurd hall (by simp only [Option.isSome_none, Bool.false_eq_true,
              not_false_eq_true])
          | some all => rfl

/-- A closure is what a template reaches, and the template reaches no cycle. -/
theorem closure?_eq_some {path : String} {found : List String}
    (h : g.closure? path = some found) : g.IsClosure path found ∧ ¬ g.ReachesCycle path :=
  (closeFrom_sound _ [] path sound_nil).2 found h

/-- A template has a closure exactly if it reaches no cycle. -/
theorem closure?_isSome_iff {path : String} :
    (g.closure? path).isSome = true ↔ ¬ g.ReachesCycle path := by
  constructor
  · intro h
    rcases Option.isSome_iff_exists.mp h with ⟨found, hfound⟩
    exact (closure?_eq_some hfound).2
  · intro h
    exact closeFrom_isSome _ [] path [] (List.isChain_singleton path) List.nodup_nil h
      (fun v hv => absurd hv List.not_mem_nil) (by simp only [List.length_nil]; omega)

theorem exists_closure? {path : String} (h : ¬ g.ReachesCycle path) :
    ∃ found, g.closure? path = some found ∧ g.IsClosure path found := by
  rcases Option.isSome_iff_exists.mp (closure?_isSome_iff.mpr h) with ⟨found, hfound⟩
  exact ⟨found, hfound, (closure?_eq_some hfound).1⟩

/-- What a watch set contains: the template and what it reaches. -/
theorem mem_watchSet? {path : String} {watched : List String}
    (h : g.watchSet? path = some watched) (v : String) :
    v ∈ watched ↔ v = path ∨ g.Reaches path v := by
  rw [watchSet?, Option.map_eq_some_iff] at h
  rcases h with ⟨found, hfound, rfl⟩
  rw [mem_sortedSet, List.mem_cons, (closure?_eq_some hfound).1.mem_iff v]

end Graph

end Stencil
