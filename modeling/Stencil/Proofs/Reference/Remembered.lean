import Stencil.Proofs.Reference.Closure
import Stencil.Proofs.Reference.Cycle
import Stencil.Proofs.Traverse

/-!
# Remembered Closures

Whatever a graph was asked before, what it answers is reachability.

A graph keeps the closures that it found, those found on the way included, and
looks there first. So an answer depends on all questions before it, and some of
these may have failed half-way. `Recorded` is what holds of the table through
all of it: an entry is the closure of its template, and its template reaches no
cycle. A question adds entries for those templates alone whose walk came to an
end, so one that fails adds only right ones.

## Main definitions

* `Graph.Question`: What a graph can be asked about a template.
* `Graph.askAll`: The answers to questions one after the other.
* `Graph.Recorded`: What holds of the closures that are kept.
* `Graph.Answers`: What an answer has to be.

## Theorems

* `Graph.recorded_closeFrom`: The closures found on the way are right.
* `Graph.answers_ask`: An answer is right, and so is the table after it.
* `Graph.askAll_answers`: All answers are right, in any order of questions.
-/

namespace Stencil

namespace Graph

variable {g : Graph} {known : Closures}

/-- What a graph can be asked about a template. -/
inductive Question where
  /-- What it reaches. -/
  | closure (path : String)
  /-- The template and then what it reaches. -/
  | dependencies (path : String)
  /-- The template and what it reaches, as one list. -/
  | watchSet (path : String)

/-- The template that is asked about. -/
def Question.path : Question → String
  | .closure path => path
  | .dependencies path => path
  | .watchSet path => path

/-- How the answer shows the closure. -/
def Question.shown : Question → List String → List String
  | .closure _, found => found
  | .dependencies path, found => path :: found
  | .watchSet path, found => sortedSet (path :: found)

/-- The answer to a question, if there is one, and the closures known after it. -/
def ask (g : Graph) (known : Closures) (question : Question) :
    Option (List String) × Closures :=
  let (found, known') := g.closure known question.path
  (found.map question.shown, known')

/-- The answers to questions one after the other, and the closures known in the
    end. -/
def askAll (g : Graph) : Closures → List Question → List (Option (List String)) × Closures
  | known, [] => ([], known)
  | known, question :: questions =>
    let (answer, known') := g.ask known question
    let (answers, known'') := g.askAll known' questions
    (answer :: answers, known'')

/-- A graph that was asked nothing yet answers as the graph itself does. -/
theorem ask_nil (g : Graph) (path : String) :
    (g.ask [] (.closure path)).1 = g.closure? path ∧
    (g.ask [] (.dependencies path)).1 = g.dependencies? path ∧
    (g.ask [] (.watchSet path)).1 = g.watchSet? path :=
  ⟨Option.map_id', rfl, rfl⟩

/-- Every closure that is kept is that of its template, which reaches no cycle. -/
def Recorded (g : Graph) (known : Closures) : Prop :=
  ∀ entry ∈ known, g.IsClosure entry.1 entry.2 ∧ ¬ g.ReachesCycle entry.1

theorem Recorded.sound (h : g.Recorded known) : g.Sound known :=
  fun _ _ hlookup => h _ (mem_of_lookup hlookup)

theorem recorded_collect {close : Closures → String → Option (List String) × Closures}
    (hclose : ∀ known path, g.Recorded known → g.Recorded (close known path).2)
    (ts : List String) : ∀ found known, g.Recorded known →
      g.Recorded (collect close ts found known).2 := by
  induction ts with
  | nil => exact fun _ _ hknown => hknown
  | cons t ts ih =>
      intro found known hknown
      have hnext := hclose known t hknown
      rcases hstep : close known t with ⟨answer, known'⟩
      rw [hstep] at hnext
      rw [collect, hstep]
      cases answer with
      | none => exact hnext
      | some more => exact ih _ _ hnext

/-- The closures found on the way are right, whether the walk ends or not. -/
theorem recorded_closeFrom (fuel : Nat) : ∀ known path, g.Recorded known →
    g.Recorded (g.closeFrom fuel known path).2 := by
  induction fuel with
  | zero => exact fun _ _ hknown => hknown
  | succ fuel ih =>
      intro known path hknown
      have hright := (closeFrom_sound (fuel + 1) known path hknown.sound).2
      have hway := recorded_collect ih (g.importsOf path) [] known hknown
      rw [closeFrom] at hright ⊢
      cases hlookup : known.lookup path with
      | some found => exact hknown
      | none =>
          rcases hstep : collect (g.closeFrom fuel) (g.importsOf path) [] known
            with ⟨answer, known'⟩
          rw [hstep] at hway
          simp only [hlookup, hstep] at hright ⊢
          cases answer with
          | none => exact hway
          | some all =>
              intro entry hentry
              rcases List.mem_cons.mp hentry with rfl | hold
              · exact hright _ rfl
              · exact hway entry hold

/-- What the list has to be that answers a question. -/
def Question.IsAnswer (g : Graph) : Question → List String → Prop
  | .closure path, list => g.IsClosure path list
  | .dependencies path, list =>
    list.Nodup ∧ ∃ found, g.IsClosure path found ∧ list = path :: found
  | .watchSet path, list =>
    list.Pairwise (· < ·) ∧ ∀ v, v ∈ list ↔ v = path ∨ g.Reaches path v

/-- An answer is missing exactly if the template reaches a cycle, and it is what
    it has to be otherwise. -/
structure Answers (g : Graph) (question : Question) (answer : Option (List String)) : Prop where
  /-- Where there is no answer. -/
  missing_iff : answer = none ↔ g.ReachesCycle question.path
  /-- What the answer is. -/
  isAnswer : ∀ list, answer = some list → question.IsAnswer g list

/-- What is shown of a closure is the answer. -/
theorem isAnswer_shown {question : Question} {found : List String}
    (h : g.IsClosure question.path found) (hcycle : ¬ g.ReachesCycle question.path) :
    question.IsAnswer g (question.shown found) := by
  cases question with
  | closure path => exact h
  | dependencies path =>
      refine ⟨List.nodup_cons.mpr ⟨fun hmem => ?_, ?_⟩, found, h, rfl⟩
      · exact hcycle ⟨path, Or.inl rfl, (h.mem_iff path).mp hmem⟩
      · exact h.ascending.imp (fun hab => String.ne_of_lt hab)
  | watchSet path =>
      refine ⟨sortedSet_pairwise _, fun v => ?_⟩
      rw [Question.shown, mem_sortedSet, List.mem_cons, h.mem_iff]
      exact Iff.rfl

/-- An answer is right whatever closures are known, as long as these are, and so
    is the table after it. -/
theorem answers_ask (hknown : g.Recorded known) (question : Question) :
    g.Answers question (g.ask known question).1 ∧ g.Recorded (g.ask known question).2 := by
  have hsound := (closeFrom_sound (g.edges.length + 2) known question.path hknown.sound).2
  have hrecorded := recorded_closeFrom (g.edges.length + 2) known question.path hknown
  have hsome : ¬ g.ReachesCycle question.path →
      (g.closeFrom (g.edges.length + 2) known question.path).1.isSome = true := fun hcycle =>
    closeFrom_isSome _ [] _ known (List.isChain_singleton _) List.nodup_nil hcycle
      (fun v hv => absurd hv List.not_mem_nil) (by rw [List.length_nil]; omega)
  rw [ask, closure]
  rcases hclose : g.closeFrom (g.edges.length + 2) known question.path with ⟨found, known'⟩
  rw [hclose] at hsound hrecorded hsome
  refine ⟨⟨?_, fun shown hshown => ?_⟩, hrecorded⟩
  · rw [Option.map_eq_none_iff]
    constructor
    · intro hnone
      by_contra hcycle
      exact absurd (hsome hcycle) (by simp only [hnone, Option.isSome_none, Bool.false_eq_true,
        not_false_eq_true])
    · intro hcycle
      cases found with
      | none => rfl
      | some list => exact absurd hcycle (hsound list rfl).2
  · rcases Option.map_eq_some_iff.mp hshown with ⟨list, hfound, rfl⟩
    rcases hsound _ hfound with ⟨hright, hcycle⟩
    exact isAnswer_shown hright hcycle

/-- The answers to questions are right one by one, from closures that are. -/
theorem forall₂_askAll (questions : List Question) : ∀ known, g.Recorded known →
    List.Forall₂ g.Answers questions (g.askAll known questions).1 ∧
      g.Recorded (g.askAll known questions).2 := by
  induction questions with
  | nil => exact fun _ hknown => ⟨List.Forall₂.nil, hknown⟩
  | cons question questions ih =>
      intro known hknown
      rcases answers_ask hknown question with ⟨hright, hnext⟩
      rcases ih _ hnext with ⟨hrest, hlast⟩
      exact ⟨List.Forall₂.cons hright hrest, hlast⟩

/-- A template that is reached reaches a cycle only if the one that reaches it
    does. -/
theorem ReachesCycle.of_reaches {u v : String} (h : g.Reaches u v) (hv : g.ReachesCycle v) :
    g.ReachesCycle u := by
  rcases hv with ⟨w, rfl | hw, hback⟩
  · exact ⟨_, Or.inr h, hback⟩
  · exact ⟨w, Or.inr (h.trans hw), hback⟩

/-- Remembered closures are reachability. Whatever a graph is asked and in
    whatever order, a question about a template that reaches a cycle has no
    answer, and any other is answered by exactly what the template reaches by
    one edge or more: as a list that ascends, or after the template itself
    without duplicates, or together with it. Every closure that is kept is that
    of its template, and its template reaches no cycle. If no cycle was found
    these are all queries and everything that a query reaches. -/
theorem askAll_answers (g : Graph) (questions : List Question) :
    List.Forall₂ g.Answers questions (g.askAll [] questions).1 ∧
    g.Recorded (g.askAll [] questions).2 ∧
    (g.findCycle = none → ∀ q ∈ g.queries, ¬ g.ReachesCycle q.path ∧
      ∀ v, g.Reaches q.path v → ¬ g.ReachesCycle v) := by
  have hnil : g.Recorded [] := fun _ h => absurd h List.not_mem_nil
  rcases forall₂_askAll questions [] hnil with ⟨hanswers, hrecorded⟩
  refine ⟨hanswers, hrecorded, fun hnone q hq => ?_⟩
  have hcycle := findCycle_eq_none_iff.mp hnone q hq
  exact ⟨hcycle, fun v hv hback => hcycle (hback.of_reaches hv)⟩

end Graph

end Stencil
