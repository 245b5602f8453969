import Stencil.Proofs.Config.Accepted
import Stencil.Proofs.Reference.Key
import Stencil.Proofs.Text.Trim

/-!
# Looking Up References

What a resolver answers, said from the catalog.

The answer to a reference is described without an index and without a memory.
`places` lists the locations, `Catalog.Matches` says which templates a
reference matches at one of them, and `Answers` says what the first location
with a match decides. The description is a relation, and a resolver is shown to
give the one answer that it allows, whatever it was asked before and whatever
came of that.

One reference behaves unlike the others. It may lead to the root itself, as a
single dot does in a template at the root. The text of that way is a single
dot, and a template can be called so without its suffix. No template is found
there, though, because the resolver takes the root for a place outside.
`Catalog.Spells` compares texts alone and `Catalog.Matches` leaves this way
out.

## Main definitions

* `Reference.places`: The locations of a reference.
* `Catalog.Spells`: A template has the text of a reference for a name.
* `Catalog.Matches`: The same, unless the reference leads to the root.
* `Reference.Answers`: What the first location with a match decides.
* `Resolver.resolveAll`: Answers of one resolver, one after the other.

## Theorems

* `Reference.searchPlan_eq`: Which locations are searched.
* `Resolver.mem_foundAt_iff`: What is found at one of them.
* `Reference.answers_iff`: A first location decides in one way.
* `Resolver.resolveAll_answers`: Answers are those of a look-up.
-/

namespace Stencil

instance : DecidablePred IsRelative :=
  fun s => inferInstanceAs (Decidable (s.toList.head? ≠ some '/'))

namespace Reference

/-- A reference with slashes for backslashes. -/
def slashed (name : String) : String :=
  Text.mapChars (fun c => if c = '\\' then '/' else c) name

/-- A reference without the slashes in front. -/
def bare (reference : String) : String :=
  String.ofList (reference.toList.dropWhile (· == '/'))

/-- The locations of a reference in a template: the root alone for a reference
    that starts there, and otherwise the directories above the template and
    the shared one, unless that is among them. -/
def places (path : String) (shared : Option String) (reference : String) : List String :=
  if IsRelative reference then
    placesAbove path ++ shared.toList.filter (· ∉ placesAbove path)
  else [""]

theorem isRelative_bare (reference : String) : IsRelative (bare reference) := by
  rw [IsRelative, bare, String.toList_ofList]
  exact fun hhead => absurd (Text.head?_dropWhile (· == '/') _ '/' hhead) (by decide)

theorem bare_of_isRelative {reference : String} (h : IsRelative reference) :
    bare reference = reference := by
  rw [bare]
  rcases hchars : reference.toList with _ | ⟨c, cs⟩
  · rw [List.dropWhile_nil, ← hchars, String.ofList_toList]
  · have hc : ¬ (c == '/') = true := by
      intro heq
      rw [IsRelative, hchars, List.head?_cons, eq_of_beq heq] at h
      exact h rfl
    rw [List.dropWhile_cons, if_neg hc, ← hchars, String.ofList_toList]

/-- A shared directory as it is configured: not empty, and relative. -/
theorem of_barePartialsDir {s dir : String} (h : Config.barePartialsDir s = some dir) :
    dir ≠ "" ∧ IsRelative dir := by
  rcases Config.barePartialsDir_eq_some h with ⟨hne, rfl⟩
  exact ⟨hne, fun hhead => absurd (Text.head?_trim (· == '/') _ '/' hhead) (by decide)⟩

theorem isRelative_placesAbove {way : List String} (hne : way ≠ []) (h : ∀ n ∈ way, IsName n) :
    ∀ place ∈ placesAbove (wayText way), IsRelative place := by
  intro place hplace
  rw [placesAbove, splitOnChar_wayText hne h] at hplace
  rcases List.mem_map.mp hplace with ⟨dirs, hdirs, rfl⟩
  by_cases hroot : dirs = []
  · rw [hroot]
    exact (Option.some_ne_none _).symm
  · have hbelow := (List.mem_inits _ _).mp (List.mem_reverse.mp hdirs)
    exact isRelative_wayText hroot (fun n hn => h n (List.mem_of_mem_dropLast (hbelow.subset hn)))

/-- Which locations are searched, and for what. -/
theorem searchPlan_eq {way : List String} (hne : way ≠ []) (h : ∀ n ∈ way, IsName n)
    {shared : Option String} (hshared : ∀ dir ∈ shared, dir ≠ "") (name : String) :
    searchPlan (directoryOf (wayText way)) shared name =
      (places (wayText way) shared (slashed name), bare (slashed name)) := by
  have hslashed : Text.replaceAll "\\" "/" name = slashed name :=
    Text.replaceAll_char '\\' '/' name
  rw [searchPlan, hslashed, places]
  by_cases hrelative : IsRelative (slashed name)
  · -- The shared directory comes last, unless it has been searched by then.
    have hlocations : locations (directoryOf (wayText way)) shared =
        placesAbove (wayText way) ++ shared.toList.filter (· ∉ placesAbove (wayText way)) := by
      have hown := ancestors_directoryOf hne h
      rcases shared with _ | dir
      · simp only [locations, hown, Option.toList_none, List.filter_nil, List.append_nil]
      · have hfull : dir.isEmpty = false := by
          rw [Bool.eq_false_iff, ne_eq, String.isEmpty_iff]
          exact hshared dir rfl
        simp only [locations, hown, hfull, Bool.false_or, Option.toList_some]
        by_cases hmem : dir ∈ placesAbove (wayText way)
        · rw [if_pos (List.contains_iff_mem.mpr hmem),
            List.filter_cons_of_neg (by simpa using hmem), List.filter_nil, List.append_nil]
        · rw [if_neg (mt List.contains_iff_mem.mp hmem),
            List.filter_cons_of_pos (by simpa using hmem), List.filter_nil]
    rw [if_neg (isRelative_iff.mp hrelative), if_pos hrelative, bare_of_isRelative hrelative,
      hlocations]
  · rw [if_pos (not_not.mp (mt isRelative_iff.mpr hrelative)), if_neg hrelative]
    rfl

/-- What the first location with a match decides, where it is said which
    templates match at a location. -/
inductive Answers (matching : String → String → Prop) (places : List String)
    (importer name : String) : Except ResolutionError String → Prop where
  /-- There is no match at any location. -/
  | unresolved (h : ∀ place ∈ places, ∀ path, ¬ matching place path) :
    Answers matching places importer name (.error (.unresolved importer name))
  /-- There is one at the first location with a match. -/
  | one {before after : List String} {place path : String}
    (hplaces : places = before ++ place :: after)
    (hbefore : ∀ place ∈ before, ∀ path, ¬ matching place path)
    (h : ∀ other, matching place other ↔ other = path) :
    Answers matching places importer name (.ok path)
  /-- There are several at the first location with a match. -/
  | several {before after paths : List String} {place : String}
    (hplaces : places = before ++ place :: after)
    (hbefore : ∀ place ∈ before, ∀ path, ¬ matching place path)
    (hseveral : 2 ≤ paths.length) (hsorted : paths.Pairwise (· < ·))
    (h : ∀ path, matching place path ↔ path ∈ paths) :
    Answers matching places importer name (.error (.ambiguous importer name paths))

section Answers

variable {matching : String → String → Prop} {found : String → List String}
  {places : List String} {importer name : String}

theorem found_eq_nil_iff {place : String}
    (hmem : ∀ path, path ∈ found place ↔ matching place path) :
    found place = [] ↔ ∀ path, ¬ matching place path := by
  rw [List.eq_nil_iff_forall_not_mem]
  exact forall_congr' (fun path => not_congr (hmem path))

/-- Where nothing matches, the search goes on to what follows. -/
theorem find?_found_append {before after : List String}
    (hbefore : ∀ place ∈ before, found place = []) :
    ((before ++ after).map found).find? (!·.isEmpty) = (after.map found).find? (!·.isEmpty) := by
  induction before with
  | nil => rfl
  | cons place before ih =>
      rw [List.cons_append, List.map_cons, List.find?_cons, hbefore place List.mem_cons_self,
        List.isEmpty_nil, Bool.not_true]
      exact ih (fun place hplace => hbefore place (List.mem_cons_of_mem _ hplace))

/-- What is found at the first location with a match is what is found. -/
theorem getD_find?_found {before after paths : List String} {place : String}
    (hplaces : places = before ++ place :: after)
    (hmem : ∀ place ∈ places, ∀ path, path ∈ found place ↔ matching place path)
    (hbefore : ∀ place ∈ before, ∀ path, ¬ matching place path) (hfound : found place = paths)
    (hne : paths ≠ []) : ((places.map found).find? (!·.isEmpty)).getD [] = paths := by
  have hempty : ∀ p ∈ before, found p = [] := by
    intro p hp
    exact (found_eq_nil_iff (hmem p (hplaces ▸ List.mem_append_left _ hp))).mpr (hbefore p hp)
  rw [hplaces, find?_found_append hempty, List.map_cons, List.find?_cons, hfound,
    List.isEmpty_eq_false_iff.mpr hne]
  rfl

/-- A first location decides in one way: it gives the answer that a search
    along the locations leads to. -/
theorem answers_iff (hsorted : ∀ place ∈ places, (found place).Pairwise (· < ·))
    (hmem : ∀ place ∈ places, ∀ path, path ∈ found place ↔ matching place path)
    (r : Except ResolutionError String) : Answers matching places importer name r ↔
      r = Resolver.answer importer name
        (((places.map found).find? (!·.isEmpty)).getD []) := by
  constructor
  · intro h
    -- No place has a match, or the first one that has any has one, or it has several.
    cases h with
    | unresolved h =>
        have hnone : (places.map found).find? (!·.isEmpty) = none := by
          rw [List.find?_eq_none]
          intro paths hpaths
          rcases List.mem_map.mp hpaths with ⟨place, hplace, rfl⟩
          rw [(found_eq_nil_iff (hmem place hplace)).mpr (h place hplace), List.isEmpty_nil]
          exact Bool.false_ne_true
        rw [hnone]
        rfl
    | @one before after place path hplaces hbefore h =>
        have hplace : place ∈ places := hplaces ▸ List.mem_append_right _ List.mem_cons_self
        have hfound : found place = [path] :=
          eq_of_pairwise_lt (hsorted place hplace) (List.pairwise_singleton _ _)
            (fun other => by rw [hmem place hplace, h, List.mem_singleton])
        rw [getD_find?_found hplaces hmem hbefore hfound (List.cons_ne_nil _ _)]
        rfl
    | @several before after paths place hplaces hbefore hseveral hascending h =>
        have hplace : place ∈ places := hplaces ▸ List.mem_append_right _ List.mem_cons_self
        have hfound : found place = paths :=
          eq_of_pairwise_lt (hsorted place hplace) hascending
            (fun other => by rw [hmem place hplace, h])
        rcases paths with _ | ⟨p, _ | ⟨q, ps⟩⟩
        · exact absurd hseveral (by decide)
        · exact absurd hseveral (by rw [List.length_singleton]; decide)
        · rw [getD_find?_found hplaces hmem hbefore hfound (List.cons_ne_nil _ _)]
          rfl
  · rintro rfl
    rcases hfirst : (places.map found).find? (!·.isEmpty) with _ | paths
    · rw [hfirst, Option.getD_none, Resolver.answer]
      refine .unresolved (fun place hplace => (found_eq_nil_iff (hmem place hplace)).mp ?_)
      have hnone := List.find?_eq_none.mp hfirst _ (List.mem_map_of_mem hplace)
      rwa [Bool.not_eq_true, Bool.not_eq_false', List.isEmpty_iff] at hnone
    · -- The places before the first one with a match have none.
      rcases List.find?_eq_some_iff_append.mp hfirst with ⟨hfull, befores, afters, heq, hempty⟩
      rcases List.map_eq_append_iff.mp heq with ⟨before, rest, hplaces, rfl, hrest⟩
      rcases List.map_eq_cons_iff.mp hrest with ⟨place, after, rfl, hfound, _⟩
      have hplace : place ∈ places := hplaces ▸ List.mem_append_right _ List.mem_cons_self
      have hbefore : ∀ p ∈ before, ∀ path, ¬ matching p path := by
        intro p hp
        refine (found_eq_nil_iff (hmem p (hplaces ▸ List.mem_append_left _ hp))).mp ?_
        have hthis := hempty _ (List.mem_map_of_mem hp)
        rwa [Bool.not_not, List.isEmpty_iff] at hthis
      have hall : ∀ path, matching place path ↔ path ∈ paths := by
        intro path
        rw [← hfound, hmem place hplace]
      rw [hfirst, Option.getD_some]
      rcases paths with _ | ⟨p, _ | ⟨q, ps⟩⟩
      · exact absurd hfull (by rw [List.isEmpty_nil]; exact Bool.false_ne_true)
      · exact .one hplaces hbefore (fun other => by rw [hall, List.mem_singleton])
      · exact .several hplaces hbefore (Nat.le_add_left 2 ps.length)
          (hfound ▸ hsorted place hplace) hall

end Answers

end Reference

/-- What a reference in a template means, where it is said which templates a
    reference matches at a location. -/
def Reference.Means (matching : String → String → String → Prop) (shared : Option String)
    (importer : Source) (name : String) (r : Except ResolutionError String) : Prop :=
  Answers (matching (bare (slashed name))) (places importer.path shared (slashed name))
    importer.path name r

namespace Catalog

/-- The reference leads from a location to a text that a template has for a
    name, as it is or without its suffix. -/
def Spells (c : Catalog) (reference place path : String) : Prop :=
  ∃ way, Reference.wayAt? place reference = some way ∧ ∃ s ∈ c.importables, s.path = path ∧
    (s.path = Path.text ⟨"", way⟩ ∨ s.logicalName = Path.text ⟨"", way⟩)

/-- The same, and the reference does not lead to the root itself. -/
def Matches (c : Catalog) (reference place path : String) : Prop :=
  Reference.wayAt? place reference ≠ some [] ∧ c.Spells reference place path

end Catalog

namespace Resolver

open Reference

theorem mem_index_ofCatalog {c : Catalog} {shared : Option String} {key path : String} :
    (key, path) ∈ (ofCatalog c shared).index ↔
      ∃ s ∈ c.importables, s.path = path ∧ (s.path = key ∨ s.logicalName = key) := by
  simp only [ofCatalog, List.mem_flatMap, List.mem_cons, Prod.mk.injEq, List.not_mem_nil, or_false]
  refine exists_congr (fun s => and_congr_right (fun _ => ?_))
  rw [← or_and_right, and_comm, @eq_comm _ key, @eq_comm _ key, @eq_comm _ path]

/-- What is found at a location are the templates that match there. -/
theorem mem_foundAt_iff {c : Catalog} {shared : Option String} {place reference : String}
    (hplace : IsRelative place) (hreference : IsRelative reference) (path : String) :
    path ∈ (ofCatalog c shared).foundAt reference place ↔ c.Matches reference place path := by
  rw [mem_foundAt, Catalog.Matches, Catalog.Spells]
  constructor
  · rintro ⟨key, hkey, hmem⟩
    rcases (keyAt?_eq_some_iff hplace hreference).mp hkey with ⟨way, hway, hne, rfl⟩
    rw [← (text_of_steps hne (isStep_of_wayAt? hway)).1] at hmem
    refine ⟨fun hroot => hne ?_, way, hway, mem_index_ofCatalog.mp hmem⟩
    rw [hway] at hroot
    exact Option.some.inj hroot
  · rintro ⟨hroot, way, hway, hmem⟩
    have hne : way ≠ [] := fun heq => hroot (heq ▸ hway)
    refine ⟨wayText way, (keyAt?_eq_some_iff hplace hreference).mpr ⟨way, hway, hne, rfl⟩, ?_⟩
    rw [← (text_of_steps hne (isStep_of_wayAt? hway)).1]
    exact mem_index_ofCatalog.mpr hmem

/-- The answers of one resolver to several questions, one after the other. -/
def resolveAll (r : Resolver) : List (Source × String) → List (Except ResolutionError String)
  | [] => []
  | (importer, name) :: calls =>
    (r.resolve importer name).1 :: (r.resolve importer name).2.resolveAll calls

/-- What a search finds gives the answer that a reference means. -/
theorem means_iff (c : Catalog) (dir : Option String) {importer : Source} (h : importer.Named)
    (name : String) (r : Except ResolutionError String) :
    Means c.Matches (dir.bind Config.barePartialsDir) importer name r ↔
      r = answer importer.path name
        ((ofCatalog c (dir.bind Config.barePartialsDir)).search importer.directory name) := by
  rcases h with ⟨way, hne, hnames, hpath⟩
  have hshared : ∀ d ∈ dir.bind Config.barePartialsDir, d ≠ "" ∧ IsRelative d := by
    intro d hd
    rcases Option.bind_eq_some_iff.mp hd with ⟨s, _, hs⟩
    exact of_barePartialsDir hs
  -- Places are relative, so a name that is looked for there is looked for below the root.
  have hplaces : ∀ place ∈ places (wayText way) (dir.bind Config.barePartialsDir) (slashed name),
      IsRelative place := by
    intro place hplace
    rw [places] at hplace
    split at hplace
    · rcases List.mem_append.mp hplace with hown | hdir
      · exact isRelative_placesAbove hne hnames place hown
      · exact (hshared place (Option.mem_toList.mp (List.mem_filter.mp hdir).1)).2
    · rw [List.mem_singleton.mp hplace]
      exact (Option.some_ne_none _).symm
  have hdirectory : importer.directory = directoryOf (wayText way) := by
    rw [← hpath]
    rfl
  have hplan := searchPlan_eq hne hnames (fun d hd => (hshared d hd).1) name
  rw [Means, hpath, hdirectory, search_eq_find?]
  simp only [ofCatalog] at hplan ⊢
  rw [hplan]
  refine answers_iff (fun place _ => ?_) (fun place hplace path => ?_) r
  · exact foundAt_pairwise _ _ place
  · exact mem_foundAt_iff (hplaces place hplace) (isRelative_bare _) path

/-- Whatever has been stored, the answers are those that searches give. -/
theorem resolveAll_eq_map {fresh : Resolver} (calls : List (Source × String)) :
    ∀ r, Remembers fresh r → r.resolveAll calls = calls.map fun call =>
      answer call.1.path call.2 (fresh.search call.1.directory call.2) := by
  induction calls with
  | nil => exact fun _ _ => rfl
  | cons call calls ih =>
      intro r hr
      rcases resolve_remembers hr call.1 call.2 with ⟨hanswer, hnext⟩
      rw [List.map_cons, ← hanswer, ← ih _ hnext]
      rfl

/-- Answers are those of a look-up. A resolver is asked about any references, in
    any templates that are named by relative paths, and in any order. Every
    answer is the one that the reference means, whether the questions before
    it had answers or not; and a failure names the template and the reference
    of its own question. A reference that leaves the root at a location, or
    leads to the root itself, matches nothing there. -/
theorem resolveAll_answers (c : Catalog) (dir : Option String) (calls : List (Source × String))
    (hcalls : ∀ call ∈ calls, call.1.Named) :
    List.Forall₂ (fun call answer => ∀ r,
        Means c.Matches (dir.bind Config.barePartialsDir) call.1 call.2 r ↔ r = answer)
      calls ((ofCatalog c (dir.bind Config.barePartialsDir)).resolveAll calls) := by
  rw [resolveAll_eq_map calls _ (remembers_ofCatalog c _), List.forall₂_map_right_iff,
    List.forall₂_same]
  exact fun call hcall => means_iff c dir (hcalls call hcall) call.2

/-- Where the paths under every name ascend, they are listed as they stand. -/
theorem pathsOf_of_ascending {r : Resolver}
    (h : r.index.Pairwise fun entry entry' => entry.1 = entry'.1 → entry.2 < entry'.2)
    (key : String) : r.pathsOf key = (r.index.filter (·.1 == key)).map Prod.snd := by
  refine sortedSet_of_pairwise (List.pairwise_map.mpr ?_)
  refine (h.filter _).imp_of_mem (fun {entry entry'} hmem hmem' hlt => hlt ?_)
  rw [eq_of_beq (List.mem_filter.mp hmem).2, eq_of_beq (List.mem_filter.mp hmem').2]

/-- A template with nothing in it. -/
def blank (kind : Kind) (suffix path : String) : Source :=
  ⟨path, Path.child ⟨"/", []⟩ path, kind, suffix, "", ""⟩

/-- Templates of which two have one name, and one is called a dot. -/
def dotted : Catalog where
  root := ⟨"/", []⟩
  sources := [blank .fragment ".partial.tmpl" "..partial.tmpl",
    blank .macroModule ".macros.tmpl" "a.macros.tmpl",
    blank .fragment ".partial.tmpl" "a.partial.tmpl",
    blank .query ".sql.tmpl" "ask.sql.tmpl", blank .query ".sql.tmpl" "deep/ask.sql.tmpl",
    blank .fragment ".partial.tmpl" "partials/b.partial.tmpl"]

theorem named_dotted : dotted.Named := by
  intro s hs
  simp only [dotted, List.mem_cons, List.not_mem_nil, or_false] at hs
  rcases hs with rfl | rfl | rfl | rfl | rfl | rfl
  · exact ⟨["..partial.tmpl"], by decide, by decide, rfl⟩
  · exact ⟨["a.macros.tmpl"], by decide, by decide, rfl⟩
  · exact ⟨["a.partial.tmpl"], by decide, by decide, rfl⟩
  · exact ⟨["ask.sql.tmpl"], by decide, by decide, rfl⟩
  · exact ⟨["deep", "ask.sql.tmpl"], by decide, by decide, rfl⟩
  · exact ⟨["partials", "b.partial.tmpl"], by decide, by decide, rfl⟩

/-- Questions of two templates, some of them the same. -/
def dottedCalls : List (Source × String) :=
  [(blank .query ".sql.tmpl" "ask.sql.tmpl", "a"), (blank .query ".sql.tmpl" "ask.sql.tmpl", "b"),
    (blank .query ".sql.tmpl" "deep/ask.sql.tmpl", "../../b"),
    (blank .query ".sql.tmpl" "deep/ask.sql.tmpl", "b"),
    (blank .query ".sql.tmpl" "ask.sql.tmpl", "a")]

/-- Successes and failures, mixed: a template that is in doubt twice, and one
    that goes too far up and then asks for what was found before. -/
theorem resolveAll_answers_dotted : (∀ call ∈ dottedCalls, call.1.Named) ∧
    List.Forall₂ (fun call answer => ∀ r,
        Means dotted.Matches (some "partials") call.1 call.2 r ↔ r = answer)
      dottedCalls [.error (.ambiguous "ask.sql.tmpl" "a" ["a.macros.tmpl", "a.partial.tmpl"]),
        .ok "partials/b.partial.tmpl", .error (.unresolved "deep/ask.sql.tmpl" "../../b"),
        .ok "partials/b.partial.tmpl",
        .error (.ambiguous "ask.sql.tmpl" "a" ["a.macros.tmpl", "a.partial.tmpl"])] := by
  have hcalls : ∀ call ∈ dottedCalls, call.1.Named := by
    intro call hcall
    have hsource : call.1 ∈ dotted.sources := by
      revert call
      decide
    exact named_dotted _ hsource
  have hdir : (some "/partials/").bind Config.barePartialsDir = some "partials" := by
    decide
  have hanswers := resolveAll_answers dotted (some "/partials/") dottedCalls hcalls
  rw [hdir] at hanswers
  refine ⟨hcalls, ?_⟩
  -- The index ascends under every name, so nothing is left to sort.
  have hindex : (ofCatalog dotted (some "partials")).index.Pairwise
      fun entry entry' => entry.1 = entry'.1 → entry.2 < entry'.2 := by
    decide
  have heval : (ofCatalog dotted (some "partials")).resolveAll dottedCalls =
      [.error (.ambiguous "ask.sql.tmpl" "a" ["a.macros.tmpl", "a.partial.tmpl"]),
        .ok "partials/b.partial.tmpl", .error (.unresolved "deep/ask.sql.tmpl" "../../b"),
        .ok "partials/b.partial.tmpl",
        .error (.ambiguous "ask.sql.tmpl" "a" ["a.macros.tmpl", "a.partial.tmpl"])] := by
    rw [resolveAll_eq_map _ _ (remembers_ofCatalog _ _)]
    simp only [search, pathsOf_of_ascending hindex]
    decide
  rwa [heval] at hanswers

/-- A single dot leads to the root, where no template is found, although one is
    called so without its suffix. So a reference does not find every template
    that it spells. -/
theorem not_means_spells : ¬ ∀ (c : Catalog) (dir : Option String) (calls : List (Source × String)),
    (∀ call ∈ calls, call.1 ∈ c.sources ∧ call.1.Named) →
      List.Forall₂ (fun call answer =>
        Means c.Spells (dir.bind Config.barePartialsDir) call.1 call.2 answer)
        calls ((ofCatalog c (dir.bind Config.barePartialsDir)).resolveAll calls) := by
  intro hall
  have hcalls : ∀ call ∈ [(blank .query ".sql.tmpl" "ask.sql.tmpl", ".")],
      call.1 ∈ dotted.sources ∧ call.1.Named := by
    intro call hcall
    have hsource : call.1 ∈ dotted.sources := by
      revert call
      decide
    exact ⟨hsource, named_dotted _ hsource⟩
  have hanswer : (ofCatalog dotted none).resolveAll
      [(blank .query ".sql.tmpl" "ask.sql.tmpl", ".")] =
        [.error (.unresolved "ask.sql.tmpl" ".")] := by
    decide
  have hdot := hall dotted none _ hcalls
  rw [Option.bind_none, hanswer] at hdot
  cases hdot with
  | cons hmeans _ =>
      have hspells : dotted.Spells "." "" "..partial.tmpl" :=
        ⟨[], by decide, blank .fragment ".partial.tmpl" "..partial.tmpl", by decide, rfl,
          Or.inr (by decide)⟩
      have hreference : bare (slashed ".") = "." := by decide
      have hplace : "" ∈ places "ask.sql.tmpl" none (slashed ".") := by decide
      cases hmeans with
      | unresolved h => exact h "" hplace "..partial.tmpl" (hreference ▸ hspells)

end Resolver

end Stencil
