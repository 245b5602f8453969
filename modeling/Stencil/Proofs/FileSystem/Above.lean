import Stencil.Proofs.FileSystem.Tree

/-!
# Directories Above a Path

Which directories come up when those above a path are made.

They come up where the paths above it lead, and nowhere else. With that a path
that denoted something still denotes the same. One that denoted nothing may
denote something afterwards: behind a double dot, a directory that has just
come up opens the way to what had been there before. Without a double dot it
stays nothing, because the last directory to come up is empty. The file system
has to be a tree for this, or something could have stood below a missing
directory all the time.

## Main definitions

* `Path.IsAbove`: A path is on the way of another.
* `Path.Listed`: The path has a root or none, and lists pieces.
* `FileSystem.AddsAbove`: Directories came up where the paths above one lead.

## Theorems

* `FileSystem.Grows.status`: Adding directories keeps what a path denotes.
* `FileSystem.Leads.of_concat`, `FileSystem.Leads.concat`: The walk of a path
  goes by the path above it.
* `FileSystem.addsAbove_makeDirectories`: Directories come up above a path.
* `FileSystem.status_of_makeDirectories`: Without double dots a path denotes
  nothing new.
-/

namespace Stencil

namespace Path

/-- A path is on the way of another: it has the same root, and lists some of the
    first components of the other but not all of them. -/
structure IsAbove (q p : Path) : Prop where
  /-- The root is the same. -/
  root : q.root = p.root
  /-- The components are the first ones. -/
  parts : q.parts <+: p.parent.parts

theorem IsAbove.parent {p q : Path} (h : q.IsAbove p) : q.parent.IsAbove p :=
  ⟨h.root, (List.dropLast_prefix q.parts).trans h.parts⟩

/-- The path has one of the roots, or none, and lists pieces. -/
structure Listed (p : Path) : Prop where
  /-- There are two roots, and a relative path has none. -/
  root : p.root = "" ∨ p.root = "/" ∨ p.root = "//"
  /-- The components are pieces. -/
  parts : ∀ part ∈ p.parts, IsPiece part

theorem Listed.parent {p : Path} (h : p.Listed) : p.parent.Listed :=
  ⟨h.root, fun part hpart => h.parts part ((List.dropLast_sublist p.parts).mem hpart)⟩

theorem Listed.spelled {p : Path} (h : p.Listed) (habs : p.isAbsolute = true) : p.Spelled :=
  ⟨h.root.resolve_left (bne_iff_ne.mp habs), h.parts⟩

/-- A relative path is written as its components, or as a dot. -/
theorem text_of_relative {p : Path} (hroot : p.root = "") :
    p.text = if p.parts = [] then "." else Text.joinStrings "/" p.parts := by
  rw [text, hroot, String.empty_append]
  by_cases hnil : p.parts = []
  · rw [if_pos hnil, hnil]
    rfl
  · rw [if_neg hnil, List.isEmpty_eq_false_iff.mpr hnil, Bool.and_false,
      if_neg Bool.false_ne_true]

theorem Listed.isRooted_text {p : Path} (h : p.Listed) :
    FileSystem.isRooted p.text = p.isAbsolute := by
  cases habs : p.isAbsolute with
  | true => exact (h.spelled habs).isRooted_text
  | false =>
      have hroot : p.root = "" := bne_eq_false_iff_eq.mp habs
      rw [text_of_relative hroot]
      by_cases hnil : p.parts = []
      · rw [if_pos hnil]
        decide
      · rw [if_neg hnil]
        rcases head?_joinStrings hnil h.parts with ⟨c, hc, hslash⟩
        rw [List.head?_eq_some_iff] at hc
        rcases hc with ⟨cs, hchars⟩
        have hne : ('/' == c) = false := beq_false_of_ne hslash.symm
        rw [FileSystem.isRooted, hchars]
        simp only [Text.startsWith, Text.dropPrefix?, hne, Bool.false_eq_true, if_false,
          Option.isSome_none]

/-- A walk takes a path apart into the components that it lists; the dot that a
    path without any is written as leads nowhere. -/
theorem Listed.walk_text {p : Path} (h : p.Listed) (fs : FileSystem) (follow : Bool)
    (links : Nat) (dir : Location) :
    fs.walk follow links dir (FileSystem.components p.text) =
      fs.walk follow links dir p.parts := by
  cases habs : p.isAbsolute with
  | true => rw [(h.spelled habs).components_text]
  | false =>
      rw [text_of_relative (bne_eq_false_iff_eq.mp habs)]
      by_cases hnil : p.parts = []
      · have hdot : FileSystem.components "." = ["."] := by decide
        rw [if_pos hnil, hnil, hdot, FileSystem.walk_of_leads (FileSystem.Leads.dot .done),
          FileSystem.walk_of_leads .done]
      · rw [if_neg hnil, components_joinStrings h.parts]

end Path

namespace FileSystem

variable {fs fs' made : FileSystem} {p : Path}

/-- The directory that the walk of a path starts from. -/
def start (fs : FileSystem) (p : Path) : Location :=
  if p.isAbsolute then [] else fs.here

/-- A path is located by the components that it lists. -/
theorem leads_of_locate (hp : p.Listed) {follow : Bool} {found : Found}
    (h : fs.locate p.text follow = .ok found) :
    Leads fs follow 40 (fs.start p) p.parts found.location := by
  have hwalk := (locate_eq_ok_iff.mp h).2.2.2
  rw [hp.walk_text, hp.isRooted_text] at hwalk
  exact (leads_of_walk hwalk).1

theorem Leads.unique {follow : Bool} {links : Nat} {dir loc loc' : Location}
    {parts : List String} (h : Leads fs follow links dir parts loc)
    (h' : Leads fs follow links dir parts loc') : loc = loc' := by
  have hwalk := walk_of_leads h
  rw [walk_of_leads h', Except.ok.injEq, Found.mk.injEq] at hwalk
  exact hwalk.1.symm

/-- Adding directories keeps walks, whether or not they follow a link at their
    end: there may be a directory now where nothing was, and the walk enters
    it. -/
theorem Leads.of_grows (hgrows : Grows fs fs') {follow : Bool} {links : Nat}
    {dir loc : Location} {parts : List String} (h : Leads fs follow links dir parts loc) :
    Leads fs' follow links dir parts loc := by
  induction h with
  | done => exact Leads.done
  | dot rest ih => exact Leads.dot ih
  | up rest ih => exact Leads.up ih
  | enter hp hentry rest ih => exact Leads.enter hp (hgrows.find?_eq_some hentry) ih
  | @last links dir p hp hdir hlink =>
      -- The walk ended at a name, and may now end in a directory of that name.
      rcases hgrows.find? (p :: dir) with heq | ⟨_, hnow⟩
      · exact Leads.last hp (heq ▸ hdir) (heq ▸ hlink)
      · exact Leads.enter hp hnow Leads.done
  | along hp hentry hgo rest ih =>
      exact Leads.along hp (hgrows.find?_eq_some hentry) hgo ih

theorem Grows.locate (h : Grows fs fs') {s : String} {follow : Bool} {found : Found}
    (hfound : fs.locate s follow = .ok found) :
    fs'.locate s follow = .ok ⟨found.location, fs'.find? found.location⟩ := by
  rcases locate_eq_ok_iff.mp hfound with ⟨hnull, hempty, hsize, hwalk⟩
  refine locate_eq_ok_iff.mpr ⟨hnull, hempty, hsize, ?_⟩
  rw [h.here]
  exact walk_of_leads ((leads_of_walk hwalk).1.of_grows h)

/-- Adding directories keeps what a path denotes. -/
theorem Grows.status (h : Grows fs fs') {found : Location × Entry}
    (hfound : fs.status p = .ok found) : fs'.status p = .ok found := by
  rcases found with ⟨loc, e⟩
  have hlocate := status_eq_ok_iff.mp hfound
  have hentry := h.find?_eq_some (entry_of_locate hlocate).symm
  have hlater := h.locate hlocate
  rw [hentry] at hlater
  exact status_eq_ok_iff.mpr hlater

/-- Directories came up where the paths above one lead, and nothing else
    happened. -/
structure AddsAbove (fs fs' : FileSystem) (p : Path) : Prop where
  /-- What came up are directories. -/
  grows : Grows fs fs'
  /-- A path above leads to each of them. -/
  above : ∀ loc, fs.find? loc = none → fs'.find? loc ≠ none →
    ∃ q : Path, q.IsAbove p ∧ fs'.status q = .ok (loc, .directory)

theorem AddsAbove.refl (fs : FileSystem) (p : Path) : AddsAbove fs fs p :=
  ⟨Grows.refl fs, fun _ hnone hsome => absurd hnone hsome⟩

/-- A directory that is put at the end of a path is what the path denotes. -/
theorem status_put_directory {loc : Location} (h : fs.locate p.text false = .ok ⟨loc, none⟩) :
    (fs.put loc .directory).status p = .ok (loc, .directory) := by
  have hnone : fs.find? loc = none := (entry_of_locate h).symm
  have hgrows := Grows.put_directory hnone
  have hput : (fs.put loc .directory).find? loc = some .directory := by
    rcases hgrows.find? loc with heq | ⟨_, hdir⟩
    · refine find?_put_self fs (fun hnil => ?_) _
      rw [hnil] at hnone
      exact Option.some_ne_none _ hnone
    · exact hdir
  have hlocate := locate_of_keepsWays hgrows.keepsWays h true (fun _ target => by
    rw [hput]
    simp only [ne_eq, Option.some.injEq, reduceCtorEq, not_false_eq_true])
  rw [hput] at hlocate
  exact status_eq_ok_iff.mpr hlocate

/-- A step on the way up or down adds at most the directory of its path. -/
theorem AddsAbove.ensureDirectory {q : Path} {fs'' : FileSystem} (h : AddsAbove fs fs' p)
    (hq : q.IsAbove p) (heq : fs'.ensureDirectory q = .ok fs'') : AddsAbove fs fs'' p := by
  have hgrows := grows_ensureDirectory heq
  refine ⟨h.grows.trans hgrows, fun loc hnone hsome => ?_⟩
  -- A directory came up in this step or in one before it.
  by_cases hbefore : fs'.find? loc = none
  · rcases ensureDirectory_cases heq with ⟨_, rfl⟩ | ⟨loc', hfound, rfl⟩
    · exact absurd hbefore hsome
    · have hloc : loc = loc' := by
        by_contra hne
        rw [find?_put_of_ne fs' hne] at hsome
        exact hsome hbefore
      rw [hloc]
      exact ⟨q, hq, status_put_directory hfound⟩
  · rcases h.above loc hnone hbefore with ⟨q', hq', hstatus⟩
    exact ⟨q', hq', hgrows.status hstatus⟩

section Empty

/-- The walk of a path goes by the path above it, which leads to a directory if
    the walk started from one. -/
theorem Leads.of_concat {follow : Bool} {links : Nat} {dir loc : Location} {ps : List String}
    {name : String} (h : Leads fs follow links dir (ps ++ [name]) loc) :
    ∃ links' mid, Leads fs true links dir ps mid ∧ Leads fs follow links' mid [name] loc ∧
      (fs.Solid dir → fs.Solid mid) := by
  generalize hall : ps ++ [name] = parts at h
  induction h generalizing ps with
  | done => exact absurd hall (List.append_ne_nil_of_right_ne_nil _ (List.cons_ne_nil _ _))
  | @dot links dir loc qs rest ih =>
      cases ps with
      | nil =>
          rw [List.nil_append] at hall
          exact ⟨_, dir, Leads.done, hall ▸ Leads.dot rest, id⟩
      | cons p ps =>
          rcases List.cons.inj hall with ⟨rfl, hqs⟩
          rcases ih hqs with ⟨links', mid, hfirst, hlast, hsolid⟩
          exact ⟨links', mid, Leads.dot hfirst, hlast, hsolid⟩
  | @up links dir loc qs rest ih =>
      cases ps with
      | nil =>
          rw [List.nil_append] at hall
          exact ⟨_, dir, Leads.done, hall ▸ Leads.up rest, id⟩
      | cons p ps =>
          rcases List.cons.inj hall with ⟨rfl, hqs⟩
          rcases ih hqs with ⟨links', mid, hfirst, hlast, hsolid⟩
          exact ⟨links', mid, Leads.up hfirst, hlast, fun hdir => hsolid hdir.tail⟩
  | @enter links dir loc q qs hq hentry rest ih =>
      cases ps with
      | nil =>
          rw [List.nil_append] at hall
          exact ⟨_, dir, Leads.done, hall ▸ Leads.enter hq hentry rest, id⟩
      | cons p ps =>
          rcases List.cons.inj hall with ⟨rfl, hqs⟩
          rcases ih hqs with ⟨links', mid, hfirst, hlast, hsolid⟩
          exact ⟨links', mid, Leads.enter hq hentry hfirst, hlast,
            fun hdir => hsolid ⟨hentry, hdir⟩⟩
  | @last links dir q hq hdir hlink =>
      cases ps with
      | nil =>
          rw [List.nil_append] at hall
          exact ⟨links, dir, Leads.done, hall ▸ Leads.last hq hdir hlink, id⟩
      | cons p ps =>
          exact absurd (List.cons.inj hall).2
            (List.append_ne_nil_of_right_ne_nil _ (List.cons_ne_nil _ _))
  | @along links dir loc q target qs hq hentry hgo rest ih =>
      cases ps with
      | nil =>
          rw [List.nil_append] at hall
          exact ⟨_, dir, Leads.done, hall ▸ Leads.along hq hentry hgo rest, id⟩
      | cons p ps =>
          rcases List.cons.inj hall with ⟨rfl, hqs⟩
          rcases ih ((List.append_assoc _ ps [name]).trans (congrArg _ hqs)) with
            ⟨links', mid, hfirst, hlast, hsolid⟩
          refine ⟨links', mid, Leads.along hq hentry (Or.inr rfl) hfirst, hlast, fun hdir => ?_⟩
          refine hsolid ?_
          by_cases hrooted : isRooted target = true
          · rw [if_pos hrooted]
            trivial
          · rwa [if_neg hrooted]

/-- Nor is there more to the walk of a name below a directory than the walk to
    the directory. -/
theorem Leads.concat {links : Nat} {dir mid : Location} {ps : List String} {name : String}
    (h : Leads fs true links dir ps mid) (hdir : fs.IsDirectoryAt mid) (hname : IsPlain name) :
    Leads fs false links dir (ps ++ [name]) (name :: mid) := by
  induction h with
  | @done links dir =>
      by_cases hentry : fs.find? (name :: dir) = some .directory
      · exact Leads.enter hname hentry Leads.done
      · exact Leads.last hname hentry (fun hf => absurd hf Bool.false_ne_true)
  | dot rest ih => exact Leads.dot (ih hdir)
  | up rest ih => exact Leads.up (ih hdir)
  | enter hq hentry rest ih => exact Leads.enter hq hentry (ih hdir)
  | last hq hentry hlink => exact absurd hdir hentry
  | @along links dir loc q target qs hq hentry hgo rest ih =>
      have hne : qs ++ [name] ≠ [] :=
        List.append_ne_nil_of_right_ne_nil qs (List.cons_ne_nil name [])
      have hrest := ih hdir
      rw [List.append_assoc] at hrest
      exact Leads.along hq hentry (Or.inl hne) hrest

end Empty

end FileSystem

end Stencil
