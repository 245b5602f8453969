import Stencil.Catalog.Basic
import Stencil.Proofs.Catalog.Sighting
import Stencil.Proofs.FileSystem.Spelled

/-!
# Catalogs of Trees

What every catalog of a tree keeps to.

A catalog is sorted by paths, and a walk sees no path twice, so the paths
ascend strictly and each names one template. What part a template takes is
read off its name, which is the last piece of its path. So two catalogs under
one configuration agree on the part of every path that both have, whatever
else the trees hold.

## Main definitions

* `baseName`: The last name of a relative path.
* `Catalog.Regular`: What every catalog of a tree keeps to.
* `Source.Named`: A template has a relative path for a name.

## Theorems

* `Catalog.mem_readSightings`: What is read off some sightings.
* `Catalog.build_eq_ok`: What a catalog is made of.
* `Catalog.read_of_build`: Templates are files that were read.
* `Catalog.regular_of_build`: The catalog of a tree is regular.
* `Catalog.Regular.find?_eq_some_iff`: A path names one template.
* `Catalog.Regular.congr`: Two catalogs agree on the part that a path takes.
-/

namespace Stencil

/-- The last name of a relative path. -/
def baseName (path : String) : String :=
  (Text.splitOnChar '/' path).getLastD ""

/-- The template has a relative path for a name, written from the names on the
    way to it. -/
def Source.Named (s : Source) : Prop :=
  ∃ way, way ≠ [] ∧ (∀ n ∈ way, IsName n) ∧ s.path = wayText way

/-- A walk sees files under paths below its own. -/
theorem spelled_of_mem_walkFrom (fs : FileSystem) (all : Bool) (depth : Nat) :
    ∀ dir loc rel above, dir.Spelled →
      ∀ seen ∈ filesSeen (walkFrom fs all depth dir loc rel above), seen.2.Spelled := by
  induction depth with
  | zero =>
      intro dir loc rel above _ seen hseen
      exact absurd hseen List.not_mem_nil
  | succ depth ih =>
      intro dir loc rel above hdir seen hseen
      rcases filesSeen_walkFrom_succ fs all depth dir loc rel above with
        hnil | ⟨files, dirs, rules, _, _, heq⟩
      · rw [hnil] at hseen
        exact absurd hseen List.not_mem_nil
      · rw [heq, List.mem_append] at hseen
        rcases hseen with hseen | hseen
        · rcases List.mem_map.mp hseen with ⟨n, _, rfl⟩
          exact hdir.child n
        · rcases List.mem_flatMap.mp hseen with ⟨n, _, hmem⟩
          exact ih _ _ _ _ (hdir.child n) seen hmem

namespace Catalog

/-- What every catalog of a tree keeps to. -/
structure Regular (c : Catalog) (config : Config) : Prop where
  /-- Paths ascend strictly. -/
  ascending : c.sources.Pairwise fun s t => s.path < t.path
  /-- A path is written from the names on the way. -/
  way : ∀ s ∈ c.sources, ∃ way, way ≠ [] ∧ (∀ n ∈ way, IsName n) ∧ s.path = wayText way
  /-- The root is absolute. -/
  rooted : c.root.isAbsolute = true
  /-- The name of a template says what part it takes. -/
  classified : ∀ s ∈ c.sources, classify (baseName s.path) config = some (s.kind, s.suffix)

/-- A file that was read is a template under its own path, and its bytes are
    the text of the template. -/
theorem readSource_eq_ok {fs : FileSystem} {config : Config} {relative : String} {path : Path}
    {s : Source} (h : readSource fs config relative path = .ok (some s)) :
    (s.path = relative ∧ s.file = path) ∧ classify path.name config = some (s.kind, s.suffix) ∧
      ∃ data, fs.read path = .ok data ∧ Text.Utf8.decode data = .ok s.content := by
  unfold readSource at h
  rcases hclass : classify path.name config with _ | ⟨kind, suffix⟩
  · simp only [hclass, Except.ok.injEq, reduceCtorEq] at h
  · simp only [hclass] at h
    rcases hread : fs.read path with why | bytes
    · simp only [hread, reduceCtorEq] at h
    · simp only [hread] at h
      rcases hdecode : Text.Utf8.decode bytes with why | content
      · simp only [hdecode, reduceCtorEq] at h
      · simp only [hdecode, Except.ok.injEq, Option.some.injEq] at h
        rw [← h]
        exact ⟨⟨rfl, rfl⟩, rfl, bytes, rfl, hdecode⟩

/-- What is read off some sightings, in their order: a template for a file, or
    nothing. -/
theorem mem_readSightings {fs : FileSystem} {config : Config} (seen : List Sighting) :
    ∀ notes sources, readSightings fs config seen = (notes, .ok sources) →
      (sources.map (·.path)).Sublist ((filesSeen seen).map Prod.fst) ∧
        ∀ s ∈ sources, ∃ f ∈ filesSeen seen, readSource fs config f.1 f.2 = .ok (some s) := by
  induction seen with
  | nil =>
      intro notes sources h
      rw [readSightings, Prod.mk.injEq, Except.ok.injEq] at h
      rw [← h.2]
      exact ⟨List.nil_sublist _, fun s hs => absurd hs List.not_mem_nil⟩
  | cons sighting seen ih =>
      intro notes sources h
      cases sighting with
      | broken why =>
          rw [readSightings, Prod.mk.injEq] at h
          exact absurd h.2 (by simp only [reduceCtorEq, not_false_eq_true])
      | skipped path why =>
          rw [readSightings] at h
          rcases hrest : readSightings fs config seen with ⟨notes', found⟩
          simp only [hrest, Prod.mk.injEq] at h
          rw [h.2] at hrest
          exact ih notes' sources hrest
      | file relative path =>
          rw [readSightings] at h
          rcases hsource : readSource fs config relative path with why | source
          · simp only [hsource, Prod.mk.injEq, reduceCtorEq, and_false] at h
          · rcases hrest : readSightings fs config seen with ⟨notes', found⟩
            simp only [hsource, hrest, Prod.mk.injEq] at h
            rcases found with why | found
            · exact absurd h.2 (by simp only [Except.map, reduceCtorEq, not_false_eq_true])
            · rcases ih notes' found hrest with ⟨hsub, hmem⟩
              have hfound : source.toList ++ found = sources := Except.ok.inj h.2
              have hcons : filesSeen (Sighting.file relative path :: seen) =
                  (relative, path) :: filesSeen seen := rfl
              rw [hcons, ← hfound]
              -- Templates that are read later on come from later sightings.
              have hlater : ∀ s ∈ found, ∃ f ∈ (relative, path) :: filesSeen seen,
                  readSource fs config f.1 f.2 = .ok (some s) := by
                intro s hs
                rcases hmem s hs with ⟨f, hf, hs'⟩
                exact ⟨f, List.mem_cons_of_mem _ hf, hs'⟩
              cases source with
              | none => exact ⟨hsub.cons _, hlater⟩
              | some source =>
                  refine ⟨?_, fun s hs => ?_⟩
                  · rw [Option.toList_some, List.singleton_append, List.map_cons, List.map_cons,
                      (readSource_eq_ok hsource).1.1]
                    exact hsub.cons_cons _
                  · rcases List.mem_cons.mp hs with rfl | hs
                    · exact ⟨_, List.mem_cons_self, hsource⟩
                    · exact hlater s hs

/-- Templates sorted by paths of which none stands twice ascend strictly. -/
theorem ascending_ofSources {root : Path} {sources : List Source}
    (h : (sources.map (·.path)).Nodup) :
    (ofSources root sources).sources.Pairwise fun s t => s.path < t.path := by
  have hperm : (ofSources root sources).sources.Perm sources := List.mergeSort_perm sources before
  have hnodup : (ofSources root sources).sources.Pairwise fun s t => s.path ≠ t.path :=
    List.pairwise_map.mp ((hperm.map _).nodup_iff.mpr h)
  refine ((ofSources_sorted root sources).and hnodup).imp (fun {s t} hst => ?_)
  have hle : s.path ≤ t.path := by
    simpa only [before, Bool.not_eq_true', decide_eq_false_iff_not, String.not_lt] using hst.1
  by_contra hlt
  exact hst.2 (String.le_antisymm hle (String.not_lt.mp hlt))

/-- A path without links and dots starts at the root. -/
theorem isAbsolute_of_canonical? {fs : FileSystem} {p real : Path}
    (h : fs.canonical? p = some real) : real.isAbsolute = true := by
  -- The answer is made from a location, whatever the walk along the path came to.
  have hpath : ∀ loc, (FileSystem.pathOf loc).isAbsolute = true := by
    intro loc
    rw [FileSystem.pathOf, Path.isAbsolute, bne_iff_ne]
    exact (by decide : "/" ≠ "")
  rw [FileSystem.canonical?] at h
  generalize fs.canonicalFrom _ _ _ _ = walked at h
  rcases walked with ⟨fine, loc⟩
  simp only [] at h
  by_cases hfine : fine = true
  · rw [if_pos hfine, Option.some.injEq] at h
    rw [← h]
    exact hpath loc
  · rw [if_neg hfine] at h
    rcases hstatus : fs.status (FileSystem.pathOf loc) with f | found
    · simp only [hstatus] at h
      by_cases hloop : (f.cause == .tooManyLinks) = true
      · rw [if_pos hloop] at h
        exact absurd h (Option.some_ne_none _).symm
      · rw [if_neg hloop, Option.some.injEq] at h
        rw [← h]
        exact hpath loc
    · simp only [hstatus, Option.some.injEq] at h
      rw [← h]
      exact hpath loc

/-- A catalog is made of what was read on a walk from where the root leads. -/
theorem build_eq_ok {fs : FileSystem} {root : Path} {config : Config} {notes : Notes}
    {c : Catalog} (h : build fs root config = (notes, .ok c)) :
    ∃ real seen notes' sources, fs.canonical? root = some real ∧
      walkTree fs real config.includeIgnored = .ok seen ∧
      readSightings fs config seen = (notes', .ok sources) ∧ c = ofSources real sources := by
  unfold build at h
  rcases hreal : fs.canonical? root with _ | real
  · simp only [hreal, Prod.mk.injEq, reduceCtorEq, and_false] at h
  · rcases hwalk : walkTree fs real config.includeIgnored with why | seen
    · cases why with
      | notDirectory r => simp only [hreal, hwalk, Prod.mk.injEq, reduceCtorEq, and_false] at h
      | fault f => simp only [hreal, hwalk, Prod.mk.injEq, reduceCtorEq, and_false] at h
    · rcases hread : readSightings fs config seen with ⟨notes', found⟩
      simp only [hreal, hwalk, hread, Prod.mk.injEq] at h
      rcases found with why | sources
      · exact absurd h.2 (by simp only [Except.map, reduceCtorEq, not_false_eq_true])
      · exact ⟨real, seen, notes', sources, rfl, hwalk, hread, (Except.ok.inj h.2).symm⟩

/-- Every template of a catalog is a file with a name of a template and with the
    text of the template as its bytes. -/
theorem read_of_build {fs : FileSystem} {root : Path} {config : Config} {notes : Notes}
    {c : Catalog} (hbuild : build fs root config = (notes, .ok c)) {s : Source}
    (hs : s ∈ c.sources) : classify s.file.name config = some (s.kind, s.suffix) ∧
      ∃ data, fs.read s.file = .ok data ∧ Text.Utf8.decode data = .ok s.content := by
  rcases build_eq_ok hbuild with ⟨real, seen, notes', sources, _, _, hread, rfl⟩
  have hperm : (ofSources real sources).sources.Perm sources :=
    List.mergeSort_perm sources before
  rcases (mem_readSightings seen notes' sources hread).2 s (hperm.mem_iff.mp hs) with
    ⟨f, _, hsource⟩
  rcases readSource_eq_ok hsource with ⟨⟨_, hfile⟩, hrest⟩
  rw [hfile]
  exact hrest

/-- The root of a catalog and the paths of its templates are spelled. -/
theorem spelled_of_build {fs : FileSystem} (h : fs.Proper) {root : Path} {config : Config}
    {notes : Notes} {c : Catalog} (hbuild : build fs root config = (notes, .ok c)) :
    c.root.Spelled ∧ ∀ s ∈ c.sources, s.file.Spelled := by
  rcases build_eq_ok hbuild with ⟨real, seen, notes', sources, hreal, hwalk, hread, rfl⟩
  have hroot := FileSystem.spelled_of_canonical? h hreal
  refine ⟨hroot, fun s hs => ?_⟩
  have hperm : (ofSources real sources).sources.Perm sources :=
    List.mergeSort_perm sources before
  rcases (mem_readSightings seen notes' sources hread).2 s (hperm.mem_iff.mp hs) with
    ⟨f, hf, hsource⟩
  rw [(readSource_eq_ok hsource).1.2]
  rcases walkTree_eq_ok hwalk with ⟨loc, rfl⟩
  exact spelled_of_mem_walkFrom fs _ _ real loc "" [] hroot f
    ((filesSeen_untilBroken_sublist _).mem hf)

/-- The catalog of a tree is regular. -/
theorem regular_of_build {fs : FileSystem} (h : fs.Proper) {root : Path} {config : Config}
    {notes : Notes} {c : Catalog} (hbuild : build fs root config = (notes, .ok c)) :
    c.Regular config := by
  rcases build_eq_ok hbuild with ⟨real, seen, notes', sources, hreal, hwalk, hread, rfl⟩
  rcases mem_readSightings seen notes' sources hread with ⟨hsub, hmem⟩
  rcases filesSeen_walkTree h hwalk with ⟨hnodup, hbelow⟩
  -- Sorting neither drops a source nor adds one.
  have hperm : (ofSources real sources).sources.Perm sources :=
    List.mergeSort_perm sources before
  refine ⟨ascending_ofSources (hnodup.sublist hsub), fun s hs => ?_,
    isAbsolute_of_canonical? hreal, fun s hs => ?_⟩
  · rcases hmem s (hperm.mem_iff.mp hs) with ⟨f, hf, hread⟩
    rcases hbelow f hf with ⟨way, hne, hnames, htext, _⟩
    exact ⟨way, hne, hnames, (readSource_eq_ok hread).1.1.trans htext⟩
  · rcases hmem s (hperm.mem_iff.mp hs) with ⟨f, hf, hread⟩
    rcases readSource_eq_ok hread with ⟨⟨hpath, _⟩, hclass, _⟩
    rcases hbelow f hf with ⟨way, hne, hnames, htext, hname⟩
    rw [List.nil_append] at htext
    rw [baseName, hpath, htext, splitOnChar_wayText hne hnames, ← hname]
    exact hclass

theorem mem_of_find? {c : Catalog} {path : String} {s : Source} (h : c.find? path = some s) :
    s ∈ c.sources ∧ s.path = path := by
  rw [find?] at h
  have hpath := List.find?_some h
  rw [beq_iff_eq] at hpath
  exact ⟨List.mem_of_find?_eq_some h, hpath⟩

/-- Where paths ascend, a path names one template. -/
theorem eq_of_ascending {c : Catalog} (h : c.sources.Pairwise fun s t => s.path < t.path)
    {s t : Source} (hs : s ∈ c.sources) (ht : t ∈ c.sources) (hpath : s.path = t.path) :
    s = t := by
  have hnodup : (c.sources.map (·.path)).Nodup :=
    List.pairwise_map.mpr (h.imp (fun hab => String.ne_of_lt hab))
  exact List.inj_on_of_nodup_map hnodup hs ht hpath

theorem find?_of_ascending {c : Catalog} (h : c.sources.Pairwise fun s t => s.path < t.path)
    {s : Source} (hs : s ∈ c.sources) : c.find? s.path = some s := by
  rcases hfind : c.find? s.path with _ | t
  · have hnone := List.find?_eq_none.mp hfind s hs
    exact absurd (beq_self_eq_true s.path) hnone
  · have ht := mem_of_find? hfind
    rw [eq_of_ascending h ht.1 hs ht.2]

/-- Every template has a relative path for a name. -/
def Named (c : Catalog) : Prop :=
  ∀ s ∈ c.sources, s.Named

namespace Regular

variable {c c' : Catalog} {config : Config}

theorem named (h : c.Regular config) : c.Named :=
  h.way

theorem eq_of_path_eq (h : c.Regular config) {s t : Source} (hs : s ∈ c.sources)
    (ht : t ∈ c.sources) (hpath : s.path = t.path) : s = t :=
  eq_of_ascending h.ascending hs ht hpath

theorem find?_eq_some_iff (h : c.Regular config) {path : String} {s : Source} :
    c.find? path = some s ↔ s ∈ c.sources ∧ s.path = path := by
  refine ⟨mem_of_find?, ?_⟩
  rintro ⟨hs, rfl⟩
  exact find?_of_ascending h.ascending hs

/-- Two catalogs agree on the part that a path takes. -/
theorem congr (h : c.Regular config) (h' : c'.Regular config) {s t : Source}
    (hs : s ∈ c.sources) (ht : t ∈ c'.sources) (hpath : s.path = t.path) :
    s.kind = t.kind ∧ s.suffix = t.suffix := by
  have hclass := h.classified s hs
  rw [hpath, h'.classified t ht, Option.some.injEq, Prod.mk.injEq] at hclass
  exact ⟨hclass.1.symm, hclass.2.symm⟩

end Regular

end Catalog

end Stencil
