import Stencil.Output.Place
import Stencil.Proofs.Catalog.Tree
import Stencil.Proofs.FileSystem.Spelled

/-!
# Refused Places

The outputs of a tree are all refused, or none of them is.

A null character in the path of an output cannot come from the template: the
names on the way to it are names of files, which have none. What is left is
the place where outputs stand and the extension, and these all outputs of a
tree have in common.

## Main definitions

* `Config.PlacesNull`: The configuration puts null characters into the paths of
  outputs.

## Theorems

* `Source.isAbsolute_outputPath`: Paths of outputs are absolute.
* `Catalog.Regular.nullFree_outputPath_iff`: Whether they have null characters
  depends on the configuration.
-/

namespace Stencil

/-- A way does not start at the root. -/
theorem head?_wayText {way : List String} (hne : way ≠ []) (h : ∀ n ∈ way, IsPiece n) :
    ∃ c, (wayText way).toList.head? = some c ∧ c ≠ '/' :=
  Path.head?_joinStrings hne h

theorem null_notMem_wayText {way : List String} (h : ∀ n ∈ way, IsName n) :
    nullChar ∉ (wayText way).toList := by
  rw [wayText, Text.mem_joinStrings (by decide)]
  intro hmem
  rcases hmem with ⟨n, hn, hnull⟩
  exact (h n hn).noNull hnull

/-- A path below an absolute one is absolute. -/
theorem Path.isAbsolute_join {p : Path} (h : p.isAbsolute = true) (q : Path) :
    (p.join q).isAbsolute = true := by
  by_cases habs : q.isAbsolute = true
  · rwa [join_of_isAbsolute habs]
  · rw [join, if_neg habs]
    exact h

/-- The path of an output is absolute if the root of the tree is. -/
theorem Source.isAbsolute_outputPath {root : Path} (hroot : root.isAbsolute = true) (s : Source)
    (config : Config) : (s.outputPath root config).isAbsolute = true := by
  have houtput : (config.outputRoot root).isAbsolute = true := by
    rw [Config.outputRoot]
    cases config.outputDir with
    | none => exact hroot
    | some dir => exact Path.isAbsolute_join hroot dir
  rw [Source.outputPath, Path.child]
  exact Path.isAbsolute_join houtput _

/-- The configuration puts null characters into the paths of outputs. -/
def Config.PlacesNull (c : Config) (root : Path) : Prop :=
  ¬ (c.outputRoot root).NullFree ∨ nullChar ∈ c.extension.toList

namespace Catalog.Regular

variable {c : Catalog} {config : Config} {s : Source}

/-- The name of an output does not start at the root. -/
theorem isAbsolute_outputName (h : c.Regular config) (hs : s ∈ c.sources) :
    (Path.ofString (s.outputName config)).isAbsolute = false := by
  rcases h.way s hs with ⟨way, hne, hnames, hpath⟩
  rcases head?_wayText hne (fun n hn => (hnames n hn).isPiece) with ⟨first, hfirst, hslash⟩
  have hname : ∃ first', (s.outputName config).toList.head? = some first' ∧ first' ≠ '/' := by
    rw [Source.outputName, Source.logicalName, hpath, String.toList_append, String.toList_append,
      String.toList_ofList]
    rw [List.head?_eq_some_iff] at hfirst
    rcases hfirst with ⟨rest, hrest⟩
    rw [hrest]
    cases (wayText way).length - s.suffix.length with
    | zero => exact ⟨'.', rfl, by decide⟩
    | succ n => exact ⟨first, rfl, hslash⟩
  rcases hname with ⟨first', hfirst', hslash'⟩
  rw [Path.isAbsolute, Path.ofString, Path.rootOf_of_head? hfirst' hslash']
  rfl

theorem null_mem_outputName_iff (h : c.Regular config) (hs : s ∈ c.sources) :
    nullChar ∈ (s.outputName config).toList ↔ nullChar ∈ config.extension.toList := by
  rcases h.way s hs with ⟨way, _, hnames, hpath⟩
  have hlogical : nullChar ∉ s.logicalName.toList := by
    rw [Source.logicalName, String.toList_ofList, hpath]
    exact fun hmem => null_notMem_wayText hnames (List.mem_of_mem_take hmem)
  have hdot : nullChar ∉ ".".toList := by decide
  rw [Source.outputName, String.toList_append, String.toList_append, List.mem_append,
    List.mem_append]
  simp only [hlogical, hdot, false_or]

/-- Whether the path of an output has null characters depends on the
    configuration and not on the template. -/
theorem nullFree_outputPath_iff (h : c.Regular config) (hs : s ∈ c.sources) (root : Path) :
    (s.outputPath root config).NullFree ↔ ¬ config.PlacesNull root := by
  have hname : (Path.ofString (s.outputName config)).NullFree ↔
      nullChar ∉ config.extension.toList := by
    rw [Path.nullFree_ofString, h.null_mem_outputName_iff hs]
  rw [Source.outputPath, Path.child, Path.nullFree_join (h.isAbsolute_outputName hs)
    (Path.null_notMem_root_ofString _), hname, Config.PlacesNull, not_or, not_not]

end Catalog.Regular

end Stencil
