import Stencil.Proofs.FileSystem.LinkFree

/-!
# Files at the Root

Paths of one name, from the root.

What such a path leads to is decided by what stands under the name, whatever
else there is. The way is no way at all, and if the name is that of a link then
it is the link alone that decides.

## Theorems

* `FileSystem.locate_root`: The path is looked up by its name.
* `FileSystem.read_root`: A file is read.
* `FileSystem.status_free_root`: Nothing is there where nothing stands.
* `FileSystem.not_read_root`: Nor is anything read.
* `FileSystem.status_link_root`: A link leads to the file beside it.
* `FileSystem.makeDirectories_of_locate`: A directory that is there does not have
  to be made, such as the root.
-/

namespace Stencil

namespace FileSystem

variable {fs : FileSystem} {n : String}

theorem spelled_root (hn : IsName n) : Path.Spelled ⟨"/", [n]⟩ := by
  refine ⟨Or.inl rfl, fun part hpart => ?_⟩
  rw [List.mem_singleton.mp hpart]
  exact hn.isPiece

theorem fits_root (hn : IsName n) (hsize : n.utf8ByteSize ≤ 255) : Path.Fits ⟨"/", [n]⟩ := by
  have hroot : Char.ofNat 0 ∉ ("/" : String).toList := by decide
  have htext : Path.text ⟨"/", [n]⟩ = "/" ++ n := (spelled_root hn).text_eq
  refine ⟨⟨hroot, fun part hpart => ?_⟩, ?_, fun part hpart => ?_⟩
  · rw [List.mem_singleton.mp hpart]
    exact hn.noNull
  · rw [htext, String.utf8ByteSize_append]
    have hslash : ("/" : String).utf8ByteSize = 1 := rfl
    omega
  · rw [List.mem_singleton.mp hpart]
    exact hsize

/-- The path is looked up by its name. -/
theorem locate_root (hn : IsName n) (hsize : n.utf8ByteSize ≤ 255) {follow : Bool}
    {loc : Location} (h : Leads fs follow 40 [] [n] loc) :
    fs.locate (Path.text ⟨"/", [n]⟩) follow = .ok ⟨loc, fs.find? loc⟩ :=
  (locate_eq_walk (spelled_root hn) (fits_root hn hsize) follow).trans (walk_of_leads h)

/-- What is no link is found under its name. -/
theorem leads_root (hn : IsName n) (hsize : n.utf8ByteSize ≤ 255) {follow : Bool} {links : Nat}
    (hdir : fs.find? [n] ≠ some .directory)
    (hlink : follow = true → ∀ target, fs.find? [n] ≠ some (.link target)) :
    Leads fs follow links [] [n] [n] :=
  Leads.last ⟨hn.ne_dot, hn.ne_dots, hsize⟩ hdir hlink

/-- Nor is a file a link. -/
theorem leads_file_root (hn : IsName n) (hsize : n.utf8ByteSize ≤ 255) {follow : Bool}
    {links : Nat} {data : ByteArray} {mode : Nat} (hfind : fs.find? [n] = some (.file data mode)) :
    Leads fs follow links [] [n] [n] := by
  refine leads_root hn hsize ?_ (fun _ target => ?_)
  · rw [hfind]
    simp only [ne_eq, Option.some.injEq, reduceCtorEq, not_false_eq_true]
  · rw [hfind]
    simp only [ne_eq, Option.some.injEq, reduceCtorEq, not_false_eq_true]

theorem status_file_root (hn : IsName n) (hsize : n.utf8ByteSize ≤ 255) {data : ByteArray}
    {mode : Nat} (hfind : fs.find? [n] = some (.file data mode)) :
    fs.status ⟨"/", [n]⟩ = .ok ([n], .file data mode) := by
  rw [status_eq_ok_iff, ← hfind]
  exact locate_root hn hsize (leads_file_root hn hsize hfind)

/-- A file is read. -/
theorem read_root (hn : IsName n) (hsize : n.utf8ByteSize ≤ 255) {data : ByteArray} {mode : Nat}
    (hfind : fs.find? [n] = some (.file data mode)) : fs.read ⟨"/", [n]⟩ = .ok data :=
  read_eq_ok_iff.mpr ⟨[n], mode, status_file_root hn hsize hfind⟩

theorem leads_free_root (hn : IsName n) (hsize : n.utf8ByteSize ≤ 255) {follow : Bool}
    {links : Nat} (hfind : fs.find? [n] = none) : Leads fs follow links [] [n] [n] := by
  refine leads_root hn hsize ?_ (fun _ target => ?_)
  · rw [hfind]
    exact (Option.some_ne_none _).symm
  · rw [hfind]
    exact (Option.some_ne_none _).symm

/-- Nothing is there where nothing stands. -/
theorem status_free_root (hn : IsName n) (hsize : n.utf8ByteSize ≤ 255)
    (hfind : fs.find? [n] = none) :
    fs.status ⟨"/", [n]⟩ = .error ⟨.noEntry, Path.text ⟨"/", [n]⟩, none⟩ := by
  rw [status, locate_root hn hsize (leads_free_root hn hsize hfind), hfind]

theorem exists?_free_root (hn : IsName n) (hsize : n.utf8ByteSize ≤ 255)
    (hfind : fs.find? [n] = none) : fs.exists? ⟨"/", [n]⟩ = .ok false := by
  rw [exists?, test, status_free_root hn hsize hfind]
  rfl

/-- Nothing is read there. -/
theorem not_read_root (hn : IsName n) (hsize : n.utf8ByteSize ≤ 255) (hfind : fs.find? [n] = none)
    (data : ByteArray) : fs.read ⟨"/", [n]⟩ ≠ .ok data := by
  intro hread
  rcases read_eq_ok_iff.mp hread with ⟨loc, mode, hstatus⟩
  rw [status_free_root hn hsize hfind] at hstatus
  cases hstatus

/-- A path that a link stands under leads to the file beside it. -/
theorem status_link_root {m : String} (hn : IsName n) (hsize : n.utf8ByteSize ≤ 255)
    (hm : IsName m) (hsize' : m.utf8ByteSize ≤ 255) (hlink : fs.find? [n] = some (.link m))
    {data : ByteArray} {mode : Nat} (hfind : fs.find? [m] = some (.file data mode)) :
    fs.status ⟨"/", [n]⟩ = .ok ([m], .file data mode) := by
  have hparts : components m = [m] := by
    refine @Path.components_joinStrings [m] (fun part hpart => ?_)
    rw [List.mem_singleton.mp hpart]
    exact hm.isPiece
  have hleads : Leads fs true 40 [] [n] [m] := by
    refine Leads.along ⟨hn.ne_dot, hn.ne_dots, hsize⟩ hlink (Or.inr rfl) ?_
    rw [hparts, List.append_nil, ite_self]
    exact leads_file_root hm hsize' hfind
  rw [status_eq_ok_iff, ← hfind]
  exact locate_root hn hsize hleads

/-- A directory that is there does not have to be made. -/
theorem makeDirectories_of_locate {p : Path} {loc : Location} {e : Entry}
    (hfound : fs.locate p.text false = .ok ⟨loc, some e⟩) (hdir : fs.isDirectory p = .ok true) :
    fs.makeDirectories p = (fs, .ok ()) := by
  have hmake : fs.makeDirectory p = .error ⟨.exists, p.text, none⟩ := by
    rw [makeDirectory, locateHere_eq_ok_iff.mpr hfound]
  have hensure : fs.ensureDirectory p = .ok fs := by
    rw [ensureDirectory, hmake]
    simp only [hdir]
    rfl
  rw [makeDirectories, makeDirectoriesUp, hensure]

/-- The root does not have to be made. -/
theorem makeDirectories_root (fs : FileSystem) : fs.makeDirectories ⟨"/", []⟩ = (fs, .ok ()) := by
  have htext : Path.text ⟨"/", []⟩ = "/" := by decide
  have hparts : components "/" = [] := by decide
  have hfound : fs.locate (Path.text ⟨"/", []⟩) false = .ok ⟨[], some .directory⟩ := by
    refine locate_eq_ok_iff.mpr ⟨by decide, by decide, by decide, ?_⟩
    rw [htext, hparts]
    exact walk_of_leads Leads.done
  refine makeDirectories_of_locate hfound ?_
  rw [isDirectory, test, status_root]
  rfl

end FileSystem

end Stencil
