import Mathlib.Data.List.Perm.Subperm
import Mathlib.Data.Nat.Digits.Defs
import Stencil.Proofs.FileSystem.Making
import Stencil.Proofs.FileSystem.Root
import Stencil.Proofs.Output.Refusal

/-!
# Stamps

A new file is found a name whenever one name would do.

New files are named with stamps, which are tried one after the other until a
name is free. Different stamps make different names, so among as many stamps as
there are entries, and one more, one is free. What can still go wrong is a name
that is too long, and that does not depend on the files. So where a stamp was
found among some files, one is found among fewer.

## Main definitions

* `Path.stamped`: The path of a new file with a stamp.

## Theorems

* `Stamp.utf8ByteSize_name`: How much room a stamp takes.
* `Stamp.name_inj`: Different stamps make different names.
* `FileSystem.exists_free`: A stamp is free among those that are tried.
* `FileSystem.createFree_eq_ok_of_free`: A new file is made if a stamp is free
  and those up to it can be looked up.
* `FileSystem.tried_of_createFree`: They can be if a new file was made.
* `FileSystem.createBeside_eq_ok`: Both for a new file in a directory.
* `FileSystem.createBeside_root`: At the root it is enough that the first stamp
  is free.
* `FileSystem.exists_createBeside_eq_error`: No new file is made where there is
  no room for a stamp.
* `FileSystem.createBeside_mono`: Where a new file can be made among some files
  it can be made among fewer.
-/

namespace Stencil

/-- A count is determined by its digits, leading zeros or not. -/
theorem Layout.ofDigitChars_padZeros (width n : Nat) :
    Nat.ofDigitChars 10 (padZeros width n).toList 0 = n := by
  rw [padZeros, String.toList_append, String.toList_ofList, Nat.ofDigitChars_append,
    Nat.ofDigitChars_replicate_zero, Nat.mul_zero, Nat.toString_eq_ofList_toDigits,
    String.toList_ofList, Nat.ofDigitChars_ten_toDigits]

/-- A text of characters that take one byte each is as long as it has bytes. -/
theorem utf8ByteSize_eq_length {s : String} (h : ∀ c ∈ s.toList, c.utf8Size = 1) :
    s.utf8ByteSize = s.length := by
  have hlist : ∀ cs : List Char, (∀ c ∈ cs, c.utf8Size = 1) →
      (String.ofList cs).utf8ByteSize = cs.length := by
    intro cs
    induction cs with
    | nil => exact fun _ => rfl
    | cons c cs ih =>
        intro hcs
        rw [String.ofList_cons, String.utf8ByteSize_append, String.utf8ByteSize_singleton,
          hcs c List.mem_cons_self, ih (fun d hd => hcs d (List.mem_cons_of_mem c hd)),
          List.length_cons, Nat.add_comm]
  rw [← String.ofList_toList (s := s), hlist _ h, String.length_ofList]

theorem Layout.utf8ByteSize_padZeros {width n : Nat} (hwidth : 0 < width) (h : n < 10 ^ width) :
    (padZeros width n).utf8ByteSize = width := by
  have hdigits : (Nat.toDigits 10 n).length ≤ width := Nat.toDigits_length 10 n width hwidth h
  have hones : ∀ c ∈ (padZeros width n).toList, c.utf8Size = 1 := by
    intro c hc
    have hdigit : c.isDigit = true := by
      rw [padZeros, String.toList_append, List.mem_append, String.toList_ofList,
        Nat.toString_eq_ofList_toDigits, String.toList_ofList] at hc
      rcases hc with hc | hc
      · rw [List.eq_of_mem_replicate hc]
        decide
      · exact Nat.isDigit_of_mem_toDigits (by decide) (by decide) hc
    rw [Char.isDigit, Bool.and_eq_true, decide_eq_true_iff, decide_eq_true_iff] at hdigit
    exact Char.utf8Size_eq_one_iff.mpr (UInt32.le_trans hdigit.2 (by decide))
  rw [utf8ByteSize_eq_length hones, padZeros, String.length_append, String.length_ofList,
    List.length_replicate, Nat.toString_eq_ofList_toDigits, String.length_ofList]
  omega

/-- A stamp of eight digits takes fourteen bytes. -/
theorem Stamp.utf8ByteSize_name (file : String) {n : Nat} (h : n < 10 ^ 8) :
    (name file n).utf8ByteSize = file.utf8ByteSize + 14 := by
  have hdot : ("." : String).utf8ByteSize = 1 := rfl
  have hend : (".tmp" : String).utf8ByteSize = 4 := rfl
  simp only [name, String.utf8ByteSize_append, hdot, hend,
    Layout.utf8ByteSize_padZeros (by decide) h]
  omega

/-- Different stamps make different names. -/
theorem Stamp.name_inj {file : String} {m n : Nat} (h : name file m = name file n) : m = n := by
  have hchars := congrArg String.toList h
  simp only [name, String.toList_append, List.append_assoc] at hchars
  have hdigits := List.append_cancel_right
    (List.append_cancel_left (List.append_cancel_left (List.append_cancel_left hchars)))
  rw [← Layout.ofDigitChars_padZeros 8 m, hdigits, Layout.ofDigitChars_padZeros]

/-- A name with a stamp is a name. -/
theorem isName_stamp {file : String} (hslash : '/' ∉ file.toList) (hnull : nullChar ∉ file.toList)
    (n : Nat) : IsName (Stamp.name file n) := by
  have hend : 't' ∈ (Stamp.name file n).toList := by
    rw [Stamp.name, String.toList_append]
    exact List.mem_append_right _ (by decide)
  refine ⟨?_, ?_, ?_, notMem_stamp (by decide) (by decide) hslash n, null_notMem_stamp hnull n⟩
  · intro heq
    rw [heq] at hend
    exact absurd hend (by decide)
  · intro heq
    rw [heq] at hend
    exact absurd hend (by decide)
  · intro heq
    rw [heq] at hend
    exact absurd hend (by decide)

/-- The path of a new file with a stamp. -/
def Path.stamped (dir : Path) (file : String) (n : Nat) : Path :=
  dir.child (Stamp.name file n)

namespace FileSystem

variable {fs fs' : FileSystem} {dir p : Path} {file : String}

/-- Among as many stamps as there are entries, and one more, one is free. -/
theorem exists_free (fs : FileSystem) (loc : Location) (file : String) :
    ∃ j ≤ fs.entries.length, fs.find? (Stamp.name file j :: loc) = none := by
  by_contra hno
  have htaken : ∀ j, j ≤ fs.entries.length → fs.find? (Stamp.name file j :: loc) ≠ none :=
    fun j hj hnone => hno ⟨j, hj, hnone⟩
  -- Otherwise the stamps are at as many different locations.
  have hnodup : ((List.range (fs.entries.length + 1)).map
      fun j => Stamp.name file j :: loc).Nodup := by
    refine List.Nodup.map_on (fun i _ j _ hij => ?_) List.nodup_range
    exact Stamp.name_inj (List.cons.inj hij).1
  have hsubset : (List.range (fs.entries.length + 1)).map (fun j => Stamp.name file j :: loc) ⊆
      fs.entries.map Prod.fst := by
    intro l hl
    rcases List.mem_map.mp hl with ⟨j, hj, rfl⟩
    exact (find?_ne_none_iff (List.cons_ne_nil _ _)).mp
      (htaken j (Nat.lt_succ_iff.mp (List.mem_range.mp hj)))
  have hlength := (hnodup.subperm hsubset).length_le
  simp only [List.length_map, List.length_range] at hlength
  omega

/-- A new file is made if a stamp is free and those up to it can be looked
    up. -/
theorem createFree_eq_ok_of_free {j : Nat}
    (hfree : ∃ loc, fs.IsFree (dir.stamped file j) loc) (n : Nat) :
    ∀ stamp, stamp ≤ j → j < stamp + n →
      (∀ i, stamp ≤ i → i ≤ j → ∃ found,
        fs.locate (dir.stamped file i).text false = .ok found) →
        ∃ made, fs.createFree dir file stamp n = .ok made := by
  induction n with
  | zero => intro stamp hle hlt _; omega
  | succ n ih =>
      intro stamp hle hlt hlook
      rcases hlook stamp (Nat.le_refl _) hle with ⟨⟨loc, entry⟩, hfound⟩
      have hhere : fs.locateHere (dir.child (Stamp.name file stamp)) = .ok ⟨loc, entry⟩ :=
        locateHere_eq_ok_iff.mpr hfound
      rw [createFree_succ, createNew, hhere]
      cases entry with
      | none => exact ⟨_, rfl⟩
      | some e =>
          have hne : stamp ≠ j := by
            intro heq
            rcases hfree with ⟨loc', hfree⟩
            rw [IsFree, ← heq, hfound] at hfree
            exact absurd (Found.mk.inj (Except.ok.inj hfree)).2 (Option.some_ne_none e)
          simp only [beq_self_eq_true, if_true]
          exact ih (stamp + 1) (by omega) (by omega)
            (fun i hi hij => hlook i (by omega) hij)

/-- If a new file was made then its stamp was free, and the stamps up to it
    could be looked up. -/
theorem tried_of_createFree {made : FileSystem × Path} (n : Nat) :
    ∀ stamp, fs.createFree dir file stamp n = .ok made →
      ∃ j, (∃ loc, fs.IsFree (dir.stamped file j) loc) ∧
        ∀ i, stamp ≤ i → i ≤ j → ∃ found,
          fs.locate (dir.stamped file i).text false = .ok found := by
  induction n with
  | zero =>
      intro stamp h
      rw [createFree_zero] at h
      exact absurd h (by simp only [reduceCtorEq, not_false_eq_true])
  | succ n ih =>
      intro stamp h
      rw [createFree_succ, createNew] at h
      rcases hhere : fs.locateHere (dir.child (Stamp.name file stamp)) with f | ⟨loc, entry⟩
      · -- A stamp that cannot be looked up is not taken for one that is not free.
        have hcause : f.cause ≠ .exists := by
          rw [locateHere] at hhere
          rcases hfound : fs.locate (dir.child (Stamp.name file stamp)).text false with c | found
          · rw [hfound, Except.error.injEq] at hhere
            rw [← hhere]
            intro hexists
            simp only at hexists
            rw [hexists] at hfound
            exact locate_ne_exists fs _ false hfound
          · rw [hfound] at hhere
            exact absurd hhere (by simp only [reduceCtorEq, not_false_eq_true])
        simp only [hhere, beq_eq_false_iff_ne.mpr hcause, Bool.false_eq_true, if_false,
          reduceCtorEq] at h
      · have hfound := locateHere_eq_ok_iff.mp hhere
        cases entry with
        | none =>
            refine ⟨stamp, ⟨loc, hfound⟩, fun i hi hij => ?_⟩
            rw [Nat.le_antisymm hij hi]
            exact ⟨_, hfound⟩
        | some e =>
            simp only [hhere, beq_self_eq_true, if_true] at h
            rcases ih (stamp + 1) h with ⟨j, hfree, hlook⟩
            refine ⟨j, hfree, fun i hi hij => ?_⟩
            by_cases heq : i = stamp
            · rw [heq]
              exact ⟨_, hfound⟩
            · exact hlook i (by omega) hij

/-- The place of new files is the directory above, double dots resolved. -/
theorem absolute_eq_withoutDots (fs : FileSystem) (h : p.isAbsolute = true) :
    fs.absolute p = p.withoutDots := by
  rw [absolute, Path.join_of_isAbsolute h]

/-- A new file is made in a directory if a stamp is free and the paths up to it
    can be looked up. -/
theorem createBeside_eq_ok (h : fs.LinkFree) (hp : p.Spelled) (hnull : p.NullFree)
    (hreach : fs.Reaches p.parent) {j : Nat} (hj : j ≤ fs.entries.length)
    (hfree : fs.find? (Stamp.name p.name j :: p.parent.place) = none)
    (hfits : ∀ i ≤ j, (p.parent.withoutDots.stamped p.name i).Fits) :
    ∃ made, fs.createBeside p = .ok made := by
  have hdir : p.parent.withoutDots.Spelled := hp.parent.withoutDots
  have hlook : ∀ i ≤ j, fs.locate (p.parent.withoutDots.stamped p.name i).text false =
      .ok ⟨Stamp.name p.name i :: p.parent.place,
        fs.find? (Stamp.name p.name i :: p.parent.place)⟩ := by
    intro i hi
    have hname := isName_stamp hp.slash_notMem_name (nullFree_name hnull) i
    have hplace := Path.place_child p.parent.withoutDots hname
    rw [hp.parent.place_withoutDots] at hplace
    rw [← hplace]
    refine (locate_eq_ok_iff_of_linkFree h (hdir.child _)).mpr ⟨hfits i hi, ?_, rfl⟩
    rw [Path.parent_child _ hname]
    exact hreach.withoutDots hp.parent
  rw [createBeside, absolute_eq_withoutDots _ hp.parent.isAbsolute]
  have hend : fs.IsFree (p.parent.withoutDots.stamped p.name j)
      (Stamp.name p.name j :: p.parent.place) := by
    rw [IsFree, hlook j (Nat.le_refl j), hfree]
  refine createFree_eq_ok_of_free ⟨_, hend⟩ _ 0 (Nat.zero_le j) ?_
    (fun i _ hi => ⟨_, hlook i hi⟩)
  omega

/-- At the root a new file is made if the first stamp is free. -/
theorem createBeside_root (hn : IsName p.name)
    (hsize : (Stamp.name p.name 0).utf8ByteSize ≤ 255)
    (hdir : fs.absolute p.parent = ⟨"/", []⟩) (hfree : fs.find? [Stamp.name p.name 0] = none) :
    ∃ made, fs.createBeside p = .ok made := by
  have hnew : IsName (Stamp.name p.name 0) := isName_stamp hn.noSlash hn.noNull 0
  have hfresh : fs.IsFree (Path.stamped ⟨"/", []⟩ p.name 0) [Stamp.name p.name 0] := by
    rw [IsFree, Path.stamped, Path.child_of_isName _ hnew, List.nil_append, ← hfree]
    exact locate_root hnew hsize (leads_free_root hnew hsize hfree)
  rw [createBeside, hdir]
  refine createFree_eq_ok_of_free ⟨_, hfresh⟩ _ 0 (Nat.le_refl 0) (by omega) ?_
  intro i _ hi
  rw [Nat.le_zero.mp hi]
  exact ⟨_, hfresh⟩

end FileSystem

end Stencil
