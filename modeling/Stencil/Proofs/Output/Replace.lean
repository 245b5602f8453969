import Stencil.Output.Replace
import Stencil.Proofs.FileSystem.Directory

/-!
# Replacing at One Stroke

Giving a file new content changes that file and nothing else, or nothing.

The content is filled into a new file, which then takes the place of the old
one. Up to that last step the file system differs from the one before in a
single location that was empty, so every path still leads where it led. The
new file is therefore found again under its own path, filling it and setting
its bits cannot fail, and taking it away restores what was there. The last
step finds the place of the output where the output's path led before. It is
the only step that can fail once the new file is there.

## Main definitions

* `FileSystem.Places`: A file was put at a location, and nothing else happened.

## Theorems

* `FileSystem.createFree_eq_ok`: A new file is made where nothing stood.
* `FileSystem.fill_put`, `FileSystem.setMode_put`: It is found again.
* `FileSystem.places_of_rename`: It takes the place of the output.
* `FileSystem.places_of_replaceIn`: Replacing puts one file in its place.
* `FileSystem.grows_of_replaceIn`: If it fails nothing has changed.
-/

namespace Stencil

namespace FileSystem

/-- A file with some content was put at a location, where no directory stood,
    and nothing else happened. -/
structure Places (fs fs' : FileSystem) (loc : Location) (data : ByteArray) : Prop where
  /-- The working directory is the same. -/
  here : fs'.here = fs.here
  /-- No directory gave way. -/
  notDirectory : fs.find? loc ≠ some .directory
  /-- The file is there and has the content. -/
  placed : ∃ mode, fs'.find? loc = some (.file data mode)
  /-- Everything else is as it was. -/
  others : ∀ l, l ≠ loc → fs'.find? l = fs.find? l

theorem ne_nil_of_find?_eq_none {fs : FileSystem} {loc : Location} (h : fs.find? loc = none) :
    loc ≠ [] := by
  intro heq
  rw [heq, find?_nil] at h
  exact Option.some_ne_none _ h

theorem put_put (fs : FileSystem) (loc : Location) (e e' : Entry) :
    (fs.put loc e).put loc e' = fs.put loc e' := by
  have hfilter : ((loc, e) :: fs.entries.filter (·.1 != loc)).filter (·.1 != loc) =
      fs.entries.filter (·.1 != loc) := by
    rw [List.filter_cons, if_neg (by simp only [bne_self_eq_false, Bool.false_eq_true,
      not_false_eq_true]), List.filter_filter]
    simp only [Bool.and_self]
  simp only [put, hfilter]

/-- A file that was put where nothing stood can be taken away again. -/
theorem find?_put_delete {fs : FileSystem} {loc : Location} (h : fs.find? loc = none)
    (e : Entry) (l : Location) : ((fs.put loc e).delete loc).find? l = fs.find? l := by
  by_cases heq : l = loc
  · rw [heq, find?_delete_self _ (ne_nil_of_find?_eq_none h), h]
  · rw [find?_delete_of_ne _ heq, find?_put_of_ne _ heq]

section NewFile

variable {fs : FileSystem} {src : Location} {fresh : Path}

/-- A path that leads to an empty place. -/
def IsFree (fs : FileSystem) (fresh : Path) (src : Location) : Prop :=
  fs.locate fresh.text false = .ok ⟨src, none⟩

theorem IsFree.find? (h : fs.IsFree fresh src) : fs.find? src = none :=
  (entry_of_locate h).symm

theorem IsFree.keepsWays_put (h : fs.IsFree fresh src) (e : Entry) :
    KeepsWays fs (fs.put src e) := by
  refine FileSystem.keepsWays_put ?_ (fun _ => ?_) e
  · rw [h.find?]
    exact (Option.some_ne_none _).symm
  · rw [h.find?]
    exact (Option.some_ne_none _).symm

/-- A file that is put at a free place is found under the path. -/
theorem IsFree.locate_put (h : fs.IsFree fresh src) (data : ByteArray) (mode : Nat)
    (follow : Bool) : (fs.put src (.file data mode)).locate fresh.text follow =
      .ok ⟨src, some (.file data mode)⟩ := by
  have hput := find?_put_self fs (ne_nil_of_find?_eq_none h.find?) (.file data mode)
  have hfound := locate_of_keepsWays (h.keepsWays_put (.file data mode)) h follow
    (fun _ target => by
      rw [hput]
      simp only [ne_eq, Option.some.injEq, reduceCtorEq, not_false_eq_true])
  rwa [hput] at hfound

theorem IsFree.fill_put (h : fs.IsFree fresh src) (old data : ByteArray) (mode : Nat) :
    (fs.put src (.file old mode)).fill fresh data = .ok (fs.put src (.file data mode)) := by
  unfold fill
  rw [status_eq_ok_iff.mpr (h.locate_put old mode true)]
  simp only [put_put]

theorem IsFree.setMode_put (h : fs.IsFree fresh src) (data : ByteArray) (old mode : Nat) :
    (fs.put src (.file data old)).setMode fresh mode = .ok (fs.put src (.file data mode)) := by
  unfold setMode
  rw [status_eq_ok_iff.mpr (h.locate_put data old true)]
  simp only [put_put]

theorem IsFree.discard_put (h : fs.IsFree fresh src) (data : ByteArray) (mode : Nat) :
    (fs.put src (.file data mode)).discard fresh =
      (fs.put src (.file data mode)).delete src := by
  have hhere : (fs.put src (.file data mode)).locateHere fresh =
      .ok ⟨src, some (.file data mode)⟩ :=
    locateHere_eq_ok_iff.mpr (h.locate_put data mode false)
  unfold discard remove
  rw [hhere]

/-- The new file takes the place of the output, where no directory stands. The
    path of the output leads where it led before the new file was made, because
    it does not pass through a file. -/
theorem IsFree.rename_cases (h : fs.IsFree fresh src) {data : ByteArray} {mode : Nat}
    {p : Path} {fs' : FileSystem}
    (hrename : (fs.put src (.file data mode)).rename fresh p = .ok fs') :
    ∃ found, fs.locate p.text false = .ok found ∧ fs.find? found.location ≠ some .directory ∧
      ((src = found.location ∧ fs' = fs.put src (.file data mode)) ∨
        found.location ≠ src ∧ fs' = ((fs.put src (.file data mode)).delete src).put
          found.location (.file data mode)) := by
  have hsrc := find?_put_self fs (ne_nil_of_find?_eq_none h.find?) (.file data mode)
  -- All that the new file changes is its own place, where no directory and no link is.
  have hback : KeepsWays (fs.put src (.file data mode)) fs := by
    refine ⟨rfl, fun l hl => ?_, fun l target hl => ?_⟩
    · have hne : l ≠ src := fun heq => by
        rw [heq, hsrc] at hl
        exact absurd hl (by simp only [Option.some.injEq, reduceCtorEq, not_false_eq_true])
      rwa [find?_put_of_ne fs hne] at hl
    · have hne : l ≠ src := fun heq => by
        rw [heq, hsrc] at hl
        exact absurd hl (by simp only [Option.some.injEq, reduceCtorEq, not_false_eq_true])
      rwa [find?_put_of_ne fs hne] at hl
  rw [rename, h.locate_put data mode false] at hrename
  rcases hdst : (fs.put src (.file data mode)).locate p.text false with c | ⟨dst, entry⟩
  · simp only [hdst, reduceCtorEq] at hrename
  · have hentry := entry_of_locate hdst
    have hfound := locate_of_keepsWays hback hdst false
      (fun hf => absurd hf Bool.false_ne_true)
    have hnot : entry ≠ some .directory := by
      intro heq
      simp only [hdst, heq, reduceCtorEq] at hrename
    have hmove : (if (src == dst) = true then
        (Except.ok (fs.put src (.file data mode)) : Except Fault FileSystem)
        else .ok (((fs.put src (.file data mode)).delete src).put dst (.file data mode))) =
          .ok fs' := by
      rw [hdst] at hrename
      rcases entry with _ | e
      · exact hrename
      · cases e with
        | directory => exact absurd rfl hnot
        | file data' mode' => exact hrename
        | link target => exact hrename
    refine ⟨_, hfound, ?_⟩
    simp only at hentry ⊢
    by_cases heq : src = dst
    · rw [if_pos (beq_iff_eq.mpr heq), Except.ok.injEq] at hmove
      refine ⟨?_, Or.inl ⟨heq, hmove.symm⟩⟩
      rw [← heq, h.find?]
      exact (Option.some_ne_none _).symm
    · have hne : dst ≠ src := fun hds => heq hds.symm
      rw [if_neg (fun hbeq => heq (eq_of_beq hbeq)), Except.ok.injEq] at hmove
      rw [find?_put_of_ne fs hne] at hentry
      exact ⟨hentry ▸ hnot, Or.inr ⟨hne, hmove.symm⟩⟩

/-- The new file is at the place of the output, and nothing else has changed. -/
theorem IsFree.places_of_rename (h : fs.IsFree fresh src) {data : ByteArray} {mode : Nat}
    {p : Path} {fs' : FileSystem}
    (hrename : (fs.put src (.file data mode)).rename fresh p = .ok fs') :
    ∃ found, fs.locate p.text false = .ok found ∧ Places fs fs' found.location data := by
  rcases h.rename_cases hrename with ⟨found, hfound, hnot, hcase⟩
  refine ⟨found, hfound, ?_⟩
  rcases hcase with ⟨heq, rfl⟩ | ⟨_, rfl⟩
  · rw [← heq] at hnot ⊢
    have hsrc := find?_put_self fs (ne_nil_of_find?_eq_none h.find?) (.file data mode)
    exact ⟨rfl, hnot, ⟨mode, hsrc⟩, fun l hl => find?_put_of_ne fs hl _⟩
  · have hroot : found.location ≠ [] := by
      intro hnil
      rw [hnil] at hnot
      exact hnot (find?_nil fs)
    refine ⟨rfl, hnot, ⟨mode, find?_put_self _ hroot _⟩, fun l hl => ?_⟩
    rw [find?_put_of_ne _ hl, find?_put_delete h.find?]

end NewFile

/-- Trying a stamp. Unfolding would go on into the name with the stamp, so the
    operation that creates the file is kept closed. -/
theorem createFree_succ (fs : FileSystem) (dir : Path) (name : String) (stamp n : Nat) :
    fs.createFree dir name stamp (n + 1) =
      match fs.createNew (dir.child (Stamp.name name stamp)) with
      | .ok fs' => .ok (fs', dir.child (Stamp.name name stamp))
      | .error f =>
        if f.cause == .exists then fs.createFree dir name (stamp + 1) n else .error f := by
  delta createFree createFree._f
  generalize fs.createNew = create
  rfl

/-- A new file is made where nothing stood. -/
theorem createFree_eq_ok {fs made : FileSystem} {dir fresh : Path} {name : String} (n : Nat) :
    ∀ stamp, fs.createFree dir name stamp n = .ok (made, fresh) →
      ∃ src, fs.IsFree fresh src ∧ made = fs.put src (.file .empty 0o600) := by
  induction n with
  | zero =>
      intro stamp h
      rw [createFree_zero] at h
      exact absurd h (by simp only [reduceCtorEq, not_false_eq_true])
  | succ n ih =>
      intro stamp h
      rw [createFree_succ] at h
      generalize dir.child (Stamp.name name stamp) = tried at h
      rcases hnew : fs.createNew tried with f | fs'
      · simp only [hnew] at h
        by_cases hexists : (f.cause == .exists) = true
        · rw [if_pos hexists] at h
          -- The name is taken, so the next one is tried.
          exact ih (stamp + 1) h
        · rw [if_neg hexists] at h
          exact absurd h (by simp only [reduceCtorEq, not_false_eq_true])
      · simp only [hnew, Except.ok.injEq, Prod.mk.injEq] at h
        rcases h with ⟨rfl, rfl⟩
        rw [createNew] at hnew
        rcases hhere : fs.locateHere tried with f | ⟨src, entry⟩
        · simp only [hhere, reduceCtorEq] at hnew
        · rw [hhere] at hnew
          cases entry with
          | some e => exact absurd hnew (by simp only [reduceCtorEq, not_false_eq_true])
          | none => exact ⟨src, locateHere_eq_ok_iff.mp hhere, (Except.ok.inj hnew).symm⟩

/-- Once the new file is there, only giving it its place can fail. -/
theorem settle_eq_rename {fs : FileSystem} {src : Location} {fresh : Path}
    (h : fs.IsFree fresh src) (p : Path) (mode : Nat) (data : ByteArray) :
    (fs.put src (.file .empty 0o600)).settle fresh p mode data =
      (fs.put src (.file data mode)).rename fresh p := by
  rw [settle, h.fill_put]
  simp only [bind, Except.bind, h.setMode_put]

/-- What replacing a file in its directory comes to: nothing, or a new file
    that takes the output's place or is taken away again. -/
theorem replaceIn_cases (fs : FileSystem) (p : Path) (data : ByteArray)
    (bits : Location → Nat := fun _ => directoryMode) :
    (∃ f, fs.replaceIn p data bits = (fs, .error f)) ∨
      ∃ fresh src mode, fs.IsFree fresh src ∧ fs.modeFor p bits = .ok mode ∧
        ((∃ f, fs.replaceIn p data bits =
            ((fs.put src (.file .empty 0o600)).delete src, .error f)) ∨
          ∃ fs', fs.replaceIn p data bits = (fs', .ok ()) ∧
            (fs.put src (.file data mode)).rename fresh p = .ok fs') := by
  unfold replaceIn
  rcases fs.modeFor p bits with f | mode
  · exact Or.inl ⟨f, rfl⟩
  · simp only []
    rcases hmade : fs.createBeside p with f | ⟨made, fresh⟩
    · exact Or.inl ⟨f, rfl⟩
    · rcases createFree_eq_ok _ _ hmade with ⟨src, hfree, rfl⟩
      refine Or.inr ⟨fresh, src, mode, hfree, rfl, ?_⟩
      simp only [settle_eq_rename hfree, hfree.discard_put]
      rcases (fs.put src (.file data mode)).rename fresh p with f | fs'
      · exact Or.inl ⟨f, rfl⟩
      · exact Or.inr ⟨fs', rfl, rfl⟩

/-- Replacing a file puts the content where its path leads. -/
theorem places_of_replaceIn {fs fs' : FileSystem} {p : Path} {data : ByteArray}
    {bits : Location → Nat} (h : fs.replaceIn p data bits = (fs', .ok ())) :
    ∃ found, fs.locate p.text false = .ok found ∧ Places fs fs' found.location data := by
  rcases replaceIn_cases fs p data bits with ⟨f, heq⟩ | ⟨fresh, src, mode, hfree, _, hcase⟩
  · rw [heq, Prod.mk.injEq] at h
    exact absurd h.2 (by simp only [reduceCtorEq, not_false_eq_true])
  · rcases hcase with ⟨f, heq⟩ | ⟨done, heq, hrename⟩
    · rw [heq, Prod.mk.injEq] at h
      exact absurd h.2 (by simp only [reduceCtorEq, not_false_eq_true])
    · rw [heq, Prod.mk.injEq] at h
      rw [h.1] at hrename
      exact hfree.places_of_rename hrename

/-- If a file cannot be replaced nothing has changed. -/
theorem grows_of_replaceIn {fs fs' : FileSystem} {p : Path} {data : ByteArray} {f : Fault}
    {bits : Location → Nat} (h : fs.replaceIn p data bits = (fs', .error f)) : Grows fs fs' := by
  rcases replaceIn_cases fs p data bits with ⟨g, heq⟩ | ⟨fresh, src, mode, hfree, _, hcase⟩
  · rw [heq, Prod.mk.injEq] at h
    rw [← h.1]
    exact Grows.refl fs
  · rcases hcase with ⟨g, heq⟩ | ⟨done, heq, _⟩
    · rw [heq, Prod.mk.injEq] at h
      rw [← h.1]
      exact ⟨rfl, fun l => Or.inl (find?_put_delete hfree.find? _ l)⟩
    · rw [heq, Prod.mk.injEq] at h
      exact absurd h.2 (by simp only [reduceCtorEq, not_false_eq_true])

end FileSystem

end Stencil
