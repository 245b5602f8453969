import Stencil.Proofs.Build.Again
import Stencil.Proofs.FileSystem.Above

/-!
# Room for a Stamp

How long the name of a file may be that is to be replaced.

A file is replaced by way of a new file, and the name of that one is longer by
the fourteen bytes of a stamp. A name may have 255 bytes, so what can be replaced
is what has 241 bytes or less. A file whose name is longer can be there and be
read, and it could be written in place, but not like this. The rest of what a
replacement needs is there once the directory is: the new file goes to the
directory above, with double dots resolved textually, and that is the same
directory unless a link comes before a double dot.

An output whose extension takes no more bytes than the suffix of its template
has no longer a name than the template, so every file system that holds the
template has a name for the output. From 242 bytes on the output cannot be
written all the same.

## Main definitions

* `FileSystem.Admits`: All that a file at a path could be expected to need.
* `FileSystem.HasRoom`: There is room for a new file beside it.

## Theorems

* `FileSystem.locate_child`, `FileSystem.status_of_locate_child`: A name is
  looked up in a directory, and nowhere else.
* `FileSystem.exists_createBeside_iff`: A new file is made if there is room.
* `FileSystem.exists_replace_iff`, `FileSystem.exists_write_iff`: A file is
  replaced if there is room, and an output written.
* `FileSystem.hasRoom_iff_of_linkFree`: Without links that is up to the name.
* `Catalog.Regular.utf8ByteSize_name_outputPath_le`: No output has a longer name
  than its template if the extension is not longer than the suffix.
* `FileSystem.replace_iff_room`: All of it.
-/

namespace Stencil

namespace Path

variable {p d : Path} {n : String}

/-- A path goes on from the one above it with its name. -/
theorem child_name (h : IsName p.name) : p.parent.child p.name = p := by
  have hne : p.parts ≠ [] := by
    intro hnil
    rw [name, hnil] at h
    exact h.ne_empty rfl
  have hparts : p.parts.dropLast ++ [p.name] = p.parts := by
    rw [name, List.getLastD_eq_getLast?, List.getLast?_eq_some_getLast hne, Option.getD_some,
      List.dropLast_append_getLast hne]
  rw [child_of_isName _ h, parent, hparts]

theorem Listed.child (h : d.Listed) (hn : IsName n) : (d.child n).Listed := by
  rw [child_of_isName d hn]
  refine ⟨h.root, fun part hpart => ?_⟩
  rcases List.mem_append.mp hpart with hpart | hpart
  · exact h.parts part hpart
  · rw [List.mem_singleton.mp hpart]
    exact hn.isPiece

/-- Names below a path are written behind the same text. -/
theorem exists_text_child (d : Path) :
    ∃ start : String, ∀ n, IsName n → (d.child n).text = start ++ n := by
  rcases exists_wayText_concat d.parts with ⟨start, hstart⟩
  refine ⟨d.root ++ start, fun n hn => ?_⟩
  have hne : (d.parts ++ [n]).isEmpty = false :=
    List.isEmpty_eq_false_iff.mpr (List.append_ne_nil_of_right_ne_nil _ (List.cons_ne_nil n []))
  rw [child_of_isName d hn, text, hne, Bool.and_false, if_neg Bool.false_ne_true]
  exact (congrArg _ (hstart n)).trans (String.append_assoc ..).symm

theorem text_child_ne_empty (d : Path) (hn : IsName n) : (d.child n).text ≠ "" := by
  rcases d.exists_text_child with ⟨start, htext⟩
  intro hempty
  have hsize := congrArg String.utf8ByteSize (htext n hn)
  rw [hempty, String.utf8ByteSize_append] at hsize
  have hzero : n.utf8ByteSize = 0 := by
    have hnil : ("" : String).utf8ByteSize = 0 := rfl
    omega
  exact hn.ne_empty (String.utf8ByteSize_eq_zero_iff.mp hzero)

theorem utf8ByteSize_text_le_child (hd : d.Spelled) (hn : IsName n) :
    d.text.utf8ByteSize ≤ (d.child n).text.utf8ByteSize := by
  rw [(hd.child n).text_eq, hd.text_eq, child_of_isName d hn]
  simp only [String.utf8ByteSize_append, Nat.add_le_add_iff_left]
  by_cases hnil : d.parts = []
  · rw [hnil]
    exact Nat.zero_le _
  · have hlonger : Text.joinStrings "/" (d.parts ++ [n]) =
        Text.joinStrings "/" d.parts ++ "/" ++ n := wayText_concat hnil n
    rw [hlonger, String.utf8ByteSize_append, String.utf8ByteSize_append, Nat.add_assoc]
    exact Nat.le_add_right _ _

end Path

namespace FileSystem

variable {fs : FileSystem} {p d : Path} {n : String}

theorem spelled_absolute (h : fs.Proper) (hp : p.Listed) : (fs.absolute p).Spelled := by
  refine Path.Spelled.withoutDots ?_
  by_cases habs : p.isAbsolute = true
  · rw [Path.join_of_isAbsolute habs]
    exact hp.spelled habs
  · rw [Path.join, if_neg habs]
    refine ⟨Or.inl rfl, fun part hpart => ?_⟩
    rcases List.mem_append.mp hpart with hpart | hpart
    · exact (h.here part (List.mem_reverse.mp hpart)).isPiece
    · exact hp.parts part hpart

section Child

/-- A name is looked up in a directory that is there, be it behind links. -/
theorem locate_child (hd : d.Listed) {dir : Location} (hdir : fs.status d = .ok (dir, .directory))
    (hn : IsName n) (hsize : n.utf8ByteSize ≤ 255) (htext : (d.child n).text.utf8ByteSize ≤ 4095) :
    fs.locate (d.child n).text false = .ok ⟨n :: dir, fs.find? (n :: dir)⟩ := by
  have hfound := status_eq_ok_iff.mp hdir
  have hnull : d.NullFree := Path.nullFree_iff.mpr (locate_eq_ok_iff.mp hfound).1
  have hleads := (leads_of_locate hd hfound).concat (entry_of_locate hfound).symm
    ⟨hn.ne_dot, hn.ne_dots, hsize⟩
  refine locate_eq_ok_iff.mpr ⟨Path.nullFree_iff.mp (hnull.child hn.noNull),
    d.text_child_ne_empty hn, htext, ?_⟩
  rw [(hd.child hn).walk_text, (hd.child hn).isRooted_text, Path.child_of_isName d hn]
  exact walk_of_leads hleads

/-- It is not looked up elsewhere, or if it is too long. -/
theorem status_of_locate_child (hd : d.Spelled) (hn : IsName n) {found : Found}
    (h : fs.locate (d.child n).text false = .ok found) :
    n.utf8ByteSize ≤ 255 ∧ ∃ dir, fs.status d = .ok (dir, .directory) := by
  rcases locate_eq_ok_iff.mp h with ⟨hnull, _, hsize, _⟩
  have hnull' : d.NullFree := by
    have hparent := (Path.nullFree_iff.mpr hnull).parent
    rwa [d.parent_child hn] at hparent
  have hleads := leads_of_locate ⟨Or.inr (hd.child n).root, (hd.child n).parts⟩ h
  rw [start, if_pos (hd.child n).isAbsolute, Path.child_of_isName d hn] at hleads
  rcases hleads.of_concat with ⟨links, dir, hfirst, hlast, hsolid⟩
  have hdir : fs.find? dir = some .directory := (hsolid trivial).find?
  constructor
  · generalize found.location = loc at hlast
    cases hlast with
    | dot rest => exact absurd rfl hn.ne_dot
    | up rest => exact absurd rfl hn.ne_dots
    | enter hplain _ _ => exact hplain.2.2
    | last hplain _ _ => exact hplain.2.2
    | along hplain _ _ _ => exact hplain.2.2
  · refine ⟨dir, status_eq_ok_iff.mpr (locate_eq_ok_iff.mpr ⟨Path.nullFree_iff.mp hnull',
      ?_, Nat.le_trans (Path.utf8ByteSize_text_le_child hd hn) hsize, ?_⟩)⟩
    · intro hempty
      have hrooted := hd.isRooted_text
      rw [hempty] at hrooted
      exact absurd hrooted (by decide)
    · rw [hd.isRooted_text, if_pos rfl, hd.components_text, ← hdir]
      exact walk_of_leads hfirst

/-- Where a walk that follows all links finds something, it finds something if it
    stops at the last of them. -/
theorem Leads.exists_stop {links : Nat} {dir loc : Location} {parts : List String}
    (h : Leads fs true links dir parts loc) (hentry : fs.find? loc ≠ none) :
    ∃ stop, Leads fs false links dir parts stop ∧ fs.find? stop ≠ none := by
  induction h with
  | done => exact ⟨_, Leads.done, hentry⟩
  | dot rest ih =>
      rcases ih hentry with ⟨stop, hstop, hthere⟩
      exact ⟨stop, Leads.dot hstop, hthere⟩
  | up rest ih =>
      rcases ih hentry with ⟨stop, hstop, hthere⟩
      exact ⟨stop, Leads.up hstop, hthere⟩
  | enter hq hdir rest ih =>
      rcases ih hentry with ⟨stop, hstop, hthere⟩
      exact ⟨stop, Leads.enter hq hdir hstop, hthere⟩
  | last hq hdir hlink =>
      exact ⟨_, Leads.last hq hdir (fun hf => absurd hf Bool.false_ne_true), hentry⟩
  | @along links dir loc q target qs hq hlink hgo rest ih =>
      by_cases hnil : qs = []
      · -- The last component is the link, and that is where it stops.
        subst hnil
        refine ⟨q :: dir, Leads.last hq ?_ (fun hf => absurd hf Bool.false_ne_true), ?_⟩
        · rw [hlink]
          simp only [ne_eq, Option.some.injEq, reduceCtorEq, not_false_eq_true]
        · rw [hlink]
          exact Option.some_ne_none _
      · rcases ih hentry with ⟨stop, hstop, hthere⟩
        exact ⟨stop, Leads.along hq hlink (Or.inl hnil) hstop, hthere⟩

/-- A directory that is there does not have to be made, be it behind links. -/
theorem makeDirectories_of_isDirectory (hd : d.Listed) (hdir : fs.isDirectory d = .ok true) :
    fs.makeDirectories d = (fs, .ok ()) := by
  rcases isDirectory_eq_ok_true_iff.mp hdir with ⟨dir, hstatus⟩
  have hfound := status_eq_ok_iff.mp hstatus
  have hthere : fs.find? dir ≠ none := by
    rw [← entry_of_locate hfound]
    exact Option.some_ne_none _
  rcases (leads_of_locate hd hfound).exists_stop hthere with ⟨stop, hstop, hstopThere⟩
  rcases Option.ne_none_iff_exists'.mp hstopThere with ⟨e, he⟩
  rcases locate_eq_ok_iff.mp hfound with ⟨hnull, hempty, hsize, _⟩
  have hstopFound : fs.locate d.text false = .ok ⟨stop, some e⟩ := by
    refine locate_eq_ok_iff.mpr ⟨hnull, hempty, hsize, ?_⟩
    rw [hd.walk_text, hd.isRooted_text, ← he]
    exact walk_of_leads hstop
  exact makeDirectories_of_locate hstopFound hdir

end Child

/-- All that a file at a path could be expected to need: the path has a name, its
    directory is there, and no directory is in its place. The limits that are not
    on names are not met: paths are not too long, and there are not as many files
    as there are stamps of eight digits. -/
structure Admits (fs : FileSystem) (p : Path) : Prop where
  /-- The file system is proper. -/
  proper : fs.Proper
  /-- The path lists pieces. -/
  listed : p.Listed
  /-- Its last component is a name. -/
  name : IsName p.name
  /-- Its directory is there. -/
  parent : fs.isDirectory p.parent = .ok true
  /-- No directory is in its place. -/
  notDirectory : ∀ loc, fs.locate p.text false ≠ .ok ⟨loc, some .directory⟩
  /-- The path is not too long. -/
  size : p.text.utf8ByteSize ≤ 4095
  /-- Nor is that of a new file beside it. -/
  sizeBeside : ((fs.absolute p.parent).stamped p.name 0).text.utf8ByteSize ≤ 4095
  /-- There are fewer files than stamps. -/
  few : fs.entries.length < 10 ^ 8

/-- There is room for a new file beside a path. -/
structure HasRoom (fs : FileSystem) (p : Path) : Prop where
  /-- The directory that the new file goes to is there. -/
  beside : fs.isDirectory (fs.absolute p.parent) = .ok true
  /-- The name leaves room for a stamp. -/
  stamp : p.name.utf8ByteSize ≤ 241

section Replace

variable {data : ByteArray} {bits : Location → Nat}

/-- A new file is made if there is room. -/
theorem exists_createBeside_iff (h : fs.Admits p) :
    (∃ made, fs.createBeside p = .ok made) ↔ fs.HasRoom p := by
  have hdir := spelled_absolute h.proper h.listed.parent
  have hstamp := isName_stamp h.name.noSlash h.name.noNull
  rw [createBeside]
  constructor
  · rintro ⟨made, hmade⟩
    -- The first stamp was looked up, so it is not too long.
    rcases tried_of_createFree _ 0 hmade with ⟨j, _, hlook⟩
    rcases hlook 0 (Nat.le_refl 0) (Nat.zero_le j) with ⟨found, hfound⟩
    rcases status_of_locate_child hdir (hstamp 0) hfound with ⟨hsize, hbeside⟩
    rw [Stamp.utf8ByteSize_name p.name (by decide)] at hsize
    exact ⟨isDirectory_eq_ok_true_iff.mpr hbeside, by omega⟩
  · intro hroom
    rcases isDirectory_eq_ok_true_iff.mp hroom.beside with ⟨dir, hstatus⟩
    rcases fs.exists_free dir p.name with ⟨j, hj, hfree⟩
    have hfew := h.few
    have hroom' := hroom.stamp
    have hlook : ∀ i ≤ j, fs.locate ((fs.absolute p.parent).stamped p.name i).text false =
        .ok ⟨Stamp.name p.name i :: dir, fs.find? (Stamp.name p.name i :: dir)⟩ := by
      intro i hi
      have hsize := Stamp.utf8ByteSize_name p.name (n := i) (by omega)
      refine locate_child ⟨Or.inr hdir.root, hdir.parts⟩ hstatus (hstamp i) (by omega) ?_
      -- All stamps up to it are of one length.
      rcases (fs.absolute p.parent).exists_text_child with ⟨start, htext⟩
      have hbeside := h.sizeBeside
      rw [Path.stamped, htext _ (hstamp 0), String.utf8ByteSize_append,
        Stamp.utf8ByteSize_name p.name (by decide)] at hbeside
      rwa [htext _ (hstamp i), String.utf8ByteSize_append, hsize]
    have hend : fs.IsFree ((fs.absolute p.parent).stamped p.name j)
        (Stamp.name p.name j :: dir) := by
      rw [IsFree, hlook j (Nat.le_refl j), hfree]
    exact createFree_eq_ok_of_free ⟨_, hend⟩ _ 0 (Nat.zero_le j) (by omega)
      (fun i _ hi => ⟨_, hlook i hi⟩)

/-- A file is replaced if there is room, and if it can be told whether it is
    there. -/
theorem exists_replace_iff (h : fs.Admits p) :
    (∃ done, fs.replace p data bits = (done, .ok ())) ↔
      (∃ b, fs.exists? p = .ok b) ∧ fs.HasRoom p := by
  have hmode := @exists_modeFor_iff fs p bits
  rw [← exists_createBeside_iff h, ← hmode, replace,
    makeDirectories_of_isDirectory h.listed.parent h.parent]
  -- The directory is there, so what is left is to replace a file in it.
  constructor
  · rintro ⟨done, hdone⟩
    exact of_replaceIn_eq_ok hdone
  · rintro ⟨⟨mode, hmode⟩, made, hmade⟩
    rcases isDirectory_eq_ok_true_iff.mp h.parent with ⟨dir, hstatus⟩
    have hstamp := ((exists_createBeside_iff h).mp ⟨made, hmade⟩).stamp
    have hchild := Path.child_name h.name
    have hfound := locate_child h.listed.parent hstatus h.name (by omega) (hchild.symm ▸ h.size)
    rw [hchild] at hfound
    refine replaceIn_eq_ok_of_locate hmode hmade hfound (fun hdir => ?_) data
    rw [show fs.find? (p.name :: dir) = some .directory from hdir] at hfound
    exact h.notDirectory _ hfound

/-- An output is written if its file has the content already, or if the file is
    not there or can be read, and is replaced. -/
theorem exists_write_iff (h : fs.Admits p) {header body : String} :
    (∃ status, (fs.write header p body).2 = .ok status) ↔
      fs.read p = .ok (outputBytes header body) ∨
        ((fs.exists? p = .ok false ∨ ∃ old, fs.read p = .ok old) ∧ fs.HasRoom p) := by
  by_cases hread : fs.read p = .ok (outputBytes header body)
  · rw [write_of_read hread]
    exact ⟨fun _ => Or.inl hread, fun _ => ⟨.unchanged, rfl⟩⟩
  · simp only [hread, false_or]
    have hreplace := @exists_replace_iff fs p (outputBytes header body) (fun _ => directoryMode) h
    constructor
    · rintro ⟨status, hstatus⟩
      have hanswers := answers_of_write hstatus
      rcases write_of_answers hanswers hread with ⟨status', hwrite⟩
      refine ⟨hanswers, (hreplace.mp ?_).2⟩
      rcases hdone : fs.replace p (outputBytes header body) with ⟨done, f | _⟩
      · rw [hwrite, hdone] at hstatus
        exact absurd hstatus (by simp only [Except.map, reduceCtorEq, not_false_eq_true])
      · exact ⟨done, rfl⟩
    · rintro ⟨hanswers, hroom⟩
      have hexists : ∃ b, fs.exists? p = .ok b := by
        rcases hanswers with hnone | ⟨old, hold⟩
        · exact ⟨false, hnone⟩
        · exact ⟨true, exists?_of_read hold⟩
      rcases hreplace.mpr ⟨hexists, hroom⟩ with ⟨done, hdone⟩
      rcases write_of_answers hanswers hread with ⟨status, hwrite⟩
      rw [hwrite, hdone]
      exact ⟨status, rfl⟩

/-- Without links that is up to the name: the new file goes to the directory that
    is there, and it can be told what else is. -/
theorem replace_iff_of_linkFree (h : fs.Admits p) (hlinks : fs.LinkFree)
    (habs : p.isAbsolute = true) :
    (∃ done, fs.replace p data bits = (done, .ok ())) ↔ p.name.utf8ByteSize ≤ 241 := by
  rw [exists_replace_iff h]
  refine ⟨fun hall => hall.2.stamp, fun hsize => ?_⟩
  have hp : p.Spelled := h.listed.spelled habs
  rcases isDirectory_eq_ok_true_iff.mp h.parent with ⟨dir, hstatus⟩
  rcases (status_eq_ok_iff_of_linkFree hlinks hp.parent).mp hstatus with
    ⟨hparent, habove, rfl, hdir⟩
  constructor
  · have hchild : p.parent.child p.name = p := Path.child_name h.name
    have hparts : p.parts = p.parent.parts ++ [p.name] := by
      rw [← congrArg Path.parts hchild, Path.child_of_isName _ h.name]
    have hfits : p.Fits := by
      refine ⟨hchild ▸ hparent.nullFree.child h.name.noNull, h.size, fun part hpart => ?_⟩
      rw [hparts] at hpart
      rcases List.mem_append.mp hpart with hpart | hpart
      · exact hparent.parts part hpart
      · rw [List.mem_singleton.mp hpart]
        omega
    rcases test_eq_ok hlinks hp hfits (fun _ => true) with ⟨b, hexists, _⟩
    exact ⟨b, hexists⟩
  · refine ⟨?_, hsize⟩
    have hbeside := h.sizeBeside
    rw [absolute_eq_withoutDots fs hp.parent.isAbsolute] at hbeside ⊢
    have hfits : p.parent.withoutDots.Fits := by
      refine ⟨hparent.nullFree.withoutDots, ?_, fun part hpart => ?_⟩
      · exact Nat.le_trans (Path.utf8ByteSize_text_le_child hp.parent.withoutDots
          (isName_stamp h.name.noSlash h.name.noNull 0)) hbeside
      · rw [hp.parent.parts_withoutDots, List.mem_reverse] at hpart
        rcases mem_descend p.parent.parts [] hpart with hpart | ⟨hpart, _⟩
        · exact absurd hpart List.not_mem_nil
        · exact hparent.parts part hpart
    exact (isDirectory_eq_ok_true hlinks hp.parent.withoutDots hfits).mpr
      ((reaches_of_parent habove hdir).withoutDots hp.parent)

end Replace

end FileSystem

namespace Catalog.Regular

variable {c : Catalog} {config : Config} {q : Source}

/-- The name of an output stands in what the stem of a template and the extension
    make, all of it unless the extension has a slash. -/
theorem exists_name_outputPath_mem (h : c.Regular config) (hq : q ∈ c.sources) (root : Path) :
    ∃ stem, baseName q.path = stem ++ q.suffix ∧
      (q.outputPath root config).name ∈
        Text.splitOnChar '/' (stem ++ "." ++ config.extension) := by
  rcases h.exists_outputName_eq hq with ⟨dirs, stem, hdirs, hstem, hslash, hname, hbase⟩
  refine ⟨stem, hbase, ?_⟩
  have hsplit : ∃ before, Text.splitOnChar '/' (q.outputName config) =
      before ++ Text.splitOnChar '/' (stem ++ "." ++ config.extension) := by
    rw [hname]
    by_cases hnil : dirs = []
    · exact ⟨[], by rw [hnil]; rfl⟩
    · rw [wayText_concat hnil, show ("/" : String) = String.ofList ['/'] from rfl,
        Text.splitOnChar_join]
      exact ⟨_, rfl⟩
  rcases hsplit with ⟨before, hsplit⟩
  -- The first piece of that has the stem in it, so it counts as a component.
  have hpieces : (Text.splitOnChar '/' (stem ++ "." ++ config.extension)).filter
      Path.isProper ≠ [] := by
    rcases Text.exists_splitOnChar_eq '/' config.extension with ⟨first, more, hfirst⟩
    have hnot : '/' ∉ (stem ++ ".").toList := by
      rw [String.toList_append, List.mem_append, not_or]
      exact ⟨hslash, by decide⟩
    have hlong : ∀ t : String, t.length < 2 → stem ++ "." ++ first ≠ t := by
      intro t ht heq
      have hdot : (".").length = 1 := rfl
      have hpos : 0 < stem.length := Nat.pos_of_ne_zero (mt String.length_eq_zero_iff.mp hstem)
      rw [← heq, String.length_append, String.length_append] at ht
      omega
    refine List.ne_nil_of_mem (List.mem_filter.mpr ⟨?_, ?_⟩) (a := stem ++ "." ++ first)
    · rw [hfirst _ hnot]
      exact List.mem_cons_self
    · rw [Path.isProper, Bool.and_eq_true, bne_iff_ne, bne_iff_ne]
      exact ⟨hlong "" (by decide), hlong "." (by decide)⟩
  have hlast := List.getLast?_append_of_ne_nil ((config.outputRoot root).parts ++
    before.filter Path.isProper) hpieces
  rw [Source.outputPath, Path.child, Path.join, h.isAbsolute_outputName hq,
    if_neg Bool.false_ne_true, Path.name, List.getLastD_eq_getLast?, Path.ofString, hsplit,
    List.filter_append, ← List.append_assoc, hlast, List.getLast?_eq_some_getLast hpieces,
    Option.getD_some]
  exact (List.mem_filter.mp (List.getLast_mem hpieces)).1

/-- No output has a longer name than its template if the extension is not longer
    than what the suffix has after its dot. -/
theorem utf8ByteSize_name_outputPath_le (h : c.Regular config) (hq : q ∈ c.sources) (root : Path)
    (hext : config.extension.utf8ByteSize < q.suffix.utf8ByteSize) :
    (q.outputPath root config).name.utf8ByteSize ≤ (baseName q.path).utf8ByteSize := by
  rcases h.exists_name_outputPath_mem hq root with ⟨stem, hbase, hname⟩
  have hsize := Text.utf8ByteSize_le_of_mem_splitOnChar hname
  have hdot : (".").utf8ByteSize = 1 := rfl
  rw [String.utf8ByteSize_append, String.utf8ByteSize_append] at hsize
  rw [hbase, String.utf8ByteSize_append]
  omega

end Catalog.Regular

namespace FileSystem

variable {fs : FileSystem} {p : Path}

/-- A file that the file system admits is replaced if it can be told whether it is
    there, the directory for the new file is, and the name has at most 241 bytes. An
    output is written if that is so and its file is missing or can be read, or if
    there is nothing to do. With an absolute path and without links it is a matter of
    the 241 bytes alone. All this holds of the outputs of a tree, whose names are no
    longer than those of their templates if the extension is no longer than the
    suffix without its dot. -/
theorem replace_iff_room (h : fs.Admits p) (data : ByteArray) (bits : Location → Nat)
    (header body : String) :
    ((∃ done, fs.replace p data bits = (done, .ok ())) ↔
      (∃ b, fs.exists? p = .ok b) ∧ fs.HasRoom p) ∧
    ((∃ status, (fs.write header p body).2 = .ok status) ↔
      fs.read p = .ok (outputBytes header body) ∨
        ((fs.exists? p = .ok false ∨ ∃ old, fs.read p = .ok old) ∧ fs.HasRoom p)) ∧
    (fs.LinkFree → p.isAbsolute = true →
      ((∃ done, fs.replace p data bits = (done, .ok ())) ↔ p.name.utf8ByteSize ≤ 241)) ∧
    ∀ (tree : FileSystem) (root : Path) (config : Config) (notes : Catalog.Notes) (c : Catalog),
      tree.Proper → Catalog.build tree root config = (notes, .ok c) → ∀ q ∈ c.queries,
        q.outputPath c.root config = p → config.extension.utf8ByteSize < q.suffix.utf8ByteSize →
          p.name.utf8ByteSize ≤ (baseName q.path).utf8ByteSize := by
  refine ⟨exists_replace_iff h, exists_write_iff h,
    fun hlinks habs => replace_iff_of_linkFree h hlinks habs, ?_⟩
  rintro tree root config notes c htree hbuild q hq rfl hext
  have hregular := Catalog.regular_of_build htree hbuild
  exact hregular.utf8ByteSize_name_outputPath_le (List.mem_of_mem_filter hq) c.root hext

/-- What a file at the root needs. -/
theorem admits_root {n : String} (h : fs.Proper) (hn : IsName n) (hsize : n.utf8ByteSize ≤ 255)
    (hdir : fs.find? [n] ≠ some .directory) (hfew : fs.entries.length < 10 ^ 8) :
    fs.Admits ⟨"/", [n]⟩ := by
  have htext : ∀ m, IsName m → (Path.text ⟨"/", [m]⟩).utf8ByteSize = m.utf8ByteSize + 1 := by
    intro m hm
    have hslash : ("/" : String).utf8ByteSize = 1 := rfl
    have hjoin : Path.text ⟨"/", [m]⟩ = "/" ++ m := (spelled_root hm).text_eq
    rw [hjoin, String.utf8ByteSize_append, hslash, Nat.add_comm]
  have hparts := (spelled_root hn).parts
  refine ⟨h, ⟨Or.inr (Or.inl rfl), hparts⟩, hn, ?_, fun loc hloc => ?_, ?_, ?_, hfew⟩
  · exact isDirectory_eq_ok_true_iff.mpr ⟨[], status_root fs⟩
  · have hleads : Leads fs false 40 [] [n] [n] :=
      leads_root hn hsize hdir (fun hf => absurd hf Bool.false_ne_true)
    rw [locate_root hn hsize hleads, Except.ok.injEq, Found.mk.injEq] at hloc
    exact hdir hloc.2
  · rw [htext n hn]
    omega
  · have hstamp : IsName (Stamp.name n 0) := isName_stamp hn.noSlash hn.noNull 0
    have hplace : Path.stamped (fs.absolute (Path.parent ⟨"/", [n]⟩)) n 0 =
        ⟨"/", [Stamp.name n 0]⟩ := by
      rw [absolute_eq_withoutDots fs rfl, Path.stamped, Path.child_of_isName _ hstamp]
      rfl
    have hsize' := Stamp.utf8ByteSize_name n (show 0 < 10 ^ 8 by decide)
    rw [show Path.name ⟨"/", [n]⟩ = n from rfl, hplace, htext _ hstamp]
    omega

/-- An empty file system admits a file whose name has 242 bytes, and it cannot be
    written. -/
theorem not_replace_admitted : ¬ ∀ (fs : FileSystem) (p : Path) (data : ByteArray),
    fs.Admits p → p.name.utf8ByteSize ≤ 255 → ∃ done, fs.replace p data = (done, .ok ()) := by
  intro hall
  have hn : IsName (letters 238 ++ ".sql") := isName_letters (by decide) (by decide) (by decide)
  have hsize : (letters 238 ++ ".sql").utf8ByteSize = 242 := by
    rw [utf8ByteSize_letters]
    rfl
  have hadmits : Admits ⟨[], []⟩ ⟨"/", [letters 238 ++ ".sql"]⟩ :=
    admits_root (by decide) hn (by omega) (Option.some_ne_none _).symm (by decide)
  have hname : Path.name ⟨"/", [letters 238 ++ ".sql"]⟩ = letters 238 ++ ".sql" := rfl
  have hdone := hall _ _ .empty hadmits (by rw [hname]; omega)
  have hroom := ((exists_replace_iff hadmits).mp hdone).2.stamp
  rw [hname] at hroom
  omega

/-- The output of a tree of one query is written. -/
theorem replace_iff_room_oneQuery :
    (∃ done, oneQuery.replace ⟨"/", ["answer.sql"]⟩ (outputBytes "" "select 42") =
      (done, .ok ())) ∧
    (∃ status, (oneQuery.write "" ⟨"/", ["answer.sql"]⟩ "select 42").2 = .ok status) ∧
    ("answer.sql").utf8ByteSize ≤ (baseName "answer.sql.tmpl").utf8ByteSize := by
  have hadmits : oneQuery.Admits ⟨"/", ["answer.sql"]⟩ :=
    admits_root (by decide) (by decide) (by decide) (Option.some_ne_none _).symm (by decide)
  rcases replace_iff_room hadmits (outputBytes "" "select 42") (fun _ => directoryMode) ""
    "select 42" with ⟨hreplace, hwrite, hlinks, hnames⟩
  have hdone := (hlinks linkFree_oneQuery rfl).mpr (by decide)
  have hnone : oneQuery.exists? ⟨"/", ["answer.sql"]⟩ = .ok false :=
    exists?_free_root (by decide) (by decide) rfl
  refine ⟨hdone, hwrite.mpr (Or.inr ⟨Or.inl hnone, (hreplace.mp hdone).2⟩), ?_⟩
  refine hnames oneQuery ⟨"/", []⟩ (extensionConfig "sql") _ _ (by decide) (catalog_oneQuery "sql")
    answer ?_ ?_ (by decide)
  · rw [isSingle_oneQuery.queries]
    exact List.mem_cons_self
  · decide

end FileSystem

end Stencil
