import Stencil.Proofs.FileSystem.Null
import Stencil.Proofs.FileSystem.Proper

/-!
# Paths Spelled Out

An absolute path is looked up by the components that it lists.

A path is looked up by its text, which is split into components again. What
comes out are the components that went in, provided that each of them is a
piece: not empty, and without a slash. Reading a path makes pieces, and so does
taking the links out of one, so this holds of every path that a build makes.

Where such a path ends is a matter of its last component. If it is a name, the
walk ends at an entry of that name; if it is one of the two components that
stand for directories, the walk ends at a directory, because all it passed
through on the way were directories.

## Main definitions

* `IsPiece`: A text that a path can list as a component.
* `Path.Spelled`: The path is absolute and lists pieces.
* `FileSystem.Solid`: All of a location's way consists of directories.

## Theorems

* `Path.Spelled.components_text`: Splitting the text gives the components.
* `Path.Spelled.child`: A path below a spelled one is spelled.
* `Path.ofString_text`: Reading what a path is written as gives the path.
* `FileSystem.spelled_of_canonical?`: Taking out the links spells a path.
* `FileSystem.Leads.ending`: A walk ends at its last component or a directory.
* `FileSystem.head?_of_locate`: Something that is no directory has the name of
  the path.
-/

namespace Stencil

/-- A text that a path can list as a component. -/
structure IsPiece (s : String) : Prop where
  /-- It is not empty. -/
  ne_empty : s ≠ ""
  /-- It is not the dot, which says nothing. -/
  ne_dot : s ≠ "."
  /-- It has no slash, which parts components. -/
  noSlash : '/' ∉ s.toList

theorem IsName.isPiece {s : String} (h : IsName s) : IsPiece s :=
  ⟨h.ne_empty, h.ne_dot, h.noSlash⟩

/-- What a walk takes a text apart into are pieces, and dots. -/
theorem FileSystem.isPiece_of_mem_components {s p : String} (h : p ∈ components s)
    (hdot : p ≠ ".") : IsPiece p := by
  rcases List.mem_filter.mp h with ⟨hmem, hne⟩
  exact ⟨bne_iff_ne.mp hne, hdot, Text.notMem_of_mem_splitOnChar hmem⟩

namespace Path

/-- The path is absolute and lists pieces. -/
structure Spelled (p : Path) : Prop where
  /-- The root is one of the two that there are. -/
  root : p.root = "/" ∨ p.root = "//"
  /-- The components are pieces. -/
  parts : ∀ part ∈ p.parts, IsPiece part

theorem isPiece_of_mem_ofString {s part : String} (h : part ∈ (ofString s).parts) :
    IsPiece part :=
  ⟨(ofString_parts s part h).1, (ofString_parts s part h).2,
    Text.notMem_of_mem_splitOnChar (List.mem_filter.mp h).1⟩

theorem Spelled.isAbsolute {p : Path} (h : p.Spelled) : p.isAbsolute = true := by
  rw [Path.isAbsolute, bne_iff_ne]
  rcases h.root with heq | heq
  · rw [heq]
    decide
  · rw [heq]
    decide

theorem Spelled.parent {p : Path} (h : p.Spelled) : p.parent.Spelled :=
  ⟨h.root, fun part hpart => h.parts part ((List.dropLast_sublist p.parts).mem hpart)⟩

/-- A path that is read below a spelled one is spelled, be it absolute or not. -/
theorem Spelled.join {p : Path} (h : p.Spelled) (s : String) : (p.join (ofString s)).Spelled := by
  by_cases habs : (ofString s).isAbsolute = true
  · rw [join_of_isAbsolute habs]
    refine ⟨?_, fun part hpart => isPiece_of_mem_ofString hpart⟩
    rw [Path.isAbsolute, bne_iff_ne] at habs
    exact (root_ofString s).resolve_left habs
  · rw [Path.join, if_neg habs]
    refine ⟨h.root, fun part hpart => ?_⟩
    rcases List.mem_append.mp hpart with hpart | hpart
    · exact h.parts part hpart
    · exact isPiece_of_mem_ofString hpart

theorem Spelled.child {p : Path} (h : p.Spelled) (s : String) : (p.child s).Spelled :=
  h.join s

theorem Spelled.slash_notMem_name {p : Path} (h : p.Spelled) : '/' ∉ p.name.toList := by
  rw [name, List.getLastD_eq_getLast?]
  rcases hlast : p.parts.getLast? with _ | part
  · rw [Option.getD_none]
    decide
  · rw [Option.getD_some]
    exact (h.parts part (List.mem_of_getLast? hlast)).noSlash

theorem Spelled.text_eq {p : Path} (h : p.Spelled) :
    p.text = p.root ++ Text.joinStrings "/" p.parts := by
  have hroot : p.root.isEmpty = false := by
    rw [Bool.eq_false_iff, ne_eq, String.isEmpty_iff]
    exact bne_iff_ne.mp h.isAbsolute
  rw [text, hroot, Bool.false_and, if_neg Bool.false_ne_true]

/-- A slash before a text is nothing to a walk. -/
theorem components_slash (s : String) :
    FileSystem.components ("/" ++ s) = FileSystem.components s := by
  have hsplit : Text.splitOnChar '/' ("/" ++ s) = "" :: Text.splitOnChar '/' s :=
    Text.splitOnChar_append (s := "") (by decide) s
  rw [FileSystem.components, FileSystem.components, hsplit, List.filter_cons_of_neg (by decide)]

/-- Pieces that were joined are the components of the text. -/
theorem components_joinStrings {parts : List String} (h : ∀ p ∈ parts, IsPiece p) :
    FileSystem.components (Text.joinStrings "/" parts) = parts := by
  cases parts with
  | nil => decide
  | cons p ps =>
      rw [FileSystem.components, show ("/" : String) = String.ofList ['/'] from rfl,
        Text.splitOnChar_joinStrings '/' (List.cons_ne_nil p ps) (fun q hq => (h q hq).noSlash)]
      exact List.filter_eq_self.mpr (fun q hq => bne_iff_ne.mpr (h q hq).ne_empty)

theorem rootOf_of_head? {s : String} {c : Char} (h : s.toList.head? = some c)
    (hc : c ≠ '/') : rootOf s = "" := by
  rw [List.head?_eq_some_iff] at h
  rcases h with ⟨cs, hcs⟩
  rw [rootOf, hcs]
  split
  · next heq => exact absurd (List.cons.inj heq).1 hc
  · next heq => exact absurd (List.cons.inj heq).1 hc
  · next heq => exact absurd (List.cons.inj heq).1 hc
  · rfl

/-- Pieces that were joined do not start at the root. -/
theorem head?_joinStrings {parts : List String} (hne : parts ≠ [])
    (h : ∀ p ∈ parts, IsPiece p) :
    ∃ c, (Text.joinStrings "/" parts).toList.head? = some c ∧ c ≠ '/' := by
  cases parts with
  | nil => exact absurd rfl hne
  | cons p ps =>
      have hp := h p List.mem_cons_self
      rcases hchars : p.toList with _ | ⟨c, cs⟩
      · exact absurd (String.toList_eq_nil_iff.mp hchars) hp.ne_empty
      · refine ⟨c, ?_, fun heq => hp.noSlash ?_⟩
        · cases ps with
          | nil => rw [Text.joinStrings, hchars, List.head?_cons]
          | cons q qs =>
              rw [Text.joinStrings, String.toList_append, String.toList_append, hchars,
                List.cons_append, List.cons_append, List.head?_cons]
        · rw [hchars, heq]
          exact List.mem_cons_self

theorem filter_isProper {parts : List String} (h : ∀ p ∈ parts, IsPiece p) :
    parts.filter isProper = parts := by
  refine List.filter_eq_self.mpr (fun p hp => ?_)
  simp only [isProper, Bool.and_eq_true, bne_iff_ne, ne_eq]
  exact ⟨(h p hp).ne_empty, (h p hp).ne_dot⟩

/-- Pieces make a relative path that lists them. -/
theorem ofString_joinStrings {parts : List String} (hne : parts ≠ [])
    (h : ∀ p ∈ parts, IsPiece p) : ofString (Text.joinStrings "/" parts) = ⟨"", parts⟩ := by
  rcases head?_joinStrings hne h with ⟨c, hc, hslash⟩
  rw [ofString, rootOf_of_head? hc hslash, show ("/" : String) = String.ofList ['/'] from rfl,
    Text.splitOnChar_joinStrings '/' hne (fun p hp => (h p hp).noSlash), filter_isProper h]

/-- Slashes before a text that has none at its start are its root. -/
theorem rootOf_append {root s : String} (hroot : root = "/" ∨ root = "//")
    (hs : s.toList.head? ≠ some '/') : rootOf (root ++ s) = root := by
  rcases hchars : s.toList with _ | ⟨c, cs⟩
  · rcases hroot with rfl | rfl
    · rw [rootOf, String.toList_append, hchars]
      rfl
    · rw [rootOf, String.toList_append, hchars]
      rfl
  · have hc : c ≠ '/' := fun heq => hs (by rw [hchars, heq, List.head?_cons])
    rcases hroot with rfl | rfl
    · have hlist : ("/" ++ s).toList = '/' :: c :: cs := by
        rw [String.toList_append, hchars]
        rfl
      rw [rootOf, hlist]
      split
      · rfl
      · next heq => exact absurd (List.cons.inj (List.cons.inj heq).2).1 hc
      · rfl
      · next hone => exact absurd rfl (hone _)
    · have hlist : ("//" ++ s).toList = '/' :: '/' :: c :: cs := by
        rw [String.toList_append, hchars]
        rfl
      rw [rootOf, hlist]
      split
      · next heq => exact absurd (List.cons.inj (List.cons.inj (List.cons.inj heq).2).2).1 hc
      · rfl
      · next hone heq => exact absurd (List.cons.inj heq).2.symm (hone _)
      · next hone => exact absurd rfl (hone _)

/-- Slashes are not proper components. -/
theorem filter_splitOnChar_root {root : String} (hroot : root = "/" ∨ root = "//") (s : String) :
    (Text.splitOnChar '/' (root ++ s)).filter isProper =
      (Text.splitOnChar '/' s).filter isProper := by
  have hone : ∀ t, (Text.splitOnChar '/' ("/" ++ t)).filter isProper =
      (Text.splitOnChar '/' t).filter isProper := by
    intro t
    have hsplit : Text.splitOnChar '/' ("/" ++ t) = "" :: Text.splitOnChar '/' t :=
      Text.splitOnChar_append (s := "") (by decide) t
    rw [hsplit, List.filter_cons_of_neg (by decide)]
  rcases hroot with rfl | rfl
  · exact hone s
  · rw [show ("//" : String) = "/" ++ "/" from rfl, String.append_assoc, hone, hone]

/-- Slashes before pieces are the root of the path. -/
theorem ofString_root_append {root : String} (hroot : root = "/" ∨ root = "//")
    {parts : List String} (h : ∀ p ∈ parts, IsPiece p) :
    ofString (root ++ Text.joinStrings "/" parts) = ⟨root, parts⟩ := by
  by_cases hne : parts = []
  · rw [hne]
    rcases hroot with rfl | rfl
    · decide
    · decide
  · rcases head?_joinStrings hne h with ⟨c, hc, hslash⟩
    have hstart : (Text.joinStrings "/" parts).toList.head? ≠ some '/' := by
      rw [hc, ne_eq, Option.some.injEq]
      exact hslash
    rw [ofString, rootOf_append hroot hstart, filter_splitOnChar_root hroot]
    exact congrArg (Path.mk root) (congrArg Path.parts (ofString_joinStrings hne h))

/-- A path that was read is written as a text that reads as the path. -/
theorem ofString_text (s : String) : ofString (ofString s).text = ofString s := by
  have hparts : ∀ part ∈ (ofString s).parts, IsPiece part := fun _ => isPiece_of_mem_ofString
  rcases root_ofString s with hroot | hroot
  · by_cases hne : (ofString s).parts = []
    · rw [text, hroot, hne]
      exact congrArg₂ Path.mk hroot.symm hne.symm
    · have htext : (ofString s).text = Text.joinStrings "/" (ofString s).parts := by
        rw [text, hroot, List.isEmpty_eq_false_iff.mpr hne, Bool.and_false,
          if_neg Bool.false_ne_true, String.empty_append]
      rw [htext, ofString_joinStrings hne hparts]
      exact congrArg₂ Path.mk hroot.symm rfl
  · rw [Spelled.text_eq ⟨hroot, hparts⟩, ofString_root_append hroot hparts]

theorem Spelled.ofString_text {p : Path} (h : p.Spelled) : ofString p.text = p := by
  rw [h.text_eq, ofString_root_append h.root h.parts]

/-- A walk takes a path apart into the components that it lists. -/
theorem Spelled.components_text {p : Path} (h : p.Spelled) :
    FileSystem.components p.text = p.parts := by
  rw [h.text_eq]
  rcases h.root with heq | heq
  · rw [heq, components_slash, components_joinStrings h.parts]
  · rw [heq, show ("//" : String) = "/" ++ "/" from rfl, String.append_assoc, components_slash,
      components_slash, components_joinStrings h.parts]

/-- Different paths are written differently. -/
theorem Spelled.text_inj {p q : Path} (hp : p.Spelled) (hq : q.Spelled) (h : p.text = q.text) :
    p = q := by
  have hparts : p.parts = q.parts := by
    rw [← hp.components_text, h, hq.components_text]
  have hroot : p.root = q.root := by
    rwa [hp.text_eq, hq.text_eq, hparts, String.append_left_inj] at h
  exact congrArg₂ Path.mk hroot hparts

theorem Spelled.isRooted_text {p : Path} (h : p.Spelled) :
    FileSystem.isRooted p.text = true := by
  rw [h.text_eq]
  rcases h.root with heq | heq
  · rw [heq, FileSystem.isRooted, String.toList_append]
    rfl
  · rw [heq, FileSystem.isRooted, String.toList_append]
    rfl

end Path

namespace FileSystem

variable {fs : FileSystem}

/-- Components lead to names that stood there or are among them; the two that
    stand for directories leave none. -/
theorem mem_descend {n : String} (parts : List String) :
    ∀ dir : Location, n ∈ descend dir parts → n ∈ dir ∨ n ∈ parts ∧ n ≠ "." ∧ n ≠ ".." := by
  induction parts with
  | nil => intro dir h; exact Or.inl h
  | cons p ps ih =>
      intro dir h
      rw [descend, List.foldl_cons] at h
      rcases ih _ h with hmem | ⟨hmem, hne⟩
      · by_cases hdot : (p == ".") = true
        · rw [if_pos hdot] at hmem
          exact Or.inl hmem
        · rw [if_neg hdot] at hmem
          by_cases hdots : (p == "..") = true
          · rw [if_pos hdots] at hmem
            exact Or.inl (List.mem_of_mem_tail hmem)
          · rw [if_neg hdots] at hmem
            rcases List.mem_cons.mp hmem with rfl | hmem
            · rw [beq_iff_eq] at hdot hdots
              exact Or.inr ⟨List.mem_cons_self, hdot, hdots⟩
            · exact Or.inl hmem
      · exact Or.inr ⟨List.mem_cons_of_mem p hmem, hne⟩

/-- Taking links out leaves pieces: what the links hold is split as well. The
    induction is the one by which the walk ends: on the links that may still be
    followed, and for each number of them on the components. -/
theorem isPiece_of_mem_canonicalFrom (fs : FileSystem) (links : Nat) :
    ∀ (parts : List String) (active : List (Location × Nat)) (dir : Location),
      (∀ n ∈ dir, IsPiece n) → (∀ n ∈ parts, n ≠ "." → IsPiece n) →
        ∀ n ∈ (fs.canonicalFrom links active dir parts).2, IsPiece n := by
  induction links using Nat.strongRecOn with
  | ind links fewer =>
    intro parts
    induction parts with
    | nil =>
        intro active dir hdir _
        rwa [canonicalFrom]
    | cons p ps ih =>
        intro active dir hdir hparts
        have hps : ∀ n ∈ ps, n ≠ "." → IsPiece n :=
          fun n hn => hparts n (List.mem_cons_of_mem p hn)
        have henter : p ≠ "." → ∀ n ∈ p :: dir, IsPiece n := by
          intro hp n hn
          rcases List.mem_cons.mp hn with rfl | hn
          · exact hparts _ List.mem_cons_self hp
          · exact hdir n hn
        have hkeep : p ≠ "." → ∀ n ∈ descend (p :: dir) ps, IsPiece n := by
          intro hp n hn
          rcases mem_descend ps (p :: dir) hn with hn | ⟨hn, hne, _⟩
          · exact henter hp n hn
          · exact hps n hn hne
        rw [canonicalFrom]
        simp only []
        generalize active.filter (fun a => decide (a.2 ≤ (p :: ps).length)) = active'
        by_cases hdot : (p == ".") = true
        · rw [if_pos hdot]
          exact ih active' dir hdir hps
        rw [if_neg hdot]
        rw [beq_iff_eq] at hdot
        by_cases hdots : (p == "..") = true
        · rw [if_pos hdots]
          exact ih active' dir.tail (fun n hn => hdir n (List.mem_of_mem_tail hn)) hps
        rw [if_neg hdots]
        rcases fs.find? (p :: dir) with _ | entry
        · exact ih active' (p :: dir) (henter hdot) hps
        cases entry with
        | directory => exact ih active' (p :: dir) (henter hdot) hps
        | file data mode => exact ih active' (p :: dir) (henter hdot) hps
        | link target =>
            cases links with
            | zero => exact hkeep hdot
            | succ n =>
                simp only []
                by_cases hactive : (active'.any fun a => a.1 == p :: dir) = true
                · rw [if_pos hactive]
                  exact hkeep hdot
                · rw [if_neg hactive]
                  -- What the link holds is put before the rest, and one link less is left to
                  -- follow.
                  refine fewer n (Nat.lt_succ_self n) _ _ _ (fun m hm => ?_) (fun m hm hne => ?_)
                  · by_cases hrooted : isRooted target = true
                    · rw [if_pos hrooted] at hm
                      exact absurd hm List.not_mem_nil
                    · rw [if_neg hrooted] at hm
                      exact hdir m hm
                  · rcases List.mem_append.mp hm with hm | hm
                    · exact isPiece_of_mem_components hm hne
                    · exact hps m hm hne

/-- A path is spelled once its links have been taken out. -/
theorem spelled_of_canonical? (h : fs.Proper) {p real : Path}
    (hreal : fs.canonical? p = some real) : real.Spelled := by
  have hstart : ∀ n ∈ (if p.isAbsolute = true then [] else fs.here), IsPiece n := by
    intro n hn
    by_cases habs : p.isAbsolute = true
    · rw [if_pos habs] at hn
      exact absurd hn List.not_mem_nil
    · rw [if_neg habs] at hn
      exact (h.here n hn).isPiece
  have hpieces := isPiece_of_mem_canonicalFrom fs (fs.entries.length * 40 + 40)
    (components p.text) [] _ hstart (fun n hn => isPiece_of_mem_components hn)
  rw [canonical?] at hreal
  generalize fs.canonicalFrom _ _ _ _ = walked at hreal hpieces
  rcases walked with ⟨fine, loc⟩
  simp only [] at hreal
  -- Whether or not the links form a loop, the path is the one of the location.
  have hloc : pathOf loc = real := by
    by_cases hfine : fine = true
    · rwa [if_pos hfine, Option.some.injEq] at hreal
    · rw [if_neg hfine] at hreal
      rcases hstatus : fs.status (pathOf loc) with f | found
      · simp only [hstatus] at hreal
        by_cases hloop : (f.cause == .tooManyLinks) = true
        · rw [if_pos hloop] at hreal
          exact absurd hreal (Option.some_ne_none _).symm
        · rwa [if_neg hloop, Option.some.injEq] at hreal
      · simpa only [hstatus, Option.some.injEq] using hreal
  rw [← hloc]
  exact ⟨Or.inl rfl, fun part hpart => hpieces part (List.mem_reverse.mp hpart)⟩

/-- All of the way to a location consists of directories. -/
def Solid (fs : FileSystem) : Location → Prop
  | [] => True
  | n :: dir => fs.find? (n :: dir) = some .directory ∧ fs.Solid dir

theorem Solid.find? {loc : Location} (h : fs.Solid loc) : fs.find? loc = some .directory := by
  cases loc with
  | nil => exact find?_nil fs
  | cons n dir => exact h.1

theorem Solid.tail {loc : Location} (h : fs.Solid loc) : fs.Solid loc.tail := by
  cases loc with
  | nil => exact h
  | cons n dir => exact h.2

/-- A walk from a directory ends at an entry with the name of the last
    component, or it ends at a directory that it passed through. -/
theorem Leads.ending {links : Nat} {dir loc : Location} {parts : List String}
    (h : Leads fs false links dir parts loc) (hdir : fs.Solid dir) :
    fs.Solid loc ∨ loc.head? = parts.getLast? := by
  -- The last component is that of what is left, unless nothing is left.
  have hcons : ∀ (p : String) {ps : List String}, fs.Solid loc ∨ loc.head? = ps.getLast? →
      fs.Solid loc ∨ loc.head? = (p :: ps).getLast? := by
    intro p ps hps
    rcases hps with hsolid | hhead
    · exact Or.inl hsolid
    · cases ps with
      | nil =>
          rw [List.getLast?_nil, List.head?_eq_none_iff] at hhead
          rw [hhead]
          exact Or.inl trivial
      | cons q qs => exact Or.inr hhead
  induction h with
  | done => exact Or.inl hdir
  | dot rest ih => exact hcons "." (ih hdir hcons)
  | up rest ih => exact hcons ".." (ih hdir.tail hcons)
  | enter hp hentry rest ih => exact hcons _ (ih ⟨hentry, hdir⟩ hcons)
  | last hp hentry hlink => exact Or.inr rfl
  | @along links dir loc p target ps hp hentry hgo rest ih =>
      have hps : ps ≠ [] := hgo.resolve_right Bool.false_ne_true
      have hstart : fs.Solid (if isRooted target then [] else dir) := by
        by_cases hrooted : isRooted target = true
        · rw [if_pos hrooted]
          trivial
        · rw [if_neg hrooted]
          exact hdir
      have hend := ih hstart hcons
      rw [List.getLast?_append_of_ne_nil _ hps] at hend
      exact hcons p hend

/-- What a path leads to has the name of the path, unless it is a directory. -/
theorem head?_of_locate {p : Path} (hp : p.Spelled) {found : Found}
    (h : fs.locate p.text false = .ok found)
    (hentry : fs.find? found.location ≠ some .directory) :
    found.location.head? = some p.name := by
  have hwalk := (leads_of_walk (locate_eq_ok_iff.mp h).2.2.2).1
  rw [hp.isRooted_text, if_pos rfl, hp.components_text] at hwalk
  rcases hwalk.ending trivial with hsolid | hhead
  · exact absurd hsolid.find? hentry
  · rcases hloc : found.location with _ | ⟨n, dir⟩
    · rw [hloc] at hentry
      exact absurd (find?_nil fs) hentry
    · rw [hloc, List.head?_cons] at hhead
      rw [List.head?_cons, Path.name, List.getLastD_eq_getLast?, ← hhead, Option.getD_some]

end FileSystem

end Stencil
