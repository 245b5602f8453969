import Mathlib.Tactic.Cases
import Stencil.Output.Header
import Stencil.Proofs.Text.Split
import Stencil.Proofs.Text.Trim

/-!
# Headers Are Comments

What a header can do to the file that it stands in.

A header is any text, so it may break its lines in three ways, mix them, and
leave lines blank. All of that is gone once it is taken apart: its lines are
taken apart at each break, and the pieces that say something are the lines of
the header that say something, whichever break was written between them.
`Spells` says how a text is written from lines.

The comment and the body are told apart by the first blank line of the file.
No line of the comment is empty, since each has its mark, so the first blank
line is the one behind the comment, even if the body starts with line breaks.

## Main definitions

* `Header.IsRemark`: What stands behind the mark of a line of comment.
* `Header.remarks`: Those of the given lines that say something, trimmed.
* `Header.Spells`: The text is written from the lines.
* `Header.Parted`: A text comes apart into a block and a body at its first blank
  line.

## Theorems

* `Header.exists_spells`: Every text is written from lines.
* `Header.lines_of_spells`: How the lines are broken is forgotten.
* `Header.isRemark_of_mem_lines`: Each line of a header is a remark.
* `Header.filter_flatten_lines`: What is not blank stays, in its order.
* `Header.parted_joinWith`: Lines that are not empty end at the first blank line.
* `Header.apply_parts`: A header adds comments to a body, and nothing else.
-/

namespace Stencil

namespace Header

/-- What stands behind the mark of a line of comment. -/
structure IsRemark (text : List Char) : Prop where
  /-- It is not empty. -/
  ne_nil : text ≠ []
  /-- It has no blanks around it. -/
  trimmed : Text.trimChars text = text
  /-- It has no line feed. -/
  noFeed : '\n' ∉ text
  /-- It has no carriage return. -/
  noReturn : '\r' ∉ text

/-- Those of the given lines that say something, without blanks around them. -/
def remarks (ls : List (List Char)) : List (List Char) :=
  (ls.map Text.trimChars).filter (!·.isEmpty)

/-- The ways to break a line. -/
def lineBreaks : List (List Char) :=
  [['\n'], ['\r', '\n'], ['\r']]

/-- The text is written from the lines, with any break behind each but the
    last. -/
inductive Spells : List Char → List (List Char) → Prop
  /-- The last line has no break behind it. -/
  | last {line : List Char} (hfeed : '\n' ∉ line) (hreturn : '\r' ∉ line) : Spells line [line]
  /-- A line, a break and more lines. -/
  | more {line brk rest : List Char} {ls : List (List Char)} (hfeed : '\n' ∉ line)
      (hreturn : '\r' ∉ line) (hbrk : brk ∈ lineBreaks) (hrest : Spells rest ls) :
      Spells (line ++ brk ++ rest) (line :: ls)

/-- A text comes apart into a block and a body at its first blank line. -/
structure Parted (text block body : List Char) : Prop where
  /-- The two have an empty line between them. -/
  eq : text = block ++ '\n' :: '\n' :: body
  /-- There is no empty line before that. -/
  first : ∀ before after, text = before ++ '\n' :: '\n' :: after → block.length ≤ before.length

section Lines

theorem lines_eq (cs : List Char) :
    lines cs = remarks (Text.splitChars '\n' [] (cs.map asLineEnd)) :=
  rfl

theorem remarks_cons (l : List Char) (ls : List (List Char)) :
    remarks (l :: ls) = remarks [l] ++ remarks ls := by
  rw [remarks, remarks, remarks, ← List.filter_append, ← List.map_append, List.singleton_append]

/-- A line end parts what is before it from what is behind it. -/
theorem lines_append {c : Char} (hc : asLineEnd c = '\n') (cs rest : List Char) :
    lines (cs ++ c :: rest) = lines cs ++ lines rest := by
  rw [lines_eq, List.map_append, List.map_cons, hc, Text.splitChars_join, remarks, List.map_append,
    List.filter_append]
  rfl

theorem asLineEnd_of_ne {c : Char} (hc : c ≠ '\r') : asLineEnd c = c := by
  rw [asLineEnd, if_neg (mt beq_iff_eq.mp hc)]

/-- A text without line ends is one line. -/
theorem lines_of_notMem {line : List Char} (hfeed : '\n' ∉ line) (hreturn : '\r' ∉ line) :
    lines line = remarks [line] := by
  have hsame : line.map asLineEnd = line :=
    (List.map_congr_left fun c hc => asLineEnd_of_ne fun heq => hreturn (heq ▸ hc)).trans
      (List.map_id line)
  rw [lines_eq, hsame, Text.splitChars_of_not_mem hfeed]
  rfl

theorem lines_break {brk : List Char} (h : brk ∈ lineBreaks) (cs rest : List Char) :
    lines (cs ++ brk ++ rest) = lines cs ++ lines rest := by
  rw [lineBreaks, List.mem_cons, List.mem_cons, List.mem_singleton] at h
  rw [List.append_assoc]
  rcases h with rfl | rfl | rfl
  · exact lines_append rfl cs rest
  · -- the line between the two characters is empty
    have hempty : lines ('\n' :: rest) = lines rest := lines_append rfl [] rest
    exact (lines_append rfl cs ('\n' :: rest)).trans (by rw [hempty])
  · exact lines_append rfl cs rest

theorem lines_of_spells {cs : List Char} {ls : List (List Char)} (h : Spells cs ls) :
    lines cs = remarks ls := by
  induction h with
  | last hfeed hreturn => exact lines_of_notMem hfeed hreturn
  | more hfeed hreturn hbrk _ ih =>
      rw [lines_break hbrk, lines_of_notMem hfeed hreturn, ih, ← remarks_cons]

/-- A character that ends no line belongs to the first line. -/
theorem Spells.cons {c : Char} (hfeed : c ≠ '\n') (hreturn : c ≠ '\r') {cs : List Char}
    {ls : List (List Char)} (h : Spells cs ls) : ∃ ls', Spells (c :: cs) ls' := by
  cases h with
  | last hfeed' hreturn' =>
      exact ⟨_, .last (List.not_mem_cons_of_ne_of_not_mem hfeed.symm hfeed')
        (List.not_mem_cons_of_ne_of_not_mem hreturn.symm hreturn')⟩
  | more hfeed' hreturn' hbrk hrest =>
      exact ⟨_, .more (List.not_mem_cons_of_ne_of_not_mem hfeed.symm hfeed')
        (List.not_mem_cons_of_ne_of_not_mem hreturn.symm hreturn') hbrk hrest⟩

theorem exists_spells (cs : List Char) : ∃ ls, Spells cs ls := by
  induction cs with
  | nil => exact ⟨[[]], .last List.not_mem_nil List.not_mem_nil⟩
  | cons c cs ih =>
      rcases ih with ⟨ls, hls⟩
      have hbreak : ∀ brk ∈ lineBreaks, ∃ ls', Spells (brk ++ cs) ls' := fun brk hbrk =>
        ⟨[] :: ls, .more List.not_mem_nil List.not_mem_nil hbrk hls⟩
      by_cases hfeed : c = '\n'
      · exact hfeed ▸ hbreak ['\n'] (by decide)
      · by_cases hreturn : c = '\r'
        · exact hreturn ▸ hbreak ['\r'] (by decide)
        · exact hls.cons hfeed hreturn

theorem isRemark_of_mem_lines {cs l : List Char} (h : l ∈ lines cs) : IsRemark l := by
  rw [lines_eq, remarks, List.mem_filter, List.mem_map] at h
  rcases h with ⟨⟨piece, hpiece, rfl⟩, hne⟩
  -- Each carriage return has become a line feed, and none of those is left in a piece.
  have hreturn : '\r' ∉ piece := by
    intro hmem
    have hfrom := (Text.mem_splitChars (by decide) (cs.map asLineEnd) []).mp ⟨piece, hpiece, hmem⟩
    rcases hfrom with hnil | hmap
    · exact absurd hnil List.not_mem_nil
    · rcases List.mem_map.mp hmap with ⟨c, _, hc⟩
      by_cases hcr : c = '\r'
      · rw [hcr] at hc
        exact absurd hc (by decide)
      · exact hcr ((asLineEnd_of_ne hcr).symm.trans hc)
  have hfeed := Text.notMem_of_mem_splitChars _ [] List.not_mem_nil piece hpiece
  refine ⟨?_, Text.trimChars_trimChars piece, fun hc => hfeed (Text.mem_of_mem_trimChars hc),
    fun hc => hreturn (Text.mem_of_mem_trimChars hc)⟩
  intro hnil
  rw [hnil] at hne
  exact Bool.false_ne_true hne

/-- What is not blank in a header is in its lines, in the same order. -/
theorem filter_flatten_lines (cs : List Char) :
    (lines cs).flatten.filter (!Text.isBlank ·) = cs.filter (!Text.isBlank ·) := by
  have htrim : ∀ ls : List (List Char),
      (ls.map Text.trimChars).flatten.filter (!Text.isBlank ·) =
        ls.flatten.filter (!Text.isBlank ·) := by
    intro ls
    induction ls with
    | nil => rfl
    | cons l ls ih =>
        rw [List.map_cons, List.flatten_cons, List.flatten_cons, List.filter_append,
          List.filter_append, Text.filter_trimChars, ih]
  have hends : (cs.map asLineEnd).filter (!Text.isBlank ·) = cs.filter (!Text.isBlank ·) := by
    induction cs with
    | nil => rfl
    | cons c cs ih =>
        by_cases hc : c = '\r'
        · subst hc
          exact ih
        · rw [List.map_cons, asLineEnd_of_ne hc, List.filter_cons, List.filter_cons, ih]
  rw [lines_eq, remarks, List.flatten_filter_not_isEmpty, htrim,
    Text.filter_flatten_splitChars (by decide), List.reverse_nil, List.nil_append, hends]

/-- A header says nothing if all of it is blank. -/
theorem lines_eq_nil_iff (cs : List Char) :
    lines cs = [] ↔ ∀ c ∈ cs, Text.isBlank c = true := by
  have hkept := filter_flatten_lines cs
  constructor
  · intro hnil c hc
    rw [hnil, List.flatten_nil, List.filter_nil, eq_comm, List.filter_eq_nil_iff] at hkept
    have hnot := hkept c hc
    rwa [Bool.not_eq_true', Bool.not_eq_false] at hnot
  · intro hblank
    have hnone : cs.filter (!Text.isBlank ·) = [] := by
      rw [List.filter_eq_nil_iff]
      intro c hc
      rw [hblank c hc]
      exact Bool.false_ne_true
    rw [hnone, List.filter_eq_nil_iff] at hkept
    rcases hlines : lines cs with _ | ⟨l, ls⟩
    · rfl
    · -- a line would start with a character that is not blank
      have hl : l ∈ lines cs := hlines ▸ List.mem_cons_self
      have hremark := isRemark_of_mem_lines hl
      rcases l with _ | ⟨c, l⟩
      · exact absurd rfl hremark.ne_nil
      · have hmem : c ∈ (lines cs).flatten := List.mem_flatten.mpr ⟨_, hl, List.mem_cons_self⟩
        have hc := hkept c hmem
        rw [Text.head_of_trimChars hremark.trimmed] at hc
        exact absurd rfl hc

end Lines

section Block

variable {written : List (List Char)}

/-- A line is over before the first break. -/
theorem length_le_of_break {row rest before after : List Char} (hrow : '\n' ∉ row)
    (h : row ++ rest = before ++ '\n' :: after) : row.length ≤ before.length := by
  by_contra hlt
  have hmem : (row ++ rest)[before.length]? = some '\n' := by
    rw [h, List.getElem?_append_right (Nat.le_refl _), Nat.sub_self, List.getElem?_cons_zero]
  rw [List.getElem?_append_left (Nat.lt_of_not_le hlt)] at hmem
  exact hrow (List.mem_of_getElem? hmem)

theorem exists_joinWith_cons (sep p : List Char) (ps : List (List Char)) :
    ∃ more, Text.joinWith sep (p :: ps) = p ++ more := by
  rcases ps with _ | ⟨q, ps⟩
  · exact ⟨[], (List.append_nil p).symm⟩
  · exact ⟨sep ++ Text.joinWith sep (q :: ps), by rw [Text.joinWith, List.append_assoc]⟩

/-- Lines that are not empty have no empty line before their end. -/
theorem length_joinWith_le (hne : ∀ row ∈ written, row ≠ []) (hfeed : ∀ row ∈ written, '\n' ∉ row)
    {rest : List Char} : ∀ {before after : List Char},
    Text.joinWith ['\n'] written ++ rest = before ++ '\n' :: '\n' :: after →
      (Text.joinWith ['\n'] written).length ≤ before.length := by
  induction written with
  | nil => exact fun _ => Nat.zero_le _
  | cons row rows ih =>
      intro before after h
      have hrow := hfeed row List.mem_cons_self
      rcases rows with _ | ⟨next, rows⟩
      · exact length_le_of_break hrow h
      · rw [Text.joinWith, List.append_assoc, List.append_assoc, List.singleton_append] at h
        -- the whole row stands before the empty line
        rcases List.prefix_of_prefix_length_le ⟨_, h⟩ ⟨_, rfl⟩ (length_le_of_break hrow h) with
          ⟨mid, rfl⟩
        rw [List.append_assoc, List.append_cancel_left_eq] at h
        rcases mid with _ | ⟨c, mid⟩
        · -- the next row would be the empty line
          rw [List.nil_append, List.cons.injEq] at h
          rcases exists_joinWith_cons ['\n'] next rows with ⟨more, hmore⟩
          rw [hmore, List.append_assoc] at h
          have hmem : next ∈ row :: next :: rows := List.mem_cons_of_mem row List.mem_cons_self
          have hnext : next.length ≤ [].length := length_le_of_break (hfeed next hmem) h.2
          exact absurd (List.length_eq_zero_iff.mp (Nat.le_zero.mp hnext)) (hne next hmem)
        · rw [List.cons_append, List.cons.injEq] at h
          have hlen := ih (fun r hr => hne r (List.mem_cons_of_mem row hr))
            (fun r hr => hfeed r (List.mem_cons_of_mem row hr)) h.2
          simp only [Text.joinWith, List.length_append, List.length_cons, List.length_nil]
          omega

/-- A text that starts with lines that are not empty, and goes on with an empty
    one, comes apart at that. -/
theorem parted_joinWith (hne : ∀ row ∈ written, row ≠ []) (hfeed : ∀ row ∈ written, '\n' ∉ row)
    (body : List Char) :
    Parted (Text.joinWith ['\n'] written ++ '\n' :: '\n' :: body)
      (Text.joinWith ['\n'] written) body :=
  ⟨rfl, fun _ _ h => length_joinWith_le hne hfeed h⟩

end Block

section Apply

variable {header : String}

/-- The lines of the comment. -/
def rows (header : String) : List (List Char) :=
  (lines header.toList).map (mark ++ ·)

theorem toList_comment (header : String) :
    (comment header).toList = Text.joinWith ['\n'] (rows header) :=
  String.toList_ofList

theorem ne_nil_of_mem_rows {row : List Char} (h : row ∈ rows header) : row ≠ [] := by
  rcases List.mem_map.mp h with ⟨l, _, rfl⟩
  exact List.cons_ne_nil _ _

theorem feed_notMem_of_mem_rows {row : List Char} (h : row ∈ rows header) : '\n' ∉ row := by
  rcases List.mem_map.mp h with ⟨l, hl, rfl⟩
  rw [List.mem_append, not_or]
  exact ⟨by decide, (isRemark_of_mem_lines hl).noFeed⟩

/-- The comment of a header that says something is read line by line. -/
theorem splitChars_comment (h : lines header.toList ≠ []) :
    Text.splitChars '\n' [] (comment header).toList = rows header := by
  rw [toList_comment]
  exact Text.splitChars_joinWith '\n' (mt List.map_eq_nil_iff.mp h)
    fun _ hrow => feed_notMem_of_mem_rows hrow

theorem comment_ne_empty (h : lines header.toList ≠ []) : ¬ (comment header).isEmpty = true := by
  intro hempty
  rcases hlines : lines header.toList with _ | ⟨l, ls⟩
  · exact h hlines
  · have hnil : (comment header).toList = [] := by
      rw [String.isEmpty_iff.mp hempty, String.toList_empty]
    rcases exists_joinWith_cons ['\n'] (mark ++ l) (ls.map (mark ++ ·)) with ⟨more, hmore⟩
    rw [toList_comment, rows, hlines, List.map_cons, hmore] at hnil
    exact absurd hnil (List.cons_ne_nil _ _)

theorem toList_apply (h : lines header.toList ≠ []) (body : String) :
    (apply header body).toList = (comment header).toList ++ '\n' :: '\n' :: body.toList := by
  rw [apply, if_neg (comment_ne_empty h), String.toList_append, String.toList_append,
    List.append_assoc]
  rfl

/-- Files with the same body are the same if and only if the headers have the
    same lines. -/
theorem apply_eq_iff (header other body : String) :
    apply header body = apply other body ↔ lines header.toList = lines other.toList := by
  constructor
  · intro h
    have hlist := congrArg String.toList h
    by_cases hh : lines header.toList = []
    · by_cases ho : lines other.toList = []
      · rw [hh, ho]
      · -- A file with a comment is longer than its body.
        rw [apply_of_lines_eq_nil hh, toList_apply ho] at hlist
        have hlen := congrArg List.length hlist
        simp only [List.length_append, List.length_cons] at hlen
        omega
    · by_cases ho : lines other.toList = []
      · rw [apply_of_lines_eq_nil ho, toList_apply hh] at hlist
        have hlen := congrArg List.length hlist
        simp only [List.length_append, List.length_cons] at hlen
        omega
      · rw [toList_apply hh, toList_apply ho, List.append_cancel_right_eq] at hlist
        have hrows : rows header = rows other := by
          rw [← splitChars_comment hh, ← splitChars_comment ho, hlist]
        exact List.map_injective_iff.mpr (fun _ _ => List.append_cancel_left) hrows
  · intro h
    rw [apply, apply, comment, comment, h]

/-- Only the lines of a header that say something matter, and they stand before
    the body as comments. -/
theorem apply_parts (header body : String) :
    ((∀ c ∈ header.toList, Text.isBlank c = true) → apply header body = body) ∧
    ((∃ c ∈ header.toList, Text.isBlank c = false) →
      ∃ block, Parted (apply header body).toList block body.toList ∧
        ∀ row ∈ Text.splitChars '\n' [] block, ∃ text, row = ['-', '-', ' '] ++ text ∧
          IsRemark text) ∧
    (∃ ls, Spells header.toList ls) ∧
    ∀ other ls ls', Spells header.toList ls → Spells other.toList ls' →
      (apply header body = apply other body ↔ remarks ls = remarks ls') := by
  refine ⟨fun hblank => apply_of_lines_eq_nil ((lines_eq_nil_iff _).mpr hblank) body, ?_,
    exists_spells _, ?_⟩
  · rintro ⟨c, hc, hvisible⟩
    have hlines : lines header.toList ≠ [] := by
      intro hnil
      rw [(lines_eq_nil_iff _).mp hnil c hc] at hvisible
      exact Bool.false_ne_true hvisible.symm
    refine ⟨(comment header).toList, ?_, ?_⟩
    · rw [toList_apply hlines, toList_comment]
      exact parted_joinWith (fun _ hrow => ne_nil_of_mem_rows hrow)
        (fun _ hrow => feed_notMem_of_mem_rows hrow) _
    · intro row hrow
      rw [splitChars_comment hlines] at hrow
      rcases List.mem_map.mp hrow with ⟨l, hl, rfl⟩
      exact ⟨l, rfl, isRemark_of_mem_lines hl⟩
  · intro other ls ls' hls hls'
    rw [apply_eq_iff, lines_of_spells hls, lines_of_spells hls']

example : apply "custom header\r\n\n  and another line  " "\n\nSELECT 1;\n" =
    "-- custom header\n-- and another line\n\n\n\nSELECT 1;\n" := by
  decide +kernel

end Apply

end Header

end Stencil
