import Stencil.Proofs.Build.Succeeded
import Stencil.Proofs.Render.Conflict

/-!
# Looking Up Outputs

What the query of an output is found by, and when it is missed.

The index lists outputs by the paths that they are written to, as these come
from the root and the configuration: nobody has followed a link in them or
resolved a double dot. The path that is asked for is looked up twice, first
where it leads and then as it is. `Traces` is the outcome in full.

So an output is found under its own path, unless that path leads to another
output, which is listed first; and it is not found under the path it leads to,
unless that is its own. Both come to nothing if the way to the output is clear:
there are no links and no double dots on it. Then every spelling finds its
query.

## Main definitions

* `Graph.Traces`: What comes of looking up an output.
* `Path.SpelledBy`: A text that may be given for an output.
* `FileSystem.Clear`: There is no link on the way to a location.

## Theorems

* `Graph.lookup_outputIndex`: What the index lists.
* `Graph.queryForOutput_eq_iff`: What comes of looking up an output.
* `FileSystem.canonical?_of_clear`: A path with a clear way leads to itself.
* `Graph.queryForOutput_spelled`: Which spellings find the query of an output.
* `Graph.not_queryForOutput_spelled`: Not all of them do.
-/

namespace Stencil

/-- A text that may be given for a path below a root. -/
inductive Path.SpelledBy (fs : FileSystem) (p root : Path) : String → Prop where
  /-- It is the path itself. -/
  | whole : SpelledBy fs p root p.text
  /-- It is the path relative to the root. -/
  | below {rest : List String} (h : p = ⟨root.root, root.parts ++ rest⟩) :
      SpelledBy fs p root (Path.text ⟨"", rest⟩)
  /-- It is where the path leads. -/
  | real {real : Path} (h : fs.canonical? p = some real) : SpelledBy fs p root real.text

/-- Whichever text is given, it names the path or where it leads. -/
theorem Path.SpelledBy.child_eq {fs : FileSystem} (hfs : fs.Proper) {root p : Path}
    (hp : p.Spelled) {s : String} (h : p.SpelledBy fs root s) :
    root.child s = p ∨ fs.canonical? p = some (root.child s) := by
  have hself : ∀ q : Path, q.Spelled → root.child q.text = q := by
    intro q hq
    rw [child, hq.ofString_text, join_of_isAbsolute hq.isAbsolute]
  cases h with
  | whole => exact Or.inl (hself p hp)
  | @below rest h =>
      left
      -- The components are those of a path, so they are read as they were written.
      have hrest : ∀ part ∈ rest, IsPiece part := by
        intro part hpart
        refine hp.parts part ?_
        rw [h]
        exact List.mem_append_right _ hpart
      have hread : ofString (text ⟨"", rest⟩) = ⟨"", rest⟩ := by
        by_cases hnil : rest = []
        · rw [hnil]
          rfl
        · have htext : text ⟨"", rest⟩ = Text.joinStrings "/" rest := by
            rw [text, List.isEmpty_eq_false_iff.mpr hnil, Bool.and_false,
              if_neg Bool.false_ne_true, String.empty_append]
          rw [htext, ofString_joinStrings hnil hrest]
      rw [child, hread, h]
      rfl
  | @real real h =>
      right
      rw [hself real (FileSystem.spelled_of_canonical? hfs h), h]

namespace FileSystem

/-- There is no link on the way to a location. -/
def Clear (fs : FileSystem) (loc : Location) : Prop :=
  ∀ above, above <:+ loc → ∀ target, fs.find? above ≠ some (.link target)

variable {fs : FileSystem}

theorem Clear.of_suffix {loc above : Location} (h : fs.Clear loc) (habove : above <:+ loc) :
    fs.Clear above :=
  fun a ha => h a (ha.trans habove)

/-- Components with a clear way lead where they say. -/
theorem canonicalFrom_of_clear (links : Nat) (parts : List String) : ∀ active dir,
    (∀ p ∈ parts, p ≠ "." ∧ p ≠ "..") → fs.Clear (parts.reverse ++ dir) →
      fs.canonicalFrom links active dir parts = (true, parts.reverse ++ dir) := by
  induction parts with
  | nil =>
      intro active dir _ _
      rw [canonicalFrom]
      rfl
  | cons p ps ih =>
      intro active dir hparts hclear
      rcases hparts p List.mem_cons_self with ⟨hdot, hdots⟩
      rw [List.reverse_cons, List.append_assoc, List.singleton_append] at hclear ⊢
      have hrest := fun active' => ih active' (p :: dir)
        (fun q hq => hparts q (List.mem_cons_of_mem p hq)) hclear
      -- Whatever has the next name is no link, so the walk goes down to it.
      rw [canonicalFrom]
      simp only []
      rw [if_neg (fun h => hdot (eq_of_beq h)), if_neg (fun h => hdots (eq_of_beq h))]
      rcases hfind : fs.find? (p :: dir) with _ | entry
      · exact hrest _
      · cases entry with
        | directory => exact hrest _
        | file data mode => exact hrest _
        | link target => exact absurd hfind (hclear _ (List.suffix_append _ _) target)

/-- A path with a clear way leads to itself. -/
theorem canonical?_of_clear {p : Path} (hp : p.Spelled) (hroot : p.root = "/")
    (hdots : ".." ∉ p.parts) (hclear : fs.Clear p.parts.reverse) : fs.canonical? p = some p := by
  have hwalk := @canonicalFrom_of_clear fs (fs.entries.length * 40 + 40) p.parts [] []
    (fun q hq => ⟨(hp.parts q hq).ne_dot, fun heq => hdots (heq ▸ hq)⟩)
    (by rwa [List.append_nil])
  have hself : pathOf p.parts.reverse = p := by
    rw [pathOf, List.reverse_reverse, ← hroot]
  rw [canonical?, if_pos hp.isAbsolute, hp.components_text, hwalk]
  simp only [if_true, List.append_nil, hself]

end FileSystem

namespace Graph

/-- What comes of looking up an output. -/
inductive Traces (g : Graph) (fs : FileSystem) (config : Config) (output : String) :
    Except LookupError String → Prop where
  /-- No file can have the path. -/
  | null (h : nullChar ∈ output.toList) : Traces g fs config output (.error .badPath)
  /-- It leads into a loop of links. -/
  | loop (hnull : nullChar ∉ output.toList)
      (h : fs.canonical? (g.catalog.root.child output) = none) :
      Traces g fs config output (.error .linkLoop)
  /-- It leads to the path of an output. -/
  | leads {real : Path} {q : Source} (hnull : nullChar ∉ output.toList)
      (hreal : fs.canonical? (g.catalog.root.child output) = some real) (hq : q ∈ g.queries)
      (h : q.outputPath g.catalog.root config = real) : Traces g fs config output (.ok q.path)
  /-- It leads to no such path, but is one. -/
  | named {real : Path} {q : Source} (hnull : nullChar ∉ output.toList)
      (hreal : fs.canonical? (g.catalog.root.child output) = some real)
      (hother : ∀ q' ∈ g.queries, q'.outputPath g.catalog.root config ≠ real)
      (hq : q ∈ g.queries)
      (h : q.outputPath g.catalog.root config = g.catalog.root.child output) :
      Traces g fs config output (.ok q.path)
  /-- It leads to no such path and is none. -/
  | unknown {real : Path} (hnull : nullChar ∉ output.toList)
      (hreal : fs.canonical? (g.catalog.root.child output) = some real)
      (hother : ∀ q ∈ g.queries, q.outputPath g.catalog.root config ≠ real)
      (hnone : ∀ q ∈ g.queries, q.outputPath g.catalog.root config ≠
        g.catalog.root.child output) :
      Traces g fs config output (.error (.unknown (g.catalog.root.child output)))

section Map

variable {α β γ : Type} [BEq β] [LawfulBEq β] {f : α → β} {f' : α → γ} {as : List α}

/-- Where keys differ each finds its value. -/
theorem lookup_map_of_nodup (h : (as.map f).Nodup) {a : α} (ha : a ∈ as) :
    (as.map fun a => (f a, f' a)).lookup (f a) = some (f' a) := by
  have hkeys : (as.map fun a => (f a, f' a)).map Prod.fst = as.map f := List.map_map
  exact (lookup_eq_some_iff (hkeys ▸ h)).mpr (List.mem_map.mpr ⟨a, ha, rfl⟩)

/-- What is no key finds nothing. -/
theorem lookup_map_eq_none {b : β} (h : ∀ a ∈ as, f a ≠ b) :
    (as.map fun a => (f a, f' a)).lookup b = none := by
  rw [List.lookup_eq_none_iff]
  intro entry hentry
  rcases List.mem_map.mp hentry with ⟨a, ha, rfl⟩
  exact bne_iff_ne.mpr (h a ha).symm

end Map

section Index

variable {g : Graph} {fs : FileSystem} {config : Config}
  (h : (g.queries.map fun q => q.outputPath g.catalog.root config).Nodup)

include h

/-- The index lists every output with its query. -/
theorem lookup_outputIndex {q : Source} (hq : q ∈ g.queries) :
    (g.outputIndex config).lookup (q.outputPath g.catalog.root config) = some q.path := by
  rw [outputIndex_of_nodup h]
  exact lookup_map_of_nodup h hq

/-- It lists nothing else. -/
theorem lookup_outputIndex_eq_none {p : Path}
    (hother : ∀ q ∈ g.queries, q.outputPath g.catalog.root config ≠ p) :
    (g.outputIndex config).lookup p = none := by
  rw [outputIndex_of_nodup h]
  exact lookup_map_eq_none hother

/-- An outcome is what the look-up gives. -/
theorem Traces.queryForOutput_eq {output : String} {answer : Except LookupError String}
    (htraces : g.Traces fs config output answer) : g.queryForOutput fs config output = answer := by
  have hcontains : ∀ {cs : List Char}, nullChar ∉ cs → ¬ cs.contains (Char.ofNat 0) = true :=
    fun hnull hcontains => hnull (List.contains_iff_mem.mp hcontains)
  cases htraces with
  | null hnull =>
      rw [queryForOutput]
      exact if_pos (List.contains_iff_mem.mpr hnull)
  | loop hnull hloop => simp only [queryForOutput, if_neg (hcontains hnull), hloop]
  | leads hnull hreal hq hpath =>
      have hfirst := lookup_outputIndex h hq
      rw [hpath] at hfirst
      simp only [queryForOutput, if_neg (hcontains hnull), hreal, hfirst]
  | named hnull hreal hother hq hpath =>
      have hfirst := lookup_outputIndex_eq_none h hother
      have hsecond := lookup_outputIndex h hq
      rw [hpath] at hsecond
      simp only [queryForOutput, if_neg (hcontains hnull), hreal, hfirst, hsecond]
  | unknown hnull hreal hother hnone =>
      have hfirst := lookup_outputIndex_eq_none h hother
      have hsecond := lookup_outputIndex_eq_none h hnone
      simp only [queryForOutput, if_neg (hcontains hnull), hreal, hfirst, hsecond]

omit h in
/-- There is an outcome. -/
theorem exists_traces (output : String) : ∃ answer, g.Traces fs config output answer := by
  by_cases hnull : nullChar ∈ output.toList
  · exact ⟨_, .null hnull⟩
  · rcases hreal : fs.canonical? (g.catalog.root.child output) with _ | real
    · exact ⟨_, .loop hnull hreal⟩
    · by_cases hleads : ∃ q ∈ g.queries, q.outputPath g.catalog.root config = real
      · rcases hleads with ⟨q, hq, hpath⟩
        exact ⟨_, .leads hnull hreal hq hpath⟩
      · have hother : ∀ q ∈ g.queries, q.outputPath g.catalog.root config ≠ real :=
          fun q hq heq => hleads ⟨q, hq, heq⟩
        by_cases hnamed : ∃ q ∈ g.queries,
            q.outputPath g.catalog.root config = g.catalog.root.child output
        · rcases hnamed with ⟨q, hq, hpath⟩
          exact ⟨_, .named hnull hreal hother hq hpath⟩
        · exact ⟨_, .unknown hnull hreal hother (fun q hq heq => hnamed ⟨q, hq, heq⟩)⟩

/-- What comes of looking up an output. -/
theorem queryForOutput_eq_iff (output : String) (answer : Except LookupError String) :
    g.queryForOutput fs config output = answer ↔ g.Traces fs config output answer := by
  refine ⟨fun hanswer => ?_, fun htraces => htraces.queryForOutput_eq h⟩
  rcases @exists_traces g fs config output with ⟨answer', htraces⟩
  rwa [← hanswer, htraces.queryForOutput_eq h]

/-- An output is found under its own path unless that leads to another one. -/
theorem queryForOutput_eq_ok_iff {q : Source} (hq : q ∈ g.queries) {output : String}
    (houtput : g.catalog.root.child output = q.outputPath g.catalog.root config) :
    g.queryForOutput fs config output = .ok q.path ↔ nullChar ∉ output.toList ∧
      ∃ real, fs.canonical? (q.outputPath g.catalog.root config) = some real ∧
        ∀ q' ∈ g.queries, q'.outputPath g.catalog.root config = real → q'.path = q.path := by
  constructor
  · intro hanswer
    rcases @exists_traces g fs config output with ⟨answer, htraces⟩
    have hsame := (htraces.queryForOutput_eq h).symm.trans hanswer
    cases htraces with
    | null _ => cases hsame
    | loop _ _ => cases hsame
    | @leads real q' hnull hreal hq' hpath =>
        rw [houtput] at hreal
        refine ⟨hnull, real, hreal, fun q'' hq'' hpath' => ?_⟩
        rw [List.inj_on_of_nodup_map h hq'' hq' (hpath'.trans hpath.symm)]
        exact Except.ok.inj hsame
    | @named real q' hnull hreal hother _ _ =>
        rw [houtput] at hreal
        exact ⟨hnull, real, hreal, fun q'' hq'' hpath' => absurd hpath' (hother q'' hq'')⟩
    | unknown _ _ _ _ => cases hsame
  · rintro ⟨hnull, real, hreal, honly⟩
    rw [← houtput] at hreal
    -- The first look-up finds the query itself or nothing.
    by_cases hleads : ∃ q' ∈ g.queries, q'.outputPath g.catalog.root config = real
    · rcases hleads with ⟨q', hq', hpath⟩
      rw [← honly q' hq' hpath]
      exact (Traces.leads hnull hreal hq' hpath).queryForOutput_eq h
    · exact (Traces.named hnull hreal (fun q' hq' heq => hleads ⟨q', hq', heq⟩) hq
        houtput.symm).queryForOutput_eq h

/-- What is no output and leads to none is not found. -/
theorem watchPaths_eq_error {output : String}
    (hnone : ∀ q ∈ g.queries, q.outputPath g.catalog.root config ≠ g.catalog.root.child output ∧
      fs.canonical? (g.catalog.root.child output) ≠ some (q.outputPath g.catalog.root config)) :
    ∃ why, g.watchPaths fs config (some output) = .error why := by
  rcases @exists_traces g fs config output with ⟨answer, htraces⟩
  have hanswer := htraces.queryForOutput_eq h
  rw [watchPaths, hanswer]
  cases htraces with
  | null _ => exact ⟨_, rfl⟩
  | loop _ _ => exact ⟨_, rfl⟩
  | leads _ hreal hq hpath =>
      rw [← hpath] at hreal
      exact absurd hreal (hnone _ hq).2
  | named _ _ _ hq hpath => exact absurd hpath (hnone _ hq).1
  | unknown _ _ _ _ => exact ⟨_, rfl⟩

end Index

/-- Which spellings find the query of an output. Take a graph of a tree and a
    configuration without conflicts. The outcome of a look-up is known in full, and
    nothing is watched for what is no output and leads to none. A text that
    names an output by its own path finds it unless this path leads to another
    output or nowhere; the two texts for it that follow no link do name it so. If
    the path leads to itself then each of the three spellings finds the query, and
    so it is where no link and no double dot is on the way. -/
theorem queryForOutput_spelled {fs : FileSystem} {root : Path} {config₀ config₁ config : Config}
    {notes : Catalog.Notes} {c : Catalog} {g : Graph} {ts : List RenderTask} (hfs : fs.Proper)
    (hcatalog : Catalog.build fs root config₀ = (notes, .ok c))
    (hgraph : Graph.build c config₁ = .ok g) (hconfig : config.Accepted)
    (hts : g.tasks config = .ok ts) :
    (∀ output answer,
      g.queryForOutput fs config output = answer ↔ g.Traces fs config output answer) ∧
    (∀ output, (∀ q ∈ g.queries,
        q.outputPath g.catalog.root config ≠ g.catalog.root.child output ∧
        fs.canonical? (g.catalog.root.child output) ≠
          some (q.outputPath g.catalog.root config)) →
      ∃ why, g.watchPaths fs config (some output) = .error why) ∧
    ∀ q ∈ g.queries, ∀ p, p = q.outputPath g.catalog.root config →
      (∀ output, g.catalog.root.child output = p →
        (g.queryForOutput fs config output = .ok q.path ↔ nullChar ∉ output.toList ∧
          ∃ real, fs.canonical? p = some real ∧
            ∀ q' ∈ g.queries, q'.outputPath g.catalog.root config = real → q'.path = q.path)) ∧
      (∀ output, p.SpelledBy fs g.catalog.root output →
        g.catalog.root.child output = p ∨ fs.canonical? p = some (g.catalog.root.child output)) ∧
      (fs.canonical? p = some p → ∀ output, p.SpelledBy fs g.catalog.root output →
        nullChar ∉ output.toList → g.queryForOutput fs config output = .ok q.path) ∧
      (p.root = "/" → ".." ∉ p.parts → fs.Clear p.parts.reverse → fs.canonical? p = some p) := by
  rcases build_eq_ok_iff.mp hgraph with ⟨_, heq, hcycle⟩
  have hroot : g.catalog.root.Spelled := by
    rw [heq]
    exact (Catalog.spelled_of_build hfs hcatalog).1
  have hregular : g.catalog.Regular config₀ := by
    rw [heq]
    exact Catalog.regular_of_build hfs hcatalog
  -- Without a conflict the index lists each query once.
  have hplans := plans_of_tasks_eq_ok hregular hcycle hts
  have hdistinct := hplans.distinct
  rw [tasks_eq_ok hts, map_output_taskOf] at hdistinct
  refine ⟨fun output answer => queryForOutput_eq_iff hdistinct output answer,
    fun output hnone => watchPaths_eq_error hdistinct hnone, fun q hq p hp => ?_⟩
  have hspelled : p.Spelled := hp ▸ hconfig.spelled_outputPath hroot q
  refine ⟨fun output houtput => ?_, fun output hby => hby.child_eq hfs hspelled,
    fun hself output hby hnull => ?_,
    fun hslash hdots hclear => FileSystem.canonical?_of_clear hspelled hslash hdots hclear⟩
  · rw [hp] at houtput ⊢
    exact queryForOutput_eq_ok_iff hdistinct hq houtput
  · have hchild : g.catalog.root.child output = p := by
      rcases hby.child_eq hfs hspelled with hchild | hreal
      · exact hchild
      · exact (Option.some.inj (hself.symm.trans hreal)).symm
    refine (Traces.leads hnull (hchild ▸ hself) hq hp.symm).queryForOutput_eq hdistinct

/-- The one query of a tree is found however its output is spelled. -/
theorem queryForOutput_spelled_oneQuery : ∃ g ts,
    Graph.build ⟨⟨"/", []⟩, [answer]⟩ (extensionConfig "sql") = .ok g ∧
      g.tasks (extensionConfig "sql") = .ok ts ∧
      ∀ output ∈ ["/answer.sql", "answer.sql"],
        g.queryForOutput oneQuery (extensionConfig "sql") output = .ok "answer.sql.tmpl" := by
  have hgraph := @build_of_isFlat _ (extensionConfig "sql") isSingle_oneQuery.isFlat
  have houtput : (⟨"/", ["answer.sql"]⟩ : Path) =
      answer.outputPath ⟨"/", []⟩ (extensionConfig "sql") := by
    decide
  have hqueries : (ofCollected ⟨⟨"/", []⟩, [answer]⟩ (extensionConfig "sql")).queries = [answer] :=
    isSingle_oneQuery.queries
  have htasks := @tasks_of_nodup (ofCollected ⟨⟨"/", []⟩, [answer]⟩ (extensionConfig "sql"))
    (extensionConfig "sql") (hqueries ▸ List.nodup_singleton _)
  rcases queryForOutput_spelled (by decide) (catalog_oneQuery "sql") hgraph
    accepted_extensionConfig.1 htasks with ⟨_, _, hqueries⟩
  rcases hqueries answer List.mem_cons_self _ houtput with ⟨_, _, hfound, hself⟩
  have hclear : oneQuery.Clear ["answer.sql"] := fun above _ => linkFree_oneQuery above
  refine ⟨_, _, hgraph, htasks, fun output hmem => ?_⟩
  rcases List.mem_cons.mp hmem with rfl | hmem
  · exact hfound (hself rfl (by decide) hclear) _ .whole (by decide)
  · rw [List.mem_singleton.mp hmem]
    have hbelow := @Path.SpelledBy.below oneQuery ⟨"/", ["answer.sql"]⟩ ⟨"/", []⟩ ["answer.sql"] rfl
    exact hfound (hself rfl (by decide) hclear) _ hbelow (by decide)

end Graph

/-- A link beside the file that it holds the name of leads there. -/
theorem FileSystem.canonical?_link_root {fs : FileSystem} {n m : String} (hn : IsName n)
    (hm : IsName m) (hlink : fs.find? [n] = some (.link m)) {data : ByteArray} {mode : Nat}
    (hfind : fs.find? [m] = some (.file data mode)) :
    fs.canonical? ⟨"/", [n]⟩ = some ⟨"/", [m]⟩ := by
  have hparts : components m = [m] := by
    refine @Path.components_joinStrings [m] (fun part hpart => ?_)
    rw [List.mem_singleton.mp hpart]
    exact hm.isPiece
  have hwalk : ∀ links active, fs.canonicalFrom links active [] [m] = (true, [m]) := by
    intro links active
    rw [canonicalFrom]
    simp only [beq_eq_false_iff_ne.mpr hm.ne_dot, beq_eq_false_iff_ne.mpr hm.ne_dots, hfind,
      Bool.false_eq_true, if_false, canonicalFrom]
  have hfrom : ∀ links, fs.canonicalFrom (links + 1) [] [] [n] = (true, [m]) := by
    intro links
    rw [canonicalFrom]
    simp only [beq_eq_false_iff_ne.mpr hn.ne_dot, beq_eq_false_iff_ne.mpr hn.ne_dots, hlink,
      Bool.false_eq_true, if_false, List.filter_nil, List.any_nil, ite_self, hparts,
      List.append_nil, hwalk]
  rw [canonical?, if_pos (spelled_root hn).isAbsolute, (spelled_root hn).components_text, hfrom]
  rfl

/-- An output that is a link to another one is not found under its own path:
    the query of the other one is found. -/
theorem Graph.not_queryForOutput_spelled : ¬ ∀ (fs : FileSystem) (root : Path)
    (config₀ config₁ config : Config) (notes : Catalog.Notes) (c : Catalog) (g : Graph)
    (ts : List RenderTask), fs.Proper → Catalog.build fs root config₀ = (notes, .ok c) →
      Graph.build c config₁ = .ok g → config.Accepted → g.tasks config = .ok ts →
      ∀ q ∈ g.queries, ∀ output,
        (q.outputPath g.catalog.root config).SpelledBy fs g.catalog.root output →
          g.queryForOutput fs config output = .ok q.path := by
  intro hall
  have hgraph := @Graph.build_of_isFlat mirroredCatalog bareConfig isFlat_mirroredCatalog
  have hnodup : ((ofCollected mirroredCatalog bareConfig).queries.map fun q =>
      q.outputPath (ofCollected mirroredCatalog bareConfig).catalog.root bareConfig).Nodup := by
    rw [← map_output_taskOf]
    exact RenderTask.conflict?_eq_none_iff.mp conflict?_mirrored
  have houtput : (plainQuery "a.sql.tmpl" "select 1").outputPath
      (ofCollected mirroredCatalog bareConfig).catalog.root bareConfig = ⟨"/", ["a.sql"]⟩ := by
    decide
  have hother : (plainQuery "b.sql.tmpl" "select 2").outputPath
      (ofCollected mirroredCatalog bareConfig).catalog.root bareConfig = ⟨"/", ["b.sql"]⟩ := by
    decide
  have hspelled : ((plainQuery "a.sql.tmpl" "select 1").outputPath
      (ofCollected mirroredCatalog bareConfig).catalog.root bareConfig).SpelledBy mirrored
        (ofCollected mirroredCatalog bareConfig).catalog.root "a.sql" := by
    have htext : Path.text ⟨"", ["a.sql"]⟩ = "a.sql" := by decide
    rw [← htext]
    exact .below houtput
  have hfound := hall mirrored ⟨"/", []⟩ bareConfig bareConfig bareConfig [] mirroredCatalog _ _
    proper_mirrored catalog_mirrored hgraph accepted_bareConfig (tasks_of_nodup hnodup)
    (plainQuery "a.sql.tmpl" "select 1") List.mem_cons_self "a.sql" hspelled
  -- The link leads to the other output, which the index lists.
  have hreal : mirrored.canonical? ((ofCollected mirroredCatalog bareConfig).catalog.root.child
      "a.sql") = some ⟨"/", ["b.sql"]⟩ := by
    have hchild : (ofCollected mirroredCatalog bareConfig).catalog.root.child "a.sql" =
        ⟨"/", ["a.sql"]⟩ := by
      decide
    rw [hchild]
    exact FileSystem.canonical?_link_root (isName_mirrored (by simp)).1
      (isName_mirrored (by simp)).1 rfl rfl
  have hleads := (Traces.leads (by decide) hreal
    (List.mem_cons_of_mem _ List.mem_cons_self) hother).queryForOutput_eq hnodup
  exact absurd (Except.ok.inj (hfound.symm.trans hleads)) (by decide)

end Stencil
