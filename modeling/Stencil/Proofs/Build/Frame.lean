import Stencil.Build
import Stencil.Proofs.Output.Place
import Stencil.Proofs.Output.Write
import Stencil.Proofs.Render.Report
import Stencil.Proofs.Render.Watch

/-!
# What a Build Leaves Alone

A build changes the files of its outputs and no others, and none if it fails.

Only the last phase of a build changes anything, and it is a run of writes.
What is written are the texts of queries that rendered, so each file that
changed is one that an output led to. A build fails in that phase only at a
path that is refused. Then all outputs have paths that are refused, because a
null character in one of them comes from the configuration, so none was
written before.

## Main definitions

* `Graph.RendersTo`: A query renders to a text.
* `Graph.outputs`: The outputs that a build writes, in order.
* `Graph.Puts`: An output was put at a location.

## Theorems

* `Graph.mem_outputs`: What is written are texts that queries render to.
* `Graph.exists_written_buildGraph`: A build writes some first outputs.
* `Graph.grows_buildGraph`: If it fails it has changed no file.
* `build_frame`: What a build changes.
-/

namespace Stencil

namespace Graph

/-- A query of the graph renders to a text. -/
def RendersTo (g : Graph) (c : Config) (query : Source) (text : String) : Prop :=
  query ∈ g.queries ∧ ∃ closure, g.closure? query.path = some closure ∧
    g.render c.context query.path closure = .ok text

/-- The outputs that a build writes, in order. -/
def outputs (g : Graph) (c : Config) : List (Path × String) :=
  (g.runTasks c.context (g.queries.map (g.taskOf c))).results.map fun r => (r.output, r.text)

/-- When the turn of an output came its path led to a location, and the bytes
    are those of the output in full. -/
def Puts (g : Graph) (c : Config) (fs : FileSystem) (loc : Location) (data : ByteArray) : Prop :=
  ∃ query output earlier later, g.RendersTo c query output.2 ∧
    output.1 = query.outputPath g.catalog.root c ∧
    g.outputs c = earlier ++ output :: later ∧
    (fs.written c.header earlier).destination? output.1 = some loc ∧
    data = outputBytes c.header output.2

/-- What is written are texts that queries render to, under their paths. -/
theorem mem_outputs {g : Graph} {c : Config} (hcycle : ∀ q ∈ g.queries, ¬ g.ReachesCycle q.path)
    {output : Path × String} (h : output ∈ g.outputs c) :
    ∃ query, g.RendersTo c query output.2 ∧
      output.1 = query.outputPath g.catalog.root c := by
  rcases List.mem_map.mp h with ⟨r, hr, rfl⟩
  rcases mem_results_runTasks.mp hr with ⟨t, ht, hrun⟩
  rcases List.mem_map.mp ht with ⟨query, hquery, rfl⟩
  rcases exists_closure? (hcycle query hquery) with ⟨closure, hclosure, _⟩
  have htask : g.taskOf c query = ⟨query, query.outputPath g.catalog.root c, closure⟩ := by
    rw [taskOf, hclosure, Option.getD_some]
  rw [htask, RenderTask.run, RenderTask.path] at hrun
  rcases hrender : g.render c.context query.path closure with why | text
  · simp only [hrender, reduceCtorEq] at hrun
  · simp only [hrender, Except.ok.injEq] at hrun
    refine ⟨query, ⟨hquery, closure, hclosure, ?_⟩, ?_⟩
    · rw [hrender, ← hrun]
    · rw [← hrun]

/-- Building a graph ends with a conflict before anything is written, or as
    writing its outputs ends. -/
theorem buildGraph_cases (fs : FileSystem) (g : Graph) (c : Config) :
    (∃ why, buildGraph fs g c = (fs, .error why)) ∨
      ∃ ending, FileSystem.WriteEnds fs c.header (g.outputs c) ending ∧
        (buildGraph fs g c).1 = ending.1 ∧
          ((∃ why, (buildGraph fs g c).2 = .error why) → ∃ f, ending.2 = .error f) := by
  rw [buildGraph, tasks]
  rcases RenderTask.conflict? (g.queries.map (g.taskOf c)) with _ | conflict
  · refine Or.inr ⟨_, FileSystem.writeEnds_writeFrom c.header (g.outputs c) fs {}, ?_⟩
    simp only []
    rw [← outputs, FileSystem.writeAll]
    rcases fs.writeFrom c.header {} (g.outputs c) with ⟨fs', result⟩
    rcases result with f | writes
    · exact ⟨rfl, fun _ => ⟨f, rfl⟩⟩
    · refine ⟨rfl, fun hwhy => ?_⟩
      rcases hwhy with ⟨why, hwhy⟩
      exact absurd hwhy (by simp only [reduceCtorEq, not_false_eq_true])
  · exact Or.inl ⟨.conflict conflict, rfl⟩

/-- A build writes its outputs up to some point. -/
theorem exists_written_buildGraph (fs : FileSystem) (g : Graph) (c : Config) :
    ∃ done later, g.outputs c = done ++ later ∧
      (buildGraph fs g c).1 = fs.written c.header done := by
  rcases buildGraph_cases fs g c with ⟨why, heq⟩ | ⟨ending, hends, heq, _⟩
  · rw [heq]
    exact ⟨[], g.outputs c, rfl, rfl⟩
  · rw [heq]
    cases hends with
    | all s => exact ⟨g.outputs c, [], (List.append_nil _).symm, rfl⟩
    | @refused earlier later output f hsplit _ _ =>
        refine ⟨earlier ++ [output], later, ?_, rfl⟩
        rw [hsplit, List.append_assoc, List.singleton_append]

/-- A build that fails in writing has changed no file. One path was refused, so
    all of them would have been. -/
theorem grows_buildGraph {fs : FileSystem} {g : Graph} {c : Config}
    (hregular : g.catalog.Regular c) (hcycle : ∀ q ∈ g.queries, ¬ g.ReachesCycle q.path)
    {why : BuildError} (h : (buildGraph fs g c).2 = .error why) :
    FileSystem.Grows fs (buildGraph fs g c).1 := by
  have hplace : ∀ output ∈ g.outputs c, output.1.isAbsolute = true ∧
      (output.1.NullFree ↔ ¬ c.PlacesNull g.catalog.root) := by
    intro output houtput
    rcases mem_outputs hcycle houtput with ⟨query, ⟨hquery, _⟩, hpath⟩
    rw [hpath]
    exact ⟨query.isAbsolute_outputPath hregular.rooted c,
      hregular.nullFree_outputPath_iff (List.mem_filter.mp hquery).1 g.catalog.root⟩
  rcases buildGraph_cases fs g c with ⟨why', heq⟩ | ⟨ending, hends, heq, herror⟩
  · rw [heq]
    exact FileSystem.Grows.refl fs
  · rw [heq]
    cases hends with
    | all s =>
        rcases herror ⟨why, h⟩ with ⟨f, hf⟩
        exact absurd hf (by simp only [reduceCtorEq, not_false_eq_true])
    | @refused earlier later output f hsplit hwrite hcause =>
        have hmem : ∀ o ∈ earlier ++ [output], o ∈ g.outputs c := by
          intro o ho
          rw [hsplit]
          rcases List.mem_append.mp ho with ho | ho
          · exact List.mem_append_left _ ho
          · rw [List.mem_singleton.mp ho]
            exact List.mem_append_right _ List.mem_cons_self
        rcases hplace output (hmem output (List.mem_append_right _ List.mem_cons_self)) with
          ⟨habs, hnull⟩
        have hplaces : c.PlacesNull g.catalog.root := by
          by_contra hno
          exact FileSystem.unrefused_write _ habs (hnull.mpr hno) c.header output.2 f hwrite hcause
        refine FileSystem.grows_written fs c.header _ (fun o ho hfree => ?_)
        exact (hplace o (hmem o ho)).2.mp hfree hplaces

end Graph

/-- A build ends before there is a graph, or as building the graph ends. -/
theorem build_cases (fs : FileSystem) (root : Path) (c : Option Config) :
    ((build fs root c).files = fs ∧ ∃ why, (build fs root c).report = .error why) ∨
      ∃ config g, c.elim (Config.load fs root none) .ok = .ok config ∧
        (loadGraph fs root config).2 = .ok g ∧
          (build fs root c).files = (buildGraph fs g config).1 ∧
          (build fs root c).report = (buildGraph fs g config).2 := by
  rw [build]
  rcases c.elim (Config.load fs root none) .ok with why | config
  · exact Or.inl ⟨rfl, .config why, rfl⟩
  · simp only [buildWith]
    rcases hload : loadGraph fs root config with ⟨notes, result⟩
    rcases result with why | g
    · exact Or.inl ⟨rfl, .tree why, rfl⟩
    · exact Or.inr ⟨config, g, rfl, congrArg Prod.snd hload, rfl, rfl⟩

/-- What a build changes, of any tree and with any configuration. No regular
    file vanishes. A regular file that stands there afterwards was there before
    with the same content and permission bits, or it is the file that the path
    of the output of a query led to, the query rendered, and the file has the
    header and the text in full; so no new file is left that is not an output.
    A build that has no report leaves the regular files as they were. -/
theorem build_frame {fs : FileSystem} (hfs : fs.Proper) (root : Path) (c : Option Config) :
    (∀ loc, fs.IsFileAt loc → (build fs root c).files.IsFileAt loc) ∧
      (∀ loc data mode, (build fs root c).files.find? loc = some (.file data mode) →
        fs.find? loc = some (.file data mode) ∨
          ∃ config g, c.elim (Config.load fs root none) .ok = .ok config ∧
            (loadGraph fs root config).2 = .ok g ∧ g.Puts config fs loc data) ∧
      ∀ why, (build fs root c).report = .error why → ∀ loc data mode,
        (build fs root c).files.find? loc = some (.file data mode) ↔
          fs.find? loc = some (.file data mode) := by
  rcases build_cases fs root c with ⟨hfiles, _⟩ | ⟨config, g, hconfig, hg, hfiles, hreport⟩
  · rw [hfiles]
    exact ⟨fun _ h => h, fun _ _ _ h => Or.inl h, fun _ _ _ _ _ => Iff.rfl⟩
  · rcases exists_catalog_of_loadGraph hfs hg with ⟨catalog, hregular, hcatalog, _, hcycle⟩
    rcases g.exists_written_buildGraph fs config with ⟨done, later, hdone, hwritten⟩
    rw [hfiles, hreport]
    refine ⟨fun loc h => ?_, fun loc data mode h => ?_, fun why h loc data mode => ?_⟩
    · rw [hwritten]
      exact fs.isFileAt_written config.header h done
    · rw [hwritten] at h
      rcases fs.find?_written config.header done h with hbefore | ⟨earlier, output, more, hsplit,
        hdestination, hdata⟩
      · exact Or.inl hbefore
      · have houtputs : g.outputs config = earlier ++ output :: (more ++ later) := by
          rw [hdone, hsplit, List.append_assoc, List.cons_append]
        have hmem : output ∈ g.outputs config := by
          rw [houtputs]
          exact List.mem_append_right _ List.mem_cons_self
        rcases Graph.mem_outputs hcycle hmem with ⟨query, hrenders, hpath⟩
        exact Or.inr ⟨config, g, hconfig, hg, query, output, earlier, more ++ later, hrenders,
          hpath, houtputs, hdestination, hdata⟩
    · rw [hcatalog] at hcycle ⊢ h
      exact (Graph.grows_buildGraph hregular hcycle h).find?_eq_file_iff loc data mode

/-- A tree of one query. -/
def oneQuery : FileSystem :=
  ⟨[(["answer.sql.tmpl"], .file (Text.Utf8.encode "select 42") 0o644)], []⟩

/-- Building a tree of one query keeps the file of the query, and leaves no
    file but that one and outputs. -/
theorem build_frame_oneQuery :
    (build oneQuery ⟨"/", []⟩ (some .default)).files.IsFileAt ["answer.sql.tmpl"] ∧
      ∀ why, (build oneQuery ⟨"/", []⟩ (some .default)).report = .error why →
        ∀ loc data mode,
          (build oneQuery ⟨"/", []⟩ (some .default)).files.find? loc = some (.file data mode) ↔
            oneQuery.find? loc = some (.file data mode) :=
  have hframe := build_frame (by decide : oneQuery.Proper) ⟨"/", []⟩ (some .default)
  ⟨hframe.1 _ ⟨_, _, rfl⟩, hframe.2.2⟩

end Stencil
