import Mathlib
import Stencil.Proofs.Command.Exit
import Stencil.Proofs.Command.Given
import Stencil.Proofs.Config.Overwrite

/-!
# Which Setting Counts

Where the settings of a build come from when several sources give them.

A build is configured by its command line, its surroundings, a file and the
defaults, in this order. What the first two say is written over what is found in
the file, and every value is checked by the rule of its field. A source that
says nothing is passed over.

Two things break the order. A command line that asks for no renders at all is
passed over as if it had not asked, while any other number that is too small is
refused. And an extension of the file that starts with a blank loses it when
another source says anything, because it is checked once more.

## Main definitions

* `Command.buildFields`: The fields that a build writes over the file.
* `Command.Assigns`: What an assignment says.
* `Command.Silent`: Neither the command line nor the surroundings say anything.
* `Command.Settled`: Each setting is that of the first source that gives it.
* `Command.Refused`: The command line gives a value that breaks a rule.

## Theorems

* `Command.configOf_eq_ok_iff`: The configuration of a run is that of the file
  with the other sources written over it.
* `Command.exists_pairs_of_contextOf`: What assignments come to.
* `Command.settled_of_override`: What is written over the file counts.
* `Command.build_settings`: Every setting of a build is that of the first source
  that gives it, and a value that breaks a rule is refused.
* `Command.not_build_settings`: No renders at all are not refused.
-/

namespace Stencil

namespace Command

open Config (Fields setField contextDatum)

/-! ### Sources -/

section Sources

variable {fs : FileSystem} {environment : List (String × String)} {root : Path}
  {common : CommonOptions} {task : Task} {s : Settings} {file : Config} {overrides : Fields}

/-- Once the surroundings have settings, the file is read, then the options of
    the task, and then they are written over the file. -/
theorem configOf_of_settingsOf (hs : settingsOf environment = .ok s) :
    configOf fs environment root common task =
      (((Config.load fs root (fileOf environment common)).mapError fun e =>
        stopWith e.report? (.config e)) >>= fun file =>
          taskOverrides fs s task >>= fun overrides =>
            match file.override (overrides ++ commonOverrides common) with
            | .ok c => .ok c
            | .error (.invalid cs) => .error (.reported
                { headline := "Invalid options", account := some (Config.Complaint.listing cs) })
            | .error .contextNotMap => .error (.reported { headline := "Invalid options" })) := by
  rw [configOf, hs, fileOf, ← (settings_of_settingsOf hs).1]
  rcases common.config with _ | p <;> rfl

/-- The configuration of a run is that of the file with the other sources
    written over it. -/
theorem configOf_eq_ok_iff {c : Config} : configOf fs environment root common task = .ok c ↔
    ∃ s file overrides, settingsOf environment = .ok s ∧
      Config.load fs root (fileOf environment common) = .ok file ∧
        taskOverrides fs s task = .ok overrides ∧
          file.override (overrides ++ commonOverrides common) = .ok c := by
  constructor
  · intro h
    rcases hs : settingsOf environment with stop | s
    · rw [configOf, hs] at h
      cases h
    · rw [configOf_of_settingsOf hs] at h
      rcases hfile : Config.load fs root (fileOf environment common) with why | file
      · rw [hfile] at h
        cases h
      · rw [hfile] at h
        rcases ho : taskOverrides fs s task with stop | overrides
        · rw [ho] at h
          cases h
        · rw [ho] at h
          rcases hover : file.override (overrides ++ commonOverrides common) with why | c'
          · simp only [Except.mapError, bind, Except.bind, hover] at h
            cases why <;> cases h
          · simp only [Except.mapError, bind, Except.bind, hover, Except.ok.injEq] at h
            exact ⟨s, file, overrides, rfl, rfl, ho, hover.trans (congrArg _ h)⟩
  · rintro ⟨s, file, overrides, hs, hfile, ho, hover⟩
    rw [configOf_of_settingsOf hs, hfile, ho]
    simp only [Except.mapError, bind, Except.bind, hover]

/-- What breaks a rule once it is written over the file is reported. -/
theorem configOf_of_invalid {cs : List Config.Complaint} (hs : settingsOf environment = .ok s)
    (hfile : Config.load fs root (fileOf environment common) = .ok file)
    (ho : taskOverrides fs s task = .ok overrides)
    (hover : file.override (overrides ++ commonOverrides common) = .error (.invalid cs)) :
    configOf fs environment root common task = .error (.reported
      { headline := "Invalid options", account := some (Config.Complaint.listing cs) }) := by
  rw [configOf_of_settingsOf hs, hfile, ho]
  simp only [Except.mapError, bind, Except.bind, hover]

end Sources

/-- The assignment gives a value a name. -/
def Assigns (a : String) (e : String × Datum) : Prop :=
  readAssignment a = .ok (.text e.1, e.2)

/-- What is assigned has a name. -/
theorem exists_assigns {a : String} {e : Datum × Datum} (h : readAssignment a = .ok e) :
    ∃ name, e.1 = .text name ∧ Assigns a (name, e.2) := by
  have hname : ∃ name, e.1 = .text name := by
    rw [readAssignment] at h
    rcases hcut : Text.cutFirst '=' a with _ | ⟨name, value⟩
    · simp only [hcut, reduceCtorEq] at h
    · simp only [hcut] at h
      split at h
      · cases h
      · split at h
        · cases h
          exact ⟨_, rfl⟩
        · split at h
          · cases h
            exact ⟨_, rfl⟩
          · cases h
  rcases hname with ⟨name, heq⟩
  exact ⟨name, heq, h.trans (congrArg (fun d => Except.ok (d, e.2)) heq)⟩

theorem exists_pairs_of_mapM {as : List String} {es : Datum.Entries}
    (h : as.mapM readAssignment = .ok es) : ∃ pairs : Fields, List.Forall₂ Assigns as pairs ∧
      es = pairs.map fun e => (Datum.text e.1, e.2) := by
  induction as generalizing es with
  | nil =>
      cases h
      exact ⟨[], .nil, rfl⟩
  | cons a as ih =>
      rw [List.mapM_cons] at h
      rcases hfirst : readAssignment a with why | ⟨key, d⟩
      · rw [hfirst] at h
        cases h
      · rcases hrest : as.mapM readAssignment with why | es'
        · rw [hfirst, hrest] at h
          cases h
        · rw [hfirst, hrest] at h
          cases h
          rcases exists_assigns hfirst with ⟨name, hname, hassigns⟩
          rcases ih hrest with ⟨pairs, hpairs, rfl⟩
          refine ⟨(name, d) :: pairs, .cons hassigns hpairs, ?_⟩
          rw [List.map_cons]
          exact congrArg (· :: _) (Prod.ext hname rfl)

/-- Assignments come to nothing if there is none, and else to the context that
    they make one after the other. -/
theorem exists_pairs_of_contextOf {as : List String} {context : Datum}
    (h : contextOf as = .ok context) : ∃ pairs : Fields, List.Forall₂ Assigns as pairs ∧
      (as = [] ∧ context = .null ∨ as ≠ [] ∧ context =
        contextDatum (pairs.foldl (fun done e => setField done e.1 e.2) [])) := by
  rw [contextOf] at h
  by_cases hempty : as.isEmpty = true
  · rw [if_pos hempty, Except.ok.injEq] at h
    rw [List.isEmpty_iff] at hempty
    subst hempty
    exact ⟨[], .nil, Or.inl ⟨rfl, h.symm⟩⟩
  · rw [if_neg hempty, readAssignments] at h
    rcases hread : as.mapM readAssignment with why | es
    · rw [hread] at h
      cases why <;> cases h
    · rw [hread] at h
      rcases exists_pairs_of_mapM hread with ⟨pairs, hpairs, rfl⟩
      refine ⟨pairs, hpairs, Or.inr ⟨fun hnil => hempty (List.isEmpty_iff.mpr hnil), ?_⟩⟩
      have hnil : (([] : Fields).map Prod.fst).Nodup := List.nodup_nil
      rw [← Config.mergeContext_texts hnil]
      exact (Except.ok.inj h).symm

/-- The fields that a build writes over the file, each with a value or
    nothing. -/
def buildFields (dir : Option Path) (context : Datum) (o : BuildOptions) (workers : Option Int)
    (common : CommonOptions) : Fields :=
  [("output_dir", dir.elim .null fun p => .text p.text),
    ("extension", o.extension.elim .null .text), ("header", o.header.elim .null .text),
    ("workers", (workersOf o.workers workers).elim .null .int), ("context", context),
    flagOverride "include_ignored" common.includeIgnored,
    flagOverride "verbose" common.verbose]

theorem nodup_buildFields (dir : Option Path) (context : Datum) (o : BuildOptions)
    (workers : Option Int) (common : CommonOptions) :
    ((buildFields dir context o workers common).map Prod.fst).Nodup := by
  change ["output_dir", "extension", "header", "workers", "context", "include_ignored",
    "verbose"].Nodup
  decide

/-- A build finds the counterpart of its directory without links, and reads its
    assignments. -/
theorem exists_buildFields {fs : FileSystem} {s : Settings} {o : BuildOptions} {overrides : Fields}
    (h : taskOverrides fs s (.build o) = .ok overrides) (common : CommonOptions) :
    ∃ dir context, (o.outputDir = none ∧ dir = none ∨
        ∃ p real, o.outputDir = some p ∧ fs.canonical? p = some real ∧ dir = some real) ∧
      contextOf o.assignments = .ok context ∧
        overrides ++ commonOverrides common = buildFields dir context o s.workers common := by
  rw [taskOverrides] at h
  rcases hdir : o.outputDir with _ | p
  · rcases hcontext : contextOf o.assignments with stop | context
    · rw [hdir, hcontext] at h
      cases h
    · rw [hdir, hcontext] at h
      exact ⟨none, context, Or.inl ⟨rfl, rfl⟩, rfl,
        congrArg (· ++ commonOverrides common) (Except.ok.inj h).symm⟩
  · rcases hreal : resolvePath fs p with stop | real
    · simp only [hdir, hreal, Functor.map, Except.map, bind, Except.bind, reduceCtorEq] at h
    · rcases hcontext : contextOf o.assignments with stop | context
      · simp only [hdir, hreal, hcontext, Functor.map, Except.map, bind, Except.bind,
          reduceCtorEq] at h
      · simp only [hdir, hreal, hcontext, Functor.map, Except.map, bind, Except.bind, pure,
          Except.pure, Except.ok.injEq] at h
        refine ⟨some real, context, Or.inr ⟨p, real, rfl, ?_, rfl⟩, rfl,
          congrArg (· ++ commonOverrides common) h.symm⟩
        rw [resolvePath] at hreal
        split at hreal
        · cases hreal
        · rcases hcanonical : fs.canonical? p with _ | real'
          · simp only [hcanonical, reduceCtorEq] at hreal
          · simp only [hcanonical, Except.ok.injEq] at hreal
            rw [hreal]

/-! ### What is given -/

section Given

variable {given : List Given} {key w : String}

theorem mem_of_last? (h : last? given key = some w) : (key, w) ∈ given :=
  List.mem_reverse.mp (mem_of_lookup h)

theorem all_of_last?_none (h : last? given key = none) : all given key = [] := by
  rw [all, List.map_eq_nil_iff, List.filter_eq_nil_iff]
  intro g hg
  have hne := List.lookup_eq_none_iff.mp h g (List.mem_reverse.mpr hg)
  rw [bne_iff_ne] at hne
  rw [beq_iff_eq]
  exact Ne.symm hne

/-- A number of renders is a number written out. -/
theorem exists_repr_of_workers (hfits : ∀ g ∈ given, Given.Fits buildVerb.switches g)
    (h : last? given "--workers" = some w) : ∃ n : Int, w = n.repr := by
  rcases hfits _ (mem_of_last? h) with ⟨s, hs, hkey, hallows⟩
  have hwhole : ∀ s ∈ buildVerb.switches, s.key = "--workers" → s.takes = .whole "WORKERS" := by
    decide
  rw [hwhole s hs hkey] at hallows
  cases hallows with
  | whole _ n => exact ⟨n, rfl⟩

theorem workers_ofGiven {n : Int} (h : last? given "--workers" = some n.repr) :
    (BuildOptions.ofGiven given).workers = some n := by
  rw [BuildOptions.ofGiven, h]
  exact Int.toInt?_repr n

/-- The number of renders that is asked for is passed over if it is zero. -/
theorem workersOf_of_zero (hfits : ∀ g ∈ given, Given.Fits buildVerb.switches g)
    (h : ∀ n : Int, last? given "--workers" = some n.repr → n = 0) (workers : Option Int) :
    workersOf (BuildOptions.ofGiven given).workers workers = workers := by
  rcases hlast : last? given "--workers" with _ | w
  · rw [BuildOptions.ofGiven, hlast]
    rfl
  · rcases exists_repr_of_workers hfits hlast with ⟨n, rfl⟩
    rw [workers_ofGiven hlast, h n hlast]
    rfl

theorem workersOf_of_ne_zero {n : Int} (h : last? given "--workers" = some n.repr) (hn : n ≠ 0)
    (workers : Option Int) :
    workersOf (BuildOptions.ofGiven given).workers workers = some n := by
  rw [workers_ofGiven h, workersOf, beq_false_of_ne hn, if_neg Bool.false_ne_true]

theorem fileOf_ofGiven (environment : List (String × String)) (given : List Given) :
    fileOf environment (.ofGiven given) =
      ((last? given "--config").or (Settings.find? environment "config")).map Path.ofString := by
  rw [fileOf, CommonOptions.ofGiven]
  rcases last? given "--config" with _ | p <;> rfl

end Given

/-! ### What counts -/

/-- Neither the command line nor the surroundings say anything about a setting.
    To ask for no renders at all says nothing. -/
structure Silent (environment : List (String × String)) (given : List Given) : Prop where
  switches : ∀ key ∈ ["--output", "--ext", "--header", "--var", "--check-ignored-dirs",
    "--verbose"], last? given key = none
  workers : ∀ n : Int, last? given "--workers" = some n.repr → n = 0
  surroundings : Settings.find? environment "workers" = none

/-- Each setting is that of the first source that gives it. -/
structure Settled (fs : FileSystem) (environment : List (String × String)) (given : List Given)
    (file c : Config) : Prop where
  /-- The directory of outputs on the command line counts, with its links
      followed. -/
  outputDir : ∀ w, last? given "--output" = some w → ∃ real,
    fs.canonical? (Path.ofString w) = some real ∧ real.isAbsolute = true ∧
      c.outputDir = some (Path.ofString real.text) ∧ (fs.Proper → c.outputDir = some real)
  /-- Without one that of the file does. -/
  outputDir_file : last? given "--output" = none → c.outputDir = file.outputDir
  /-- The extension on the command line counts, as its check leaves it. -/
  extension : ∀ w, last? given "--ext" = some w → Config.bareExtension w = .ok c.extension
  /-- Without one that of the file does, unless it starts with a blank: then it
      can be checked once more. -/
  extension_file : last? given "--ext" = none → c.extension = file.extension ∨
    ¬ file.BareStart ∧ Config.bareExtension file.extension = .ok c.extension
  /-- The header on the command line counts, even an empty one, or else that of
      the file. -/
  header : c.header = (last? given "--header").getD file.header
  /-- The number of renders on the command line counts, unless it is zero. -/
  workers : ∀ n : Int, last? given "--workers" = some n.repr → n ≠ 0 →
    1 ≤ n ∧ c.workers = some n
  /-- Without one that of the surroundings does, or else that of the file. -/
  workers_else : (∀ n : Int, last? given "--workers" = some n.repr → n = 0) →
    c.workers = ((Settings.find? environment "workers").bind Config.wholeNumeral?).or file.workers
  /-- The assignments are written into the context of the file, in order. -/
  context : ∃ pairs : Fields, List.Forall₂ Assigns (all given "--var") pairs ∧
    c.context = pairs.foldl (fun done e => setField done e.1 e.2) file.context
  /-- Switches are on if they are given, or if the file says so. -/
  includeIgnored : c.includeIgnored = (has given "--check-ignored-dirs" || file.includeIgnored)
  verbose : c.verbose = (has given "--verbose" || file.verbose)
  /-- What has no switch is what the file says. -/
  querySuffixes : c.querySuffixes = file.querySuffixes
  partialSuffixes : c.partialSuffixes = file.partialSuffixes
  macroSuffixes : c.macroSuffixes = file.macroSuffixes
  partialsDir : c.partialsDir = file.partialsDir
  /-- If no other source says anything, then nothing is checked again. -/
  silent : Silent environment given → c = file

/-- The command line gives a value that breaks a rule, and is not passed over. -/
inductive Refused (given : List Given) : Prop where
  /-- Nothing is left of the extension. -/
  | extension {w : String} (hw : last? given "--ext" = some w)
      (h : ∀ ext, Config.bareExtension w ≠ .ok ext)
  /-- The number of renders is negative. -/
  | workers {n : Int} (hn : last? given "--workers" = some n.repr) (h : n < 0)

section Build

variable {fs : FileSystem} {environment : List (String × String)} {given : List Given}
  {s : Settings} {file c : Config} {dir : Option Path} {context : Datum}

theorem mergeable_buildFields {as : List String} (hcontext : contextOf as = .ok context)
    (o : BuildOptions) (workers : Option Int) (common : CommonOptions) :
    Config.Mergeable (buildFields dir context o workers common) := by
  intro d hmem hd
  have hin : ("context", context) ∈ buildFields dir context o workers common := by
    simp only [buildFields, List.mem_cons, true_or, or_true]
  have hnodup := nodup_buildFields dir context o workers common
  have heq : d = context := Option.some.inj
    (((lookup_eq_some_iff hnodup).mpr hmem).symm.trans
      ((lookup_eq_some_iff hnodup).mpr hin))
  rcases exists_pairs_of_contextOf hcontext with ⟨pairs, _, ⟨_, hnull⟩ | ⟨_, hpairs⟩⟩
  · exact absurd (heq.trans hnull) hd
  · exact ⟨_, heq.trans hpairs⟩

/-- Nothing is written over the file if no other source says anything. -/
theorem null_of_silent (hfits : ∀ g ∈ given, Given.Fits buildVerb.switches g)
    (hs : settingsOf environment = .ok s) (hcontext : contextOf (all given "--var") = .ok context)
    (hsilent : Silent environment given) :
    ∀ o ∈ buildFields none context (.ofGiven given) s.workers (.ofGiven given), o.2 = .null := by
  have hnone : ∀ key ∈ ["--output", "--ext", "--header", "--var", "--check-ignored-dirs",
      "--verbose"], last? given key = none := hsilent.switches
  simp only [List.mem_cons, List.not_mem_nil, or_false, forall_eq_or_imp, forall_eq] at hnone
  rcases hnone with ⟨_, hext, hheader, hvar, hignored, hverbose⟩
  have hcontext' : context = .null := by
    rw [all_of_last?_none hvar] at hcontext
    exact (Except.ok.inj hcontext).symm
  have hworkers : workersOf (BuildOptions.ofGiven given).workers s.workers = none := by
    rw [workersOf_of_zero hfits hsilent.workers, (settings_of_settingsOf hs).2.1,
      hsilent.surroundings]
    rfl
  intro o ho
  rw [buildFields, hworkers] at ho
  simp only [hcontext', BuildOptions.ofGiven, CommonOptions.ofGiven, has, hext, hheader, hignored,
    hverbose, flagOverride, Option.elim_none, Option.isSome_none, Bool.false_eq_true, if_false,
    List.mem_cons, List.not_mem_nil, or_false] at ho
  rcases ho with rfl | rfl | rfl | rfl | rfl | rfl | rfl <;> rfl

/-- The assignments are written into the context of the file. Without any of them
    the context is left alone. -/
theorem context_of_overwritten {overrides : Fields} {as : List String}
    (hover : Config.Overwritten file overrides c) (hnodup : (overrides.map Prod.fst).Nodup)
    (hcontext : contextOf as = .ok context) (hmem : ("context", context) ∈ overrides) :
    ∃ pairs : Fields, List.Forall₂ Assigns as pairs ∧
      c.context = pairs.foldl (fun done e => setField done e.1 e.2) file.context := by
  rcases exists_pairs_of_contextOf hcontext with ⟨pairs, hpairs, ⟨rfl, rfl⟩ | ⟨_, rfl⟩⟩
  · have hkept := hover.kept "context"
      (fun hnamed => (Config.named_iff hnodup hmem).mp hnamed rfl) (by decide)
    exact ⟨[], .nil, Config.contextDatum_inj (Option.some.inj hkept)⟩
  · refine ⟨pairs, hpairs, ?_⟩
    rw [hover.merged _ hmem, Config.foldl_foldl_setField hover.before.nodup_context]

/-- What has no switch is left alone. -/
theorem kept_of_overwritten {o : BuildOptions} {workers : Option Int} {common : CommonOptions}
    (hover : Config.Overwritten file (buildFields dir context o workers common) c) :
    c.querySuffixes = file.querySuffixes ∧ c.partialSuffixes = file.partialSuffixes ∧
      c.macroSuffixes = file.macroSuffixes ∧ c.partialsDir = file.partialsDir := by
  have hkept : ∀ name, name ∉ ["output_dir", "extension", "header", "workers", "context",
      "include_ignored", "verbose"] → c.fields.lookup name = file.fields.lookup name := by
    intro name hname
    refine hover.kept name (Config.not_named_of_notMem hname) ?_
    rintro rfl
    exact hname (by decide)
  refine ⟨?_, ?_, ?_, ?_⟩
  · exact Config.ofTexts_inj (Option.some.inj (hkept "query_suffixes" (by decide)))
  · exact Config.ofTexts_inj (Option.some.inj (hkept "partial_suffixes" (by decide)))
  · exact Config.ofTexts_inj (Option.some.inj (hkept "macro_suffixes" (by decide)))
  · exact Config.ofOption_inj (fun _ => Datum.noConfusion) (fun _ _ _ _ => Datum.text.inj)
      (Option.some.inj (hkept "partials_dir" (by decide)))

/-- What is written over the file counts, and what is not comes from the file. -/
theorem settled_of_override (hfits : ∀ g ∈ given, Given.Fits buildVerb.switches g)
    (hs : settingsOf environment = .ok s) (hfile : file.Accepted)
    (hdir : (BuildOptions.ofGiven given).outputDir = none ∧ dir = none ∨
      ∃ p real, (BuildOptions.ofGiven given).outputDir = some p ∧ fs.canonical? p = some real ∧
        dir = some real)
    (hcontext : contextOf (all given "--var") = .ok context)
    (hok : file.override
      (buildFields dir context (.ofGiven given) s.workers (.ofGiven given)) = .ok c) :
    Settled fs environment given file c := by
  have hnodup := nodup_buildFields dir context (.ofGiven given) s.workers (.ofGiven given)
  have hover := hfile.overwritten hnodup (mergeable_buildFields hcontext _ _ _) hok
  have hmem : ∀ {o : String × Datum} (n : Nat),
      (buildFields dir context (.ofGiven given) s.workers (.ofGiven given))[n]? = some o →
        o ∈ buildFields dir context (.ofGiven given) s.workers (.ofGiven given) :=
    fun _ h => List.mem_of_getElem? h
  have hout := hover.outputDir hnodup (o := dir) (hmem 0 rfl)
  have hext : ("extension", (last? given "--ext").elim .null .text) ∈
      buildFields dir context (.ofGiven given) s.workers (.ofGiven given) := hmem 1 rfl
  have hworkers := hover.workers hnodup
    (o := workersOf (BuildOptions.ofGiven given).workers s.workers) (hmem 3 rfl)
  -- From here on each setting is a matter of its own field.
  rcases kept_of_overwritten hover with ⟨hquery, hpartial, hmacro, hshared⟩
  refine ⟨fun w hw => ?_, fun hnone => ?_, fun w hw => ?_, fun hnone => ?_, ?_,
    fun n hn hne => ?_, fun hzero => ?_, ?_, ?_, ?_, hquery, hpartial, hmacro, hshared,
    fun hsilent => ?_⟩
  · rcases hdir with ⟨hno, _⟩ | ⟨p, real, hp, hreal, heq⟩
    · rw [BuildOptions.ofGiven, hw] at hno
      cases hno
    · rw [BuildOptions.ofGiven, hw, Option.map_some, Option.some.injEq] at hp
      rw [heq, Option.map_some, Option.some_or] at hout
      refine ⟨real, hp ▸ hreal, Catalog.isAbsolute_of_canonical? hreal, hout, fun hproper => ?_⟩
      rw [hout, (FileSystem.spelled_of_canonical? hproper hreal).ofString_text]
  · rcases hdir with ⟨_, heq⟩ | ⟨p, real, hp, _, _⟩
    · rwa [heq, Option.map_none, Option.none_or] at hout
    · rw [BuildOptions.ofGiven, hnone] at hp
      cases hp
  · rw [hw] at hext
    exact hover.extension_of_some hext
  · rw [hnone] at hext
    have hnot : ¬ Config.Named (buildFields dir context (.ofGiven given) s.workers
        (.ofGiven given)) "extension" := fun hnamed => (Config.named_iff hnodup hext).mp hnamed rfl
    exact (hover.extension hnot).imp_right And.right
  · exact hover.header hnodup (o := last? given "--header") (hmem 2 rfl)
  · rw [workersOf_of_ne_zero hn hne, Option.some_or] at hworkers
    exact ⟨hworkers.2 n rfl, hworkers.1⟩
  · rw [workersOf_of_zero hfits hzero, (settings_of_settingsOf hs).2.1] at hworkers
    exact hworkers.1
  · exact context_of_overwritten hover hnodup hcontext (hmem 4 rfl)
  · exact hover.includeIgnored hnodup (hmem 5 rfl)
  · exact hover.verbose hnodup (hmem 6 rfl)
  · have hnone : dir = none := by
      rcases hdir with ⟨_, heq⟩ | ⟨p, real, hp, _, _⟩
      · exact heq
      · rw [BuildOptions.ofGiven, hsilent.switches "--output" (by decide)] at hp
        cases hp
    subst hnone
    rw [Config.override_of_all_null file _ (null_of_silent hfits hs hcontext hsilent)] at hok
    exact (Except.ok.inj hok).symm

/-- A value on the command line that breaks a rule is among what is written over
    the file, and does not pass by itself. -/
theorem Refused.exists_field (hrefused : Refused given) (context : Datum) (dir : Option Path)
    (workers : Option Int) : ∃ name d,
      (name, d) ∈ buildFields dir context (.ofGiven given) workers (.ofGiven given) ∧
        d ≠ .null ∧ ∀ c₁, Config.ofFields [(name, d)] ≠ .ok c₁ := by
  cases hrefused with
  | @extension w hw h =>
      refine ⟨"extension", .text w, ?_, Datum.noConfusion, fun c₁ hc₁ => ?_⟩
      · rw [buildFields, BuildOptions.ofGiven, hw]
        exact List.mem_cons_of_mem _ List.mem_cons_self
      · exact h _ (Config.bareExtension_of_singleton hc₁)
  | @workers n hn h =>
      refine ⟨"workers", .int n, ?_, Datum.noConfusion, fun c₁ hc₁ => ?_⟩
      · rw [buildFields, workersOf_of_ne_zero hn (Int.ne_of_lt h)]
        exact List.mem_cons_of_mem _ (List.mem_cons_of_mem _ (List.mem_cons_of_mem _
          List.mem_cons_self))
      · exact absurd (Config.workers_of_singleton hc₁).2 (by omega)

/-- The file that is written over was accepted, and so a value that breaks a rule
    is what fails. -/
theorem Refused.override_invalid (hrefused : Refused given) (hfile : file.Accepted)
    (hcontext : contextOf (all given "--var") = .ok context) (dir : Option Path)
    (workers : Option Int) : ∃ cs, file.override
      (buildFields dir context (.ofGiven given) workers (.ofGiven given)) =
        .error (.invalid cs) := by
  rcases hrefused.exists_field context dir workers with ⟨name, d, hmem, hd, hbad⟩
  exact hfile.override_invalid (nodup_buildFields dir context _ workers _)
    (mergeable_buildFields hcontext _ _ _) hmem hd hbad

/-- A build has one order of sources. The file is the one on the command line,
    or that of the surroundings, or the first of two at the root. If there is a
    configuration, then each setting is that of the first source that gives it.
    If the command line gives a value that breaks a rule, then there is none, and
    that is reported once all sources can be read. The exception in both is the
    number zero. -/
theorem build_settings (fs : FileSystem) (environment : List (String × String))
    {words : List String} {verb : Verb} {given : List Given}
    (hline : readLine words = .ok (.verb verb given)) (hbuild : verb.name = "build") :
    (∀ w, last? given "--workers" = some w → ∃ n : Int, w = n.repr) ∧
    (∀ c, configOf fs environment (rootOf fs (.ofGiven given)) (.ofGiven given)
        (.ofGiven verb given) = .ok c →
      ∃ file, Config.Found fs (rootOf fs (.ofGiven given))
          (((last? given "--config").or (Settings.find? environment "config")).map
            Path.ofString) file ∧
        Settled fs environment given file c) ∧
    (Refused given →
      (∀ c, configOf fs environment (rootOf fs (.ofGiven given)) (.ofGiven given)
        (.ofGiven verb given) ≠ .ok c) ∧
      ∀ s file overrides, settingsOf environment = .ok s →
        Config.Found fs (rootOf fs (.ofGiven given))
          (((last? given "--config").or (Settings.find? environment "config")).map
            Path.ofString) file →
        taskOverrides fs s (.ofGiven verb given) = .ok overrides →
        ∃ cs, configOf fs environment (rootOf fs (.ofGiven given)) (.ofGiven given)
          (.ofGiven verb given) = .error (.reported
            { headline := "Invalid options", account := some (Config.Complaint.listing cs) })) := by
  rcases fits_of_readLine hline with ⟨hverb, hfits⟩
  have hnamed : ∀ v ∈ verbs, v.name = "build" → v = buildVerb := by decide
  obtain rfl := hnamed verb hverb hbuild
  have htask : Task.ofGiven buildVerb given = .build (.ofGiven given) := rfl
  rw [htask, ← fileOf_ofGiven environment given]
  -- A refused value is among what is written over the file, whatever the other sources say.
  have hinvalid : Refused given → ∀ s file overrides, settingsOf environment = .ok s →
      Config.load fs (rootOf fs (.ofGiven given)) (fileOf environment (.ofGiven given)) =
        .ok file → taskOverrides fs s (.build (.ofGiven given)) = .ok overrides →
          ∃ cs, file.override (overrides ++ commonOverrides (.ofGiven given)) =
            .error (.invalid cs) := by
    intro hrefused s file overrides _ hload ho
    rcases exists_buildFields ho (.ofGiven given) with ⟨dir, context, _, hcontext, heq⟩
    rw [heq]
    exact hrefused.override_invalid (Config.accepted_of_load hload) hcontext dir s.workers
  refine ⟨fun w hw => exists_repr_of_workers hfits hw, fun c hc => ?_, fun hrefused =>
    ⟨fun c hc => ?_, fun s file overrides hs hfound ho => ?_⟩⟩
  · rcases configOf_eq_ok_iff.mp hc with ⟨s, file, overrides, hs, hload, ho, hover⟩
    rcases exists_buildFields ho (.ofGiven given) with ⟨dir, context, hdir, hcontext, heq⟩
    rw [heq] at hover
    exact ⟨file, Config.load_eq_ok_iff.mp hload, settled_of_override hfits hs
      (Config.accepted_of_load hload) hdir hcontext hover⟩
  · rcases configOf_eq_ok_iff.mp hc with ⟨s, file, overrides, hs, hload, ho, hover⟩
    rcases hinvalid hrefused s file overrides hs hload ho with ⟨cs, hcs⟩
    cases hover.symm.trans hcs
  · have hload := Config.load_eq_ok_iff.mpr hfound
    rcases hinvalid hrefused s file overrides hs hload ho with ⟨cs, hcs⟩
    exact ⟨cs, configOf_of_invalid hs hload ho hcs⟩

end Build

theorem found_emptyTree : Config.Found emptyTree ⟨"/", []⟩ none Config.default := by
  have hfree : ∀ {n : String}, IsName n → n.utf8ByteSize ≤ 255 →
      emptyTree.exists? (Path.child ⟨"/", []⟩ n) = .ok false := by
    intro n hn hlen
    rw [Path.child_of_isName _ hn]
    exact FileSystem.exists?_free_root hn hlen rfl
  exact .neither (hfree (by decide) (by decide)) (hfree (by decide) (by decide))

/-- A tree without files is configured by what is written over the defaults. -/
theorem exists_configOf_emptyTree {environment : List (String × String)} {given : List Given}
    {s : Settings} (hs : settingsOf environment = .ok s)
    (hfile : fileOf environment (.ofGiven given) = none)
    (hdir : (BuildOptions.ofGiven given).outputDir = none) (hvar : all given "--var" = [])
    (halone : ∀ o ∈ buildFields none .null (.ofGiven given) s.workers (.ofGiven given),
      o.2 ≠ .null → ∃ c₁, Config.ofFields [o] = .ok c₁) :
    ∃ c, configOf emptyTree environment ⟨"/", []⟩ (.ofGiven given) (.ofGiven buildVerb given) =
      .ok c := by
  have hcontext : contextOf (all given "--var") = .ok .null := by rw [hvar]; rfl
  have ho : taskOverrides emptyTree s (.build (.ofGiven given)) =
      .ok ((buildFields none .null (.ofGiven given) s.workers (.ofGiven given)).take 5) := by
    rw [taskOverrides, hdir]
    change (contextOf (all given "--var") >>= _) = _
    rw [hcontext]
    rfl
  have hbare : Config.default.BareStart := by
    intro ch hch
    rw [show Config.default.extension.toList.head? = some 's' from rfl] at hch
    exact Option.some.inj hch ▸ (by decide)
  rcases Config.accepted_default.exists_override (nodup_buildFields _ _ _ _ _)
    (mergeable_buildFields hcontext _ _ _) hbare halone with ⟨c, hc⟩
  refine ⟨c, configOf_eq_ok_iff.mpr ⟨s, Config.default, _, hs, ?_, ho, hc⟩⟩
  rw [hfile]
  exact Config.load_eq_ok_iff.mpr found_emptyTree

/-- The command line counts before the surroundings, and what it says is checked
    by its rule. -/
theorem build_settings_workers : (∃ given c,
    readLine ["build", "--workers", "2", "--ext", ".txt"] = .ok (.verb buildVerb given) ∧
      configOf emptyTree [("SQLWELD_WORKERS", "3")] ⟨"/", []⟩ (.ofGiven given)
        (.ofGiven buildVerb given) = .ok c ∧ c.workers = some 2 ∧ c.extension = "txt" ∧
          c.header = "Autogenerated by sqlweld") ∧
    ∃ given, readLine ["build", "--workers", "-1"] = .ok (.verb buildVerb given) ∧
      ∀ c, configOf emptyTree [("SQLWELD_WORKERS", "3")] ⟨"/", []⟩ (.ofGiven given)
        (.ofGiven buildVerb given) ≠ .ok c := by
  have hline : readLine ["build", "--workers", "2", "--ext", ".txt"] =
      .ok (.verb buildVerb [("--workers", "2"), ("--ext", ".txt")]) := rfl
  have hline' : readLine ["build", "--workers", "-1"] =
      .ok (.verb buildVerb [("--workers", "-1")]) := rfl
  have hconfig : ∃ c, configOf emptyTree [("SQLWELD_WORKERS", "3")] ⟨"/", []⟩
      (.ofGiven [("--workers", "2"), ("--ext", ".txt")])
      (.ofGiven buildVerb [("--workers", "2"), ("--ext", ".txt")]) = .ok c := by
    refine exists_configOf_emptyTree rfl rfl rfl rfl fun o ho hd => ?_
    rw [buildFields, workers_ofGiven (n := 2) rfl] at ho
    simp only [List.mem_cons, List.not_mem_nil, or_false] at ho
    rcases ho with rfl | rfl | rfl | rfl | rfl | rfl | rfl
    · exact absurd rfl hd
    · exact ⟨_, rfl⟩
    · exact absurd rfl hd
    · exact ⟨_, rfl⟩
    · exact absurd rfl hd
    · exact absurd rfl hd
    · exact absurd rfl hd
  rcases hconfig with ⟨c, hc⟩
  refine ⟨⟨_, c, hline, hc, ?_⟩, ⟨_, hline', ?_⟩⟩
  · rcases (build_settings emptyTree [("SQLWELD_WORKERS", "3")] hline rfl).2.1 c hc with
      ⟨file, hfound, hsettled⟩
    have hdefault : file = Config.default := Except.ok.inj
      ((Config.load_eq_ok_iff.mpr hfound).symm.trans (Config.load_eq_ok_iff.mpr found_emptyTree))
    have hext : Config.bareExtension ".txt" = .ok c.extension := hsettled.extension ".txt" rfl
    refine ⟨(hsettled.workers 2 rfl (by decide)).2, ?_, ?_⟩
    · exact (Except.ok.inj (hext.symm.trans rfl) : c.extension = "txt")
    · rw [hsettled.header, hdefault]
      rfl
  · exact ((build_settings emptyTree [("SQLWELD_WORKERS", "3")] hline' rfl).2.2
      (.workers (n := -1) rfl (by decide))).1

/-- A number of renders that is asked for and breaks its rule is replaced by that
    of the surroundings, if it is zero. -/
theorem not_build_settings : ∃ given c,
    readLine ["build", "--workers", "0"] = .ok (.verb buildVerb given) ∧
      last? given "--workers" = some "0" ∧
      (∀ c₁, Config.ofFields [("workers", .int 0)] ≠ .ok c₁) ∧
      configOf emptyTree [("SQLWELD_WORKERS", "3")] (rootOf emptyTree (.ofGiven given))
        (.ofGiven given) (.ofGiven buildVerb given) = .ok c ∧ c.workers = some 3 := by
  have hnull : ∀ o ∈ buildFields none .null (.ofGiven [("--workers", "0")]) (some 3)
      (.ofGiven [("--workers", "0")]), o.2 ≠ .null → ∃ c₁, Config.ofFields [o] = .ok c₁ := by
    intro o ho hd
    rw [buildFields, workers_ofGiven (n := 0) rfl] at ho
    simp only [List.mem_cons, List.not_mem_nil, or_false] at ho
    rcases ho with rfl | rfl | rfl | rfl | rfl | rfl | rfl
    · exact absurd rfl hd
    · exact absurd rfl hd
    · exact absurd rfl hd
    · exact ⟨_, rfl⟩
    · exact absurd rfl hd
    · exact absurd rfl hd
    · exact absurd rfl hd
  have hs : settingsOf [("SQLWELD_WORKERS", "3")] = .ok ⟨none, some 3, "WARNING"⟩ := rfl
  rcases exists_configOf_emptyTree hs rfl rfl rfl hnull with ⟨c, hc⟩
  refine ⟨[("--workers", "0")], c, rfl, rfl, fun c₁ hc₁ => ?_, hc, ?_⟩
  · exact absurd (Config.workers_of_singleton hc₁).2 (by decide)
  · rcases configOf_eq_ok_iff.mp hc with ⟨s, file, overrides, hs', hload, ho, hover⟩
    rcases exists_buildFields ho (.ofGiven [("--workers", "0")]) with
      ⟨dir, context, _, hcontext, heq⟩
    obtain rfl := Except.ok.inj (hs.symm.trans hs')
    rw [heq] at hover
    have hleft := (Config.accepted_of_load hload).overwritten (nodup_buildFields _ _ _ _ _)
      (mergeable_buildFields hcontext _ _ _) hover
    have hpassed : workersOf (BuildOptions.ofGiven [("--workers", "0")]).workers (some 3) =
        some 3 := by
      rw [workers_ofGiven (n := 0) rfl]
      rfl
    have hworkers := (hleft.workers (nodup_buildFields _ _ _ _ _)
      (List.mem_of_getElem? (i := 3) rfl)).1
    rwa [hpassed, Option.some_or] at hworkers

end Command

end Stencil
