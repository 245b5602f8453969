import Stencil.Config.Schema

/-!
# Configurations

What a run can be told: how templates are recognised, where shared ones and
outputs are kept, what outputs start with, and what templates may read.

A configuration is made from named fields, each of which is checked by its own
rule; fields that are missing have defaults, and names that are no field are
refused. Overriding takes the fields of a configuration, replaces some and
checks them all again, so an overridden configuration satisfies the same
rules.

## Main definitions

* `Config`: A configuration.
* `Config.ofFields`: The configuration with given fields, or all complaints.
* `Config.fields`: The fields of a configuration.
* `Config.override`: A configuration with some fields replaced.

## Theorems

* `Config.override_of_all_null`: Overriding nothing changes nothing.
-/

namespace Stencil

/-- The settings of a run. -/
structure Config where
  /-- Suffixes of templates that are rendered to outputs, longest first. -/
  querySuffixes : List String
  /-- Suffixes of reusable fragments, longest first. -/
  partialSuffixes : List String
  /-- Suffixes of modules that only hold macros, longest first. -/
  macroSuffixes : List String
  /-- The directory searched after those above an importer. -/
  partialsDir : Option String
  /-- Where outputs go, if not beside their templates. -/
  outputDir : Option Path
  /-- The extension of outputs. -/
  extension : String
  /-- The text of the comment that outputs start with. -/
  header : String
  /-- What every template can read. -/
  context : List (String × Datum)
  /-- How many renders may run at once. -/
  workers : Option Int
  /-- Hidden and ignored files take part. -/
  includeIgnored : Bool
  /-- Every file is reported. -/
  verbose : Bool
  deriving Inhabited

namespace Config

/-- A field's name with its value. -/
abbrev Fields := List (String × Datum)

/-- The text that outputs start with by default. -/
def defaultHeader : String :=
  "Autogenerated by sqlweld"

/-- The configuration in which nothing is set. -/
def default : Config where
  querySuffixes := [".sql.tmpl"]
  partialSuffixes := [".partial.sql.tmpl", ".partial.tmpl"]
  macroSuffixes := [".macros.sql.tmpl", ".macros.tmpl"]
  partialsDir := some "partials"
  outputDir := none
  extension := "sql"
  header := defaultHeader
  context := []
  workers := none
  includeIgnored := false
  verbose := false

/-- The names of the fields, in order. -/
def fieldNames : List String :=
  ["query_suffixes", "partial_suffixes", "macro_suffixes", "partials_dir", "output_dir",
    "extension", "header", "context", "workers", "include_ignored", "verbose"]

/-- Suffixes start with a dot and have something after it. They are put in
order of length, so that the longest one that fits is met first. -/
def orderSuffixes (suffixes : List String) : Except String (List String) :=
  if suffixes.isEmpty then .error "at least one suffix is required"
  else
    match suffixes.find? fun s => !Text.startsWith ['.'] s.toList || s.length < 2 with
    | some s => .error ("suffix must start with '.': " ++ Text.quoted s)
    | none => .ok (suffixes.mergeSort fun a b => b.length ≤ a.length)

/-- An extension is not empty once blanks around it and dots before it are
gone. -/
def bareExtension (s : String) : Except String String :=
  let bare := Text.trimLeft (Text.trim s) (· == '.')
  if bare.isEmpty then .error "extension must not be empty" else .ok bare

/-- A shared directory is written with slashes and has none at its ends; the
root counts as none. -/
def barePartialsDir (s : String) : Option String :=
  let bare := Text.trim (Text.replaceAll "\\" "/" s) (· == '/')
  if bare.isEmpty then none else some bare

/-- The value of a field, or its default where the field is missing. -/
def field {α : Type} (fields : Fields) (name : String) (default : α)
    (read : List String → Datum → Checked α) : Checked α :=
  match fields.lookup name with
  | none => .ok default
  | some d => read [name] d

/-- Reads a field of suffixes. -/
def readSuffixes (place : List String) (d : Datum) : Checked (List String) :=
  checkRule place orderSuffixes (readTexts place d)

/-- Complaints about names that are no field, in the order given. -/
def unknownFields (fields : Fields) : Checked Unit :=
  match fields.filter fun f => !fieldNames.contains f.1 with
  | [] => .ok ()
  | fs => .error (fs.map fun f => ⟨[f.1], .unknownField⟩)

/-- The configuration with given fields, or the complaints about all of them. -/
def ofFields (fields : Fields) : Checked Config :=
  (Checked.apply · (unknownFields fields)) <|
  (Checked.apply · (field fields "verbose" default.verbose readBool)) <|
  (Checked.apply · (field fields "include_ignored" default.includeIgnored readBool)) <|
  (Checked.apply · (field fields "workers" default.workers
    fun place => readOption (readIntFrom 1 place))) <|
  (Checked.apply · (field fields "context" default.context readContext)) <|
  (Checked.apply · (field fields "header" default.header readText)) <|
  (Checked.apply · (field fields "extension" default.extension
    fun place d => checkRule place bareExtension (readText place d))) <|
  (Checked.apply · (field fields "output_dir" default.outputDir
    fun place => readOption (readPath place))) <|
  (Checked.apply · (field fields "partials_dir" default.partialsDir
    fun place d => (readOption (readText place) d).map (·.bind barePartialsDir))) <|
  (Checked.apply · (field fields "macro_suffixes" default.macroSuffixes readSuffixes)) <|
  (Checked.apply · (field fields "partial_suffixes" default.partialSuffixes readSuffixes)) <|
  (Checked.apply · (field fields "query_suffixes" default.querySuffixes readSuffixes)) <|
  .ok fun q p m dir out ext header context workers ignored verbose (_ : Unit) =>
    ⟨q, p, m, dir, out, ext, header, context, workers, ignored, verbose⟩

/-- A list of texts as data. -/
def ofTexts (ss : List String) : Datum :=
  .list (ss.map Datum.text)

/-- A value that may be missing as data. -/
def ofOption {α : Type} (f : α → Datum) : Option α → Datum
  | none => .null
  | some a => f a

/-- The context as data. -/
def contextDatum (context : List (String × Datum)) : Datum :=
  .map (context.map fun e => (.text e.1, e.2))

/-- The fields of a configuration, in order. -/
def fields (c : Config) : Fields :=
  [("query_suffixes", ofTexts c.querySuffixes),
    ("partial_suffixes", ofTexts c.partialSuffixes),
    ("macro_suffixes", ofTexts c.macroSuffixes),
    ("partials_dir", ofOption .text c.partialsDir),
    ("output_dir", ofOption (fun p => .text p.text) c.outputDir),
    ("extension", .text c.extension),
    ("header", .text c.header),
    ("context", contextDatum c.context),
    ("workers", ofOption .int c.workers),
    ("include_ignored", .bool c.includeIgnored),
    ("verbose", .bool c.verbose)]

/-- The entries of a context with those of another written into it. -/
def mergeContext (context : List (String × Datum)) (more : Datum.Entries) : Datum :=
  .map (Datum.Entries.update (context.map fun e => (.text e.1, e.2)) more)

/-- Why a configuration cannot be overridden. -/
inductive OverrideError where
  /-- A field breaks a rule. -/
  | invalid (complaints : List Complaint)
  /-- The context to be merged in is no map. -/
  | contextNotMap
  deriving DecidableEq, Repr

/-- The overrides that say something: nothing overrides nothing. -/
def activeOverrides (overrides : Fields) : Fields :=
  overrides.filter fun o => match o.2 with
    | .null => false
    | _ => true

/-- The configuration with some fields replaced; nothing if there is nothing
to replace. A context is merged into the one that is there. -/
def override? (c : Config) (overrides : Fields) : Except OverrideError (Option Config) := do
  let update := activeOverrides overrides
  if update.isEmpty then return none
  let start ← match update.lookup "context" with
    | none => pure c.fields
    | some (.map es) => pure (setField c.fields "context" (mergeContext c.context es))
    | some _ => throw .contextNotMap
  let rest := update.filter (·.1 != "context")
  let fields := rest.foldl (fun fs o => setField fs o.1 o.2) start
  match ofFields fields with
  | .ok c' => return some c'
  | .error cs => throw (.invalid cs)

/-- The configuration with some fields replaced. -/
def override (c : Config) (overrides : Fields) : Except OverrideError Config :=
  (c.override? overrides).map (·.getD c)

theorem override_of_all_null (c : Config) (overrides : Fields)
    (h : ∀ o ∈ overrides, o.2 = .null) : c.override overrides = .ok c := by
  have : activeOverrides overrides = [] := by
    rw [activeOverrides, List.filter_eq_nil_iff]
    intro o ho
    simp [h o ho]
  simp [override, override?, this]
  rfl

end Config

end Stencil
