import Stencil.Config.Schema

/-!
# Settings of the Surroundings

What the environment of a run says: which file configures it, how many renders
may run at once, and how much is reported.

Variables are recognised by a prefix and the name of a setting, in any case of
letters. Of several that differ in case alone the last one counts.

## Main definitions

* `Settings`: The settings.
* `Settings.ofEnvironment`: The settings in an environment, or the complaints.
* `Settings.warns?`: Whether warnings are reported.
-/

namespace Stencil

/-- The settings of the surroundings of a run. -/
structure Settings where
  /-- The file that configures the run. -/
  config : Option Path
  /-- How many renders may run at once. -/
  workers : Option Int
  /-- How much is reported. -/
  level : String
  deriving DecidableEq, Repr

namespace Settings

open Config (Checked)

/-- What the names of variables start with. -/
def leading : String :=
  "sqlweld_"

/-- The value of a setting in an environment. -/
def find? (environment : List (String × String)) (name : String) : Option String :=
  ((environment.reverse.find? fun v => Text.toLower v.1 == leading ++ name)).map Prod.snd

/-- Reads a setting that may be missing. -/
def readSetting {α : Type} (environment : List (String × String)) (name : String)
    (read : List String → Datum → Checked α) : Checked (Option α) :=
  match find? environment name with
  | none => .ok none
  | some s => (read [name] (.text s)).map some

/-- The settings in an environment, or the complaints about them. -/
def ofEnvironment (environment : List (String × String)) : Checked Settings :=
  (Checked.apply · (readSetting environment "log_level" Config.readText)) <|
  (Checked.apply · (readSetting environment "workers" (Config.readIntFrom 1))) <|
  (Checked.apply · (readSetting environment "config" Config.readPath)) <|
  .ok fun config workers level => ⟨config, workers, level.getD "WARNING"⟩

end Settings

/-- The words for how much is reported, and whether warnings are. -/
def severityWords : List (String × Bool) :=
  [("CRITICAL", false), ("FATAL", false), ("ERROR", false), ("WARN", true), ("WARNING", true),
    ("INFO", true), ("DEBUG", true), ("NOTSET", true)]

/-- Whether warnings are reported; nothing if the word says nothing. -/
def Settings.warns? (s : Settings) : Option Bool :=
  severityWords.lookup (Text.toUpper s.level)

end Stencil
