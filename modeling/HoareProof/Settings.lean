import HoareProof.Derivation.Check
import HoareProof.Disk
import HoareProof.Query
import HoareProof.Text.Uppercase
import HoareProof.Yaml.Document

namespace HoareProof

/-!
Settings of a project, from the nearest settings file.  A file that is missing,
malformed, or no mapping gives the defaults, and so does a single value that
makes no sense.
-/

inductive OutputFormat where
  | pretty
  | json
deriving DecidableEq, Repr

def OutputFormat.name : OutputFormat -> String
  | .pretty => "pretty"
  | .json => "json"

def OutputFormat.ofName? (name : String) : Option OutputFormat :=
  [OutputFormat.pretty, .json].find? fun format => format.name == name

structure Settings where
  queryBudget : Int
  boundary : Derivation.Boundary
  loopExit : Bool
  outputFormat : OutputFormat
  logLevel : String
  workers : Int

/-- Why settings cannot be had at all. -/
inductive SettingsError where
  | file (name : String) (error : DiskError)
  | numeral (error : NumeralError)
  | scalar (fault : Yaml.Fault)
  | infinite
  | undisplayable

def SettingsError.message : SettingsError -> String
  | .file name error => error.message name
  | .numeral error => error.message
  | .scalar fault => fault.message
  | .infinite => "cannot convert float infinity to integer"
  | .undisplayable => Data.undisplayableMessage

namespace Settings

/-- The settings without a file. -/
def standard : Settings :=
  ⟨Query.defaultBudget, .structural, false, .pretty, "WARNING", 2⟩

def strictness (settings : Settings) : Derivation.Strictness :=
  ⟨settings.boundary, settings.loopExit⟩

/-- The names of settings files, the preferred one first. -/
def fileNames : List String := [
  ".hoaretreerc.yml", ".hoaretreerc.yaml", ".hoaretreerc.json", "hoaretree.config.yml",
  "hoaretree.config.json"]

/-- The whole number that a value stands for, if any.  An infinite double is an
error. -/
def wholeValue? : Data -> Except SettingsError (Option Int)
  | .bool value => .ok (some (if value then 1 else 0))
  | .whole value => .ok (some value)
  | .double value =>
    match value.truncate? with
    | some whole => .ok (some whole)
    | none => .error .infinite
  | .text value => .ok (Numeral.integer? value)
  | .bytes values =>
    .ok (if values.all (· < 0x80) then Numeral.integer? (String.ofList (values.map Char.ofNat))
      else none)
  | _ => .ok none

/-- A positive setting: at least one, and the default if the value makes no
sense. -/
def positive (default : Int) : Option Data -> Except SettingsError Int
  | none => .ok default
  | some value => do
    let whole ← wholeValue? value
    return match whole with
      | some n => max 1 n
      | none => default

def boundaryOf (default : Derivation.Boundary) : Option Data -> Derivation.Boundary
  | some (.text name) =>
    if name = Derivation.Boundary.structural.name then .structural
    else if name = Derivation.Boundary.normalized.name then .normalized
    else default
  | _ => default

def formatOf (default : OutputFormat) : Option Data -> OutputFormat
  | some (.text name) => (OutputFormat.ofName? name).getD default
  | _ => default

/-- The level that a value names: its display in upper case. -/
def levelOf (default : String) : Option Data -> Except SettingsError String
  | none => .ok default
  | some value =>
    if value.isDisplayable then .ok (Text.toUppercase value.display) else .error .undisplayable

/-- The values of a document by their keys.  The outline of a value has nothing
in the places of its parts. -/
structure Entries where
  outline? : String -> Option Data
  value? : String -> Option Data

def Entries.ofJson (document : Json) : Entries :=
  let value? (key : String) : Option Data :=
    match document with
    | .object _ => (document.field? key).map Data.ofJson
    | _ => none
  ⟨value?, value?⟩

def Entries.ofYaml (document : Yaml.Document) : Entries :=
  ⟨fun key => (document.find? key).map document.values.outline,
    fun key => (document.find? key).map document.values.data⟩

/-- The settings among the values of a document. -/
def ofEntries (entries : Entries) : Except SettingsError Settings := do
  let budget ← positive standard.queryBudget (entries.outline? "oracle_timeout_ms")
  let level ← levelOf standard.logLevel (entries.value? "log_level")
  let workers ← positive standard.workers (entries.outline? "max_workers")
  return {
    queryBudget := budget
    boundary := boundaryOf standard.boundary (entries.outline? "boundary_equality")
    loopExit := ((entries.outline? "check_loop_exit").map Data.isTruthy).getD standard.loopExit
    outputFormat := formatOf standard.outputFormat (entries.outline? "output_format")
    logLevel := level
    workers := workers }

/-- The settings in the text of a file.  A malformed one gives the defaults. -/
def ofText (name text : String) : Except SettingsError Settings :=
  if name.endsWith ".json" then
    match Json.ofText text with
    | .ok document => ofEntries (.ofJson document)
    | .error (.numeral e) => .error (.numeral e)
    | .error (.malformed _ _ _) => .ok standard
  else
    match Yaml.Document.ofText? text with
    | .ok (some document) => ofEntries (.ofYaml document)
    | .ok none => .ok standard
    | .error .malformed => .ok standard
    | .error fault => .error (.scalar fault)

def load (disk : Disk) (name : String) : Except SettingsError Settings :=
  match disk.read name with
  | .ok text => ofText name text
  | .error (.refused _) => .ok standard
  | .error e => .error (.file name e)

def find? (disk : Disk) (directory : String) : Option Place :=
  disk.nearest? fileNames (disk.lexicalPlace directory)

def loadNearest (disk : Disk) (directory : String) : Except SettingsError Settings :=
  match find? disk directory with
  | some place => load disk (Disk.absoluteName place)
  | none => .ok standard

end Settings
end HoareProof
