import StyleTemplate.FileTree
import StyleTemplate.Json
import StyleTemplate.Resolver
import StyleTemplate.Settings
import StyleTemplate.Value.Merge

/-! The project that commands work on: a directory with settings, and files of values that are
layered over the variables of the settings. -/

namespace StyleTemplate

/-- A project: its directory, the files there are, and the settings of the user. -/
structure Project where
  root : Path
  files : FileTree
  userSettings : Option String
deriving Inhabited

/-- Why a command stops. -/
inductive CommandError where
  | settings (cause : SettingsError)
  | unreadable (path : Path)
  | malformedToml (path : Path)
  | malformedJson (path : Path)
  | notTable (path : Path) (found : Kind)
  | directoryNotMade (path : Path)
  | unwritable (path : Path)
deriving DecidableEq, Repr

def CommandError.message : CommandError → String
  | settings _ => "Failed to load settings"
  | unreadable path => "Failed to read " ++ path.text
  | malformedToml path => "Failed to parse " ++ path.text ++ " as TOML"
  | malformedJson path => "Failed to parse " ++ path.text ++ " as JSON"
  | notTable path found => path.text ++ " must contain a table of values, found " ++ found.name
  | directoryNotMade path => "Failed to create " ++ path.text
  | unwritable path => "Failed to write " ++ path.text

namespace Project

/-- A path from the directory of the project. -/
def absolute (p : Project) (path : Path) : Path := p.root.join path

/-- A file of settings; its name may have the extension twice. -/
def settingsFile? (p : Project) (name : String) : Option String :=
  (p.files.read? (p.absolute ⟨name⟩)).orElse fun _ => p.files.read? (p.absolute ⟨name ++ ".toml"⟩)

/-- The layers of settings, the lowest one first: those of the user and two files of the project. -/
def layers (p : Project) : List String :=
  [p.userSettings, p.settingsFile? ".dcss.toml", p.settingsFile? "dcss.toml"].filterMap id

def settings (p : Project) : Except CommandError Settings :=
  match Settings.ofLayers p.layers with
  | .ok settings => .ok settings
  | .error cause => .error (.settings cause)

/-- The value in a file: TOML by its extension, and otherwise JSON. -/
def readValue (p : Project) (path : Path) : Except CommandError Value :=
  match p.files.read? path with
  | none => .error (.unreadable path)
  | some text =>
    if path.extension? = some "toml" then
      match Toml.read? text with
      | some v => .ok v
      | none => .error (.malformedToml path)
    else
      match Json.read? text with
      | some v => .ok v
      | none => .error (.malformedJson path)

/-- The layer in a file of values, which must be a mapping. -/
def readLayer (p : Project) (path : Path) : Except CommandError Value :=
  match p.readValue path with
  | .error e => .error e
  | .ok (.mapping entries) => .ok (.mapping entries)
  | .ok v => .error (.notTable path v.kind)

/-- The variables of the settings with files of values over them, the last one on top. -/
def values (p : Project) (settings : Settings) (layers : List Path) : Except CommandError Value :=
  match layers.mapM p.readLayer with
  | .ok values => .ok (Value.mergeAll (.mapping settings.bindings) values)
  | .error e => .error e

def resolver (p : Project) (settings : Settings) (layers : List Path) :
    Except CommandError Resolver :=
  match p.values settings layers with
  | .ok v => .ok (.ofValue v)
  | .error e => .error e

/-- The files of values for a stylesheet of the settings: its own, and the extra one over it. -/
def layersOf (p : Project) (entry : StylesheetEntry) (extra : Option Path) : List Path :=
  (entry.valuesPath? p.root).toList ++ (extra.map p.absolute).toList

end Project

/-- What a command does not do, when there is nothing to do it with. -/
inductive Activity where
  | compile | check
deriving DecidableEq, Repr

def Activity.name : Activity → String
  | compile => "compile"
  | check => "check"

/-- How a command ends. -/
inductive Ending where
  | done
  | nothingTo (activity : Activity)
  | notCompiled (count : Nat)
  | found (errors files : Nat)
  | stopped (error : CommandError)
deriving DecidableEq, Repr

namespace Ending

private def counted (n : Nat) (noun : String) : String :=
  toString n ++ " " ++ noun ++ (if n = 1 then "" else "s")

/-- The closing line, if there is one. -/
def message? : Ending → Option String
  | done => none
  | nothingTo activity => some ("No stylesheets to " ++ activity.name ++ ".")
  | notCompiled count => some ("Failed to compile " ++ counted count "stylesheet" ++ ".")
  | found errors files =>
    some ("Found " ++ counted errors "error" ++ " in " ++ counted files "file" ++ ".")
  | stopped error => some ("Error: " ++ error.message)

def succeeds : Ending → Bool
  | done | nothingTo _ => true
  | notCompiled _ | found .. | stopped _ => false

end Ending

/-- What a command does: the lines it prints, what it tells, the files there are afterwards, and how
it ends. -/
structure Run where
  printed : List String
  events : List Event
  files : FileTree
  ending : Ending

end StyleTemplate
