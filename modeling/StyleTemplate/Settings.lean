import StyleTemplate.Event
import StyleTemplate.Path
import StyleTemplate.Settings.Layer
import StyleTemplate.Severity
import StyleTemplate.Text.Case
import StyleTemplate.Toml

/-! The settings of a project. They are read from layers of TOML, the lowest one first. Scalars are
taken generously: a flag may be a number or a word, and a text may be a number or a truth value. -/

namespace StyleTemplate

/-- A stylesheet that the settings list. -/
structure StylesheetEntry where
  handle : String
  path : Path
  print : Bool
  minify : Bool
  cache : Bool
  values : Option Path
deriving DecidableEq, Repr

/-- The settings of a project; the bindings are the values of its variables. -/
structure Settings where
  debug : Bool
  outDir : Path
  bindings : Entries none
  stylesheets : List StylesheetEntry
  severities : SeverityRules

/-- Why settings are refused: a layer is no TOML or the layers together have the wrong form, or two
stylesheets share a handle. -/
inductive SettingsError where
  | malformed
  | duplicateHandle (handle : String)
deriving DecidableEq, Repr

def SettingsError.message : SettingsError → String
  | malformed => "Configuration build/deserialize error"
  | duplicateHandle handle => "Duplicate stylesheet handle '" ++ handle ++ "'"

namespace StylesheetEntry

/-- The source file, from the directory of the project. -/
def sourcePath (entry : StylesheetEntry) (project : Path) : Path := project.join entry.path

/-- The file of values, from the directory of the project. -/
def valuesPath? (entry : StylesheetEntry) (project : Path) : Option Path :=
  entry.values.map project.join

end StylesheetEntry

namespace Settings

/-- The words for true. -/
def yes : List String := ["true", "1", "on", "yes"]

/-- The words for false. -/
def no : List String := ["false", "0", "off", "no"]

/-- A flag: a truth value, a number that is or is not zero, or a word in any case. -/
def flag? : Value → Option Bool
  | .boolean b => some b
  | .integer n => some (n != 0)
  | .float x => some (x != 0)
  | .string s =>
    let word := String.ofList (Text.lower s.toList)
    if yes.contains word then some true
    else if no.contains word then some false
    else none
  | _ => none

/-- A text: a string, or the text of a truth value or number. -/
def text? : Value → Option String
  | .undefined => none
  | v => v.render?

/-- A setting that may be missing. -/
def optional {α : Type} (absent : α) (read? : Value → Option α) : Option Value → Option α
  | none => some absent
  | some v => read? v

/-- A record: a mapping of its fields, or a sequence of them in order. -/
def field? (record : Value) : Option (String → Nat → Option Value) :=
  match record with
  | .mapping entries => some fun name _ => entries.get? name
  | .sequence items => some fun _ place => items[place]?
  | _ => none

def entry? (v : Value) : Option StylesheetEntry :=
  match field? v with
  | none => none
  | some field => do
    let handle ← (field "handle" 0).bind text?
    let path ← (field "path" 1).bind text?
    let print ← optional true flag? (field "print" 2)
    let minify ← optional false flag? (field "minify" 3)
    let cache ← optional false flag? (field "cache" 4)
    let values ← match field "values" 5 with
      | none | some .undefined => some none
      | some v => (text? v).map some
    return ⟨handle, ⟨path⟩, print, minify, cache, values.map Path.mk⟩

def entries? : Value → Option (List StylesheetEntry)
  | .sequence items => items.mapM entry?
  | _ => none

mutual
/-- Whether no part of a value is undefined. -/
def isDefined : Value → Bool
  | .undefined => false
  | .sequence items => areDefined items
  | .mapping entries => haveDefined entries
  | _ => true

def areDefined : List Value → Bool
  | [] => true
  | v :: vs => isDefined v && areDefined vs

def haveDefined {previous : Option String} : Entries previous → Bool
  | .nil => true
  | .cons _ _ v rest => isDefined v && haveDefined rest
end

/-- Variables, all of them defined. -/
def bindings? : Value → Option (Entries none)
  | .mapping entries => if haveDefined entries then some entries else none
  | _ => none

/-- A severity: its name, or a mapping with its name as the only key and a value that `accepts`
allows. -/
def severity? (accepts : Value → Bool) : Value → Option Severity
  | .string s => Severity.ofName? s
  | .mapping entries =>
    match entries.toList with
    | [(name, v)] => if accepts v then Severity.ofName? name else none
    | _ => none
  | _ => none

/-- Severities by pattern. -/
def patterns? (accepts : Value → Bool) : Value → Option SeverityRules
  | .mapping entries =>
    let pairs? := entries.toList.mapM fun (entry : String × Value) =>
      (severity? accepts entry.2).map fun severity => (entry.1, severity)
    pairs?.map fun pairs => ⟨.ofList pairs⟩
  | _ => none

/-- The rules of a record with the severities as its only field. -/
def severityRules? (accepts : Value → Bool) (v : Value) : Option SeverityRules :=
  match field? v with
  | none => none
  | some field => optional .empty (patterns? accepts) (field "severity" 0)

/-- The settings that the layers amount to. -/
def ofValue? (v : Value) : Option Settings :=
  match v with
  | .mapping entries => do
    let debug ← optional false flag? (entries.get? "debug")
    let outDir ← optional "dist" text? (entries.get? "out_dir")
    let bindings ← optional .nil bindings? (entries.get? "variables")
    let stylesheets ← optional [] entries? (entries.get? "stylesheets")
    let severities ← optional .empty (severityRules? fun _ => true) (entries.get? "diagnostics")
    return ⟨debug, ⟨outDir⟩, bindings, stylesheets, severities⟩
  | _ => none

/-- The first handle that was there before. -/
def duplicate? (seen : List String) : List StylesheetEntry → Option String
  | [] => none
  | entry :: entries =>
    if seen.contains entry.handle then some entry.handle
    else duplicate? (entry.handle :: seen) entries

/-- Settings with distinct handles. -/
def validate (settings : Settings) : Except SettingsError Settings :=
  match duplicate? [] settings.stylesheets with
  | some handle => .error (.duplicateHandle handle)
  | none => .ok settings

/-- The settings in layers of TOML, the lowest one first. -/
def ofLayers (layers : List String) : Except SettingsError Settings :=
  match layers.mapM Toml.read? with
  | none => .error .malformed
  | some values =>
    match ofValue? (values.foldl addLayer (.mapping .nil)) with
    | none => .error .malformed
    | some settings => settings.validate

/-- What is told when settings have been read. -/
def loadedEvent (settings : Settings) : Event :=
  ⟨.debug, "dcss_conf", "loaded settings",
    [("stylesheets", .number settings.stylesheets.length),
      ("variables", .number settings.bindings.toList.length)]⟩

end Settings

/-- Whether a value is an empty mapping or sequence. -/
def Value.isHollow : Value → Bool
  | .mapping entries => entries.toList.isEmpty
  | .sequence items => items.isEmpty
  | _ => false

/-- The rules that a document of its own gives under `severity`. -/
def SeverityRules.ofToml? (text : String) : Option SeverityRules :=
  (Toml.read? text).bind (Settings.severityRules? Value.isHollow)

end StyleTemplate
