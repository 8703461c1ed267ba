import StyleTemplate.Command.Project
import StyleTemplate.Event.Compilation
import StyleTemplate.FileTree.Walk
import StyleTemplate.Report

/-! Checking stylesheets: every problem is reported with its severity, and nothing is written. -/

namespace StyleTemplate

/-- What to check, and which codes to report as errors or not at all. -/
structure CheckOptions where
  paths : List Path
  values : Option Path
  select : List String
  ignore : List String
deriving DecidableEq, Repr, Inhabited

/-- A stylesheet to check, and the files of values for it. -/
structure CheckTarget where
  path : Path
  layers : List Path
deriving DecidableEq, Repr

/-- The diagnostics of a source in the order of their places. -/
def checkSource (source : String) (resolver : Resolver) (filters : Filters) : List Diagnostic :=
  (compile source resolver filters).diagnostics.mergeSort fun a b => a.span.start ≤ b.span.start

/-- The report of a diagnostic, unless its severity is off. -/
def Diagnostic.report? (d : Diagnostic) (severity : Severity) (source path : String) :
    Option Report :=
  severity.heading?.map fun heading =>
    { heading, code := d.code, message := d.message, path, source, span := d.span
      label := d.label, notes := d.help?.toList }

/-- What was found in checked stylesheets: the reports, what was told, how many errors there are and
how many stylesheets have one, and what stopped the check. -/
structure Findings where
  reports : List Report
  events : List Event
  errors : Nat
  files : Nat
  error : Option CommandError

namespace CheckOptions

/-- The severities of the settings under those of the command: a code that is both selected and
ignored is ignored. -/
def severities (o : CheckOptions) (settings : Settings) : SeverityRules :=
  let selected := o.select.foldl (fun rules code => rules.set code .error) settings.severities
  o.ignore.foldl (fun rules code => rules.set code .off) selected

/-- The paths under which stylesheets are looked for. -/
def roots (o : CheckOptions) (p : Project) : List Path :=
  if o.paths.isEmpty then [p.root] else o.paths.map p.absolute

/-- Whether the stylesheets of the settings are checked. -/
def isConfigured (o : CheckOptions) (settings : Settings) : Bool :=
  o.paths.isEmpty && !settings.stylesheets.isEmpty

/-- The stylesheets to check. -/
def targets (o : CheckOptions) (p : Project) (settings : Settings) : List CheckTarget :=
  if o.isConfigured settings then
    settings.stylesheets.map fun entry =>
      ⟨entry.sourcePath p.root, p.layersOf entry o.values⟩
  else
    (p.files.stylesheets (o.roots p)).map fun path =>
      ⟨path, (o.values.map p.absolute).toList⟩

/-- What is told while stylesheets are looked for. -/
def searchEvents (o : CheckOptions) (p : Project) (settings : Settings) : List Event :=
  if o.isConfigured settings then [] else p.files.walkEvents (o.roots p)

/-- The path of a stylesheet as it is shown: from the directory of the project, if it is there. -/
def shownPath (p : Project) (path : Path) : Path := (path.relativeTo? p.root).getD path

/-- The source of a target and the resolver for it. -/
def prepare (p : Project) (settings : Settings) (target : CheckTarget) :
    Except CommandError (String × Resolver) :=
  match p.files.read? target.path with
  | none => .error (.unreadable target.path)
  | some source =>
    match p.resolver settings target.layers with
    | .error error => .error error
    | .ok resolver => .ok (source, resolver)

/-- The reports on one stylesheet. -/
def reportsOn (rules : SeverityRules) (source path : String) (diagnostics : List Diagnostic) :
    List Report :=
  diagnostics.filterMap fun d => d.report? (rules.severity d.code) source path

/-- How many diagnostics are errors. -/
def countErrors (rules : SeverityRules) (diagnostics : List Diagnostic) : Nat :=
  diagnostics.countP fun d => rules.severity d.code = .error

/-- Checks targets one after the other, up to the first that cannot be read. -/
def checkEach (p : Project) (settings : Settings) (rules : SeverityRules) :
    List CheckTarget → Findings
  | [] => ⟨[], [], 0, 0, none⟩
  | target :: targets =>
    match prepare p settings target with
    | .error error => ⟨[], [], 0, 0, some error⟩
    | .ok (source, resolver) =>
      let diagnostics := checkSource source resolver Filter.builtins
      let errors := countErrors rules diagnostics
      let rest := checkEach p settings rules targets
      { reports := reportsOn rules source (shownPath p target.path).text diagnostics ++ rest.reports
        events := (compile source resolver Filter.builtins).events source ++ rest.events
        errors := errors + rest.errors
        files := (if 0 < errors then 1 else 0) + rest.files
        error := rest.error }

/-- How a check ends. -/
def endingOf (found : Findings) : Ending :=
  match found.error with
  | some error => .stopped error
  | none => if 0 < found.errors then .found found.errors found.files else .done

/-- Runs the command. An empty line follows each report. -/
def run (o : CheckOptions) (p : Project) : Run :=
  match p.settings with
  | .error error => ⟨[], [], p.files, .stopped error⟩
  | .ok settings =>
    let told := settings.loadedEvent :: o.searchEvents p settings
    match o.targets p settings with
    | [] => ⟨[], told, p.files, .nothingTo .check⟩
    | targets =>
      let found := checkEach p settings (o.severities settings) targets
      ⟨found.reports.map (·.text ++ "\n"), told ++ found.events, p.files, endingOf found⟩

end CheckOptions

end StyleTemplate
