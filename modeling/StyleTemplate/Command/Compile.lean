import StyleTemplate.Command.Project
import StyleTemplate.Event.Compilation
import StyleTemplate.FileTree.Walk

/-! Compiling stylesheets: those of the settings, or those found under paths. -/

namespace StyleTemplate

/-- What to compile, and how. -/
structure CompileOptions where
  paths : List Path
  values : Option Path
  minify : Bool
  outDir : Option Path
deriving DecidableEq, Repr, Inhabited

namespace CompileOptions

/-- The stylesheet of an entry of the settings. With a directory for output nothing is printed. -/
def stylesheetOf (o : CompileOptions) (p : Project) (entry : StylesheetEntry) : Stylesheet where
  handle := entry.handle
  source := .path (entry.sourcePath p.root)
  print := entry.print && o.outDir.isNone
  minify := entry.minify || o.minify
  cache := entry.cache

/-- An engine with the stylesheets of the settings. -/
def configuredEngine (o : CompileOptions) (p : Project) (settings : Settings) :
    Except CommandError Engine :=
  settings.stylesheets.foldlM (fun (e : Engine) entry =>
    (p.resolver settings (p.layersOf entry o.values)).map fun resolver =>
      (e.setResolver entry.handle resolver).enqueue (o.stylesheetOf p entry)) .withBuiltins

/-- The handle of a file: its name without the extension. -/
def handleOf (path : Path) : String := path.stem?.getD path.text

/-- The first of the files with a handle. -/
def holder? (handle : String) (paths : List Path) : Option Path :=
  paths.find? (handleOf · = handle)

/-- Of files with the same handle the first one is compiled. -/
def distinct : List Path → List Path → List Path
  | _, [] => []
  | seen, path :: paths =>
    match holder? (handleOf path) seen with
    | some _ => distinct seen paths
    | none => path :: distinct (seen ++ [path]) paths

/-- What is told about files whose handle another one has. -/
def skipEvents : List Path → List Path → List Event
  | _, [] => []
  | seen, path :: paths =>
    match holder? (handleOf path) seen with
    | some existing =>
      ⟨.warn, "dcss::commands::compile",
        "Skipping " ++ path.text ++ ": " ++ existing.text ++ " already compiles to '" ++
          handleOf path ++ "'", []⟩ :: skipEvents seen paths
    | none => skipEvents (seen ++ [path]) paths

/-- The stylesheet of a file. -/
def stylesheetAt (o : CompileOptions) (path : Path) : Stylesheet where
  handle := handleOf path
  source := .path path
  print := o.outDir.isNone
  minify := o.minify

/-- The paths under which stylesheets are looked for. -/
def roots (o : CompileOptions) (p : Project) : List Path := o.paths.map p.absolute

/-- An engine with the stylesheets found under the paths. All share one resolver. -/
def foundEngine (o : CompileOptions) (p : Project) (resolver : Resolver) : Engine :=
  (distinct [] (p.files.stylesheets (o.roots p))).foldl (fun e path =>
    (e.setResolver (handleOf path) resolver).enqueue (o.stylesheetAt path)) .withBuiltins

/-- The engine to compile with, and what is told while it is made ready. -/
def engine (o : CompileOptions) (p : Project) (settings : Settings) :
    Except CommandError (Engine × List Event) :=
  if o.paths.isEmpty then
    match o.configuredEngine p settings with
    | .ok e => .ok (e, [])
    | .error error => .error error
  else
    match p.resolver settings ((o.values.map p.absolute).toList) with
    | .error error => .error error
    | .ok resolver =>
      let roots := o.roots p
      .ok (o.foundEngine p resolver,
        p.files.walkEvents roots ++ skipEvents [] (p.files.stylesheets roots))

/-- The directory for output. -/
def target (o : CompileOptions) (p : Project) (settings : Settings) : Path :=
  p.absolute (o.outDir.getD settings.outDir)

/-- The file of a handle in the directory for output. -/
def fileOf (directory : Path) (handle : String) : Path := directory.join ⟨handle ++ ".css"⟩

/-- Writes a body into the directory for output, which is made if need be. -/
def writeBody (directory : Path) (files : FileTree) (artifact : Artifact) :
    Except CommandError FileTree :=
  match files.makeDirectories? directory with
  | none => .error (.directoryNotMade directory)
  | some files =>
    let path := fileOf directory artifact.handle
    match files.write? path artifact.body with
    | none => .error (.unwritable path)
    | some files => .ok files

/-- Writes bodies one after the other: what is told, the files there are, and what stopped it. -/
def writeBodies (directory : Path) (files : FileTree) :
    List Artifact → List Event × FileTree × Option CommandError
  | [] => ([], files, none)
  | artifact :: artifacts =>
    match writeBody directory files artifact with
    | .error error => ([], files, some error)
    | .ok files =>
      let (events, files, error) := writeBodies directory files artifacts
      let path := fileOf directory artifact.handle
      (⟨.info, "dcss::commands::compile", "Wrote " ++ path.text, []⟩ :: events, files, error)

/-- The bodies among the results. -/
def artifacts (results : List (Except RenderError Artifact)) : List Artifact :=
  results.filterMap Except.toOption

/-- How compiling ends when nothing stopped it. -/
def endingOf (results : List (Except RenderError Artifact)) : Ending :=
  let compiled := (artifacts results).length
  let failed := results.length - compiled
  if 0 < failed then .notCompiled failed
  else if compiled = 0 then .nothingTo .compile
  else .done

/-- Renders everything with an engine, prints the bodies that are to be printed, and writes the
others. -/
def deliver (e : Engine) (files : FileTree) (directory : Path) : Run :=
  let (printed, afterwards) := e.renderAll files .printed
  let (external, _) := afterwards.renderAll files .external
  let (written, filesAfter, error) := writeBodies directory files (artifacts external)
  { printed := (artifacts printed).map (·.body)
    events := e.renderAllEvents files .printed ++ afterwards.renderAllEvents files .external ++
      written
    files := filesAfter
    ending := match error with
      | some error => .stopped error
      | none => endingOf (printed ++ external) }

/-- Runs the command. -/
def run (o : CompileOptions) (p : Project) : Run :=
  match p.settings with
  | .error error => ⟨[], [], p.files, .stopped error⟩
  | .ok settings =>
    match o.engine p settings with
    | .error error => ⟨[], [settings.loadedEvent], p.files, .stopped error⟩
    | .ok (e, events) =>
      let delivered := deliver e p.files (o.target p settings)
      { delivered with events := settings.loadedEvent :: events ++ delivered.events }

end CompileOptions

end StyleTemplate
