import Mathlib.Data.List.Basic
import StyleTemplate.Command
import StyleTemplate.Proofs.Command.Delivery
import StyleTemplate.Proofs.Layers

/-! Compiling the stylesheets of the settings. Each entry is delivered once, as what its source and its
own values make of it; entries that fail are counted and change nothing about the others
(`CompileOptions.compile_configured`). -/

namespace StyleTemplate

/-! ### Handles -/

private theorem nodup_of_duplicate? {entries : List StylesheetEntry} {seen : List String}
    (h : Settings.duplicate? seen entries = none) :
    (entries.map (·.handle)).Nodup ∧ ∀ entry ∈ entries, entry.handle ∉ seen := by
  induction entries generalizing seen with
  | nil => exact ⟨.nil, by simp⟩
  | cons entry entries ih =>
    rw [Settings.duplicate?] at h
    split at h
    · exact nomatch h
    · rename_i hnew
      obtain ⟨hdistinct, hrest⟩ := ih h
      refine ⟨List.nodup_cons.mpr ⟨fun hmem => ?_, hdistinct⟩, fun other hother => ?_⟩
      · obtain ⟨other, hother, heq⟩ := List.mem_map.mp hmem
        exact hrest other hother (heq ▸ List.mem_cons_self)
      · rcases List.mem_cons.mp hother with rfl | hother
        · simpa using hnew
        · exact fun hmem => hrest other hother (List.mem_cons_of_mem _ hmem)

/-- In settings that are accepted no two stylesheets share a handle. -/
theorem Project.nodup_handles {p : Project} {settings : Settings} (h : p.settings = .ok settings) :
    (settings.stylesheets.map (·.handle)).Nodup := by
  unfold Project.settings Settings.ofLayers at h
  split at h
  · rename_i accepted hlayers
    obtain rfl := Except.ok.inj h
    split at hlayers
    · exact nomatch hlayers
    · split at hlayers
      · exact nomatch hlayers
      · unfold Settings.validate at hlayers
        split at hlayers
        · exact nomatch hlayers
        · rename_i hduplicate
          obtain rfl := Except.ok.inj hlayers
          exact (nodup_of_duplicate? hduplicate).1
  · exact nomatch h

/-- Settings that pass a test are accepted. -/
theorem Project.exists_settings {p : Project} {test : Settings → Bool}
    (h : p.settings.toOption.any test = true) :
    ∃ settings, p.settings = .ok settings ∧ test settings = true := by
  cases hsettings : p.settings with
  | error error =>
    rw [hsettings] at h
    exact nomatch h
  | ok settings =>
    rw [hsettings] at h
    exact ⟨settings, rfl, h⟩

/-! ### The values of an entry -/

namespace Project

/-- The values in a file put over others, if there is a file. -/
def overlaid? (p : Project) (base : Value) : Option Path → Option Value
  | none => some base
  | some path => (p.readLayer (p.absolute path)).toOption.map base.merge

/-- The variables of the settings, the entry's own values over them, and the extra ones on top. -/
def layeredValues? (p : Project) (settings : Settings) (entry : StylesheetEntry)
    (extra : Option Path) : Option Value :=
  (p.overlaid? (.mapping settings.bindings) entry.values).bind (p.overlaid? · extra)

variable {p : Project} {settings : Settings} {entry : StylesheetEntry} {extra : Option Path}

private theorem mapM_readLayer_of_overlaid? {base v : Value} {file : Option Path}
    (h : p.overlaid? base file = some v) :
    ∃ layers, (file.map p.absolute).toList.mapM p.readLayer = .ok layers ∧
      base.mergeAll layers = v := by
  cases file with
  | none => exact ⟨[], rfl, Option.some.inj h⟩
  | some path =>
    rw [overlaid?] at h
    cases hread : p.readLayer (p.absolute path) with
    | error error =>
      rw [hread] at h
      exact nomatch h
    | ok layer =>
      rw [hread] at h
      refine ⟨[layer], ?_, Option.some.inj h⟩
      rw [Option.map_some, Option.toList_some, List.mapM_cons, hread]
      rfl

/-- These are the values that a resolver for the entry looks variables up in. -/
theorem resolver_of_layeredValues? {v : Value} (h : p.layeredValues? settings entry extra = some v) :
    p.resolver settings (p.layersOf entry extra) = .ok (.ofValue v) := by
  obtain ⟨below, hown, hextra⟩ := Option.bind_eq_some_iff.mp h
  obtain ⟨own, howns, rfl⟩ := mapM_readLayer_of_overlaid? hown
  obtain ⟨top, htop, rfl⟩ := mapM_readLayer_of_overlaid? hextra
  have hlayers : (p.layersOf entry extra).mapM p.readLayer = .ok (own ++ top) := by
    have hpath : entry.valuesPath? p.root = entry.values.map p.absolute := rfl
    rw [layersOf, List.mapM_append, hpath, howns, htop]
    rfl
  rw [resolver, values, hlayers]
  simp only [Value.mergeAll_append]

private theorem exists_of_mapM {α β ε : Type} {f : α → Except ε β} {xs : List α} {ys : List β}
    (h : xs.mapM f = .ok ys) : ∀ x ∈ xs, ∃ y, f x = .ok y := by
  induction xs generalizing ys with
  | nil => simp
  | cons x xs ih =>
    rw [List.mapM_cons] at h
    cases hx : f x with
    | error error =>
      rw [hx] at h
      exact nomatch h
    | ok y =>
      cases hxs : xs.mapM f with
      | error error =>
        rw [hx, hxs] at h
        exact nomatch h
      | ok ys => exact List.forall_mem_cons.mpr ⟨⟨y, hx⟩, ih hxs⟩

private theorem isSome_overlaid? {base : Value} {file : Option Path}
    (h : ∀ path ∈ file, ∃ layer, p.readLayer (p.absolute path) = .ok layer) :
    (p.overlaid? base file).isSome := by
  cases file with
  | none => rfl
  | some path =>
    obtain ⟨layer, hlayer⟩ := h path rfl
    rw [overlaid?, hlayer]
    rfl

/-- Values that give a resolver can be read. -/
theorem isSome_layeredValues? {resolver : Resolver}
    (h : p.resolver settings (p.layersOf entry extra) = .ok resolver) :
    (p.layeredValues? settings entry extra).isSome := by
  have hlayers : ∃ layers, (p.layersOf entry extra).mapM p.readLayer = .ok layers := by
    rw [Project.resolver, values] at h
    cases hlayers : (p.layersOf entry extra).mapM p.readLayer with
    | error error =>
      rw [hlayers] at h
      exact nomatch h
    | ok layers => exact ⟨layers, rfl⟩
  obtain ⟨layers, hlayers⟩ := hlayers
  have hread := exists_of_mapM hlayers
  have hown : ∀ path ∈ entry.values, ∃ layer, p.readLayer (p.absolute path) = .ok layer := by
    intro path hpath
    refine hread _ (List.mem_append_left _ ?_)
    rw [StylesheetEntry.valuesPath?, hpath]
    exact List.mem_singleton_self _
  have hextra : ∀ path ∈ extra, ∃ layer, p.readLayer (p.absolute path) = .ok layer := by
    intro path hpath
    refine hread _ (List.mem_append_right _ ?_)
    rw [hpath]
    exact List.mem_singleton_self _
  have hbelow : (p.overlaid? (.mapping settings.bindings) entry.values).isSome := isSome_overlaid? hown
  obtain ⟨v, hv⟩ := Option.isSome_iff_exists.mp hbelow
  rw [layeredValues?, hv, Option.bind_some]
  exact isSome_overlaid? hextra

end Project

namespace CompileOptions

variable {o : CompileOptions} {p : Project} {settings : Settings}

/-- Whether an entry is printed: it says so, and no directory for output is given. -/
def prints (o : CompileOptions) (entry : StylesheetEntry) : Bool := entry.print && o.outDir.isNone

/-- The body of an entry: its source filled in with its own values, minified if the entry or the
command asks for it. There is none if the source cannot be read. -/
def bodyOf? (o : CompileOptions) (p : Project) (settings : Settings) (entry : StylesheetEntry) :
    Option String :=
  match p.layeredValues? settings entry o.values, p.files.read? (entry.sourcePath p.root) with
  | some values, some source =>
    let filled := (compile source (.ofValue values) Filter.builtins).output
    some (if entry.minify || o.minify then StyleTemplate.minify filled else filled)
  | _, _ => none

/-- The files of the entries that are not printed, in the order of the entries. -/
def outputsOf (o : CompileOptions) (p : Project) (settings : Settings) : List (Path × String) :=
  (settings.stylesheets.filter fun entry => !o.prints entry).filterMap fun entry =>
    (o.bodyOf? p settings entry).map fun body =>
      ((o.target p settings).join ⟨entry.handle ++ ".css"⟩, body)

/-- How many entries fail. -/
def failuresOf (o : CompileOptions) (p : Project) (settings : Settings) : Nat :=
  settings.stylesheets.countP fun entry => (o.bodyOf? p settings entry).isNone

/-- An entry with its values, as it is put into stock. -/
def itemOf (o : CompileOptions) (p : Project) (settings : Settings) (entry : StylesheetEntry) :
    StockItem :=
  ⟨o.stylesheetOf p entry, .ofValue ((p.layeredValues? settings entry o.values).getD .undefined)⟩

private theorem foldlM_configured {entries : List StylesheetEntry} (e : Engine)
    (hvalues : ∀ entry ∈ entries, (p.layeredValues? settings entry o.values).isSome) :
    entries.foldlM (fun (e : Engine) entry =>
        (p.resolver settings (p.layersOf entry o.values)).map fun resolver =>
          (e.setResolver entry.handle resolver).enqueue (o.stylesheetOf p entry)) e =
      .ok ((entries.map (o.itemOf p settings)).foldl Engine.supply e) := by
  induction entries generalizing e with
  | nil => rfl
  | cons entry entries ih =>
    obtain ⟨hentry, htail⟩ := List.forall_mem_cons.mp hvalues
    obtain ⟨v, hv⟩ := Option.isSome_iff_exists.mp hentry
    rw [List.foldlM_cons, Project.resolver_of_layeredValues? hv, List.map_cons, List.foldl_cons]
    have hitem : o.itemOf p settings entry = ⟨o.stylesheetOf p entry, .ofValue v⟩ := by
      rw [itemOf, hv, Option.getD_some]
    rw [hitem]
    exact ih _ htail

/-- With readable values the settings give an engine with one item for each entry. -/
theorem configuredEngine_eq
    (hvalues : ∀ entry ∈ settings.stylesheets,
      (p.layeredValues? settings entry o.values).isSome) :
    o.configuredEngine p settings =
      .ok (.stocked (settings.stylesheets.map (o.itemOf p settings))) :=
  foldlM_configured .withBuiltins hvalues

/-- The settings give an engine only if all values can be read. -/
theorem isSome_of_configuredEngine {e : Engine} (h : o.configuredEngine p settings = .ok e) :
    ∀ entry ∈ settings.stylesheets, (p.layeredValues? settings entry o.values).isSome := by
  rw [configuredEngine] at h
  generalize settings.stylesheets = entries at h ⊢
  generalize Engine.withBuiltins = start at h
  induction entries generalizing start with
  | nil => simp
  | cons entry entries ih =>
    rw [List.foldlM_cons] at h
    cases hresolver : p.resolver settings (p.layersOf entry o.values) with
    | error error =>
      rw [hresolver] at h
      exact nomatch h
    | ok resolver =>
      rw [hresolver] at h
      exact List.forall_mem_cons.mpr ⟨Project.isSome_layeredValues? hresolver, ih _ h⟩

/-- The handles of the items are those of the entries, so they are distinct. -/
theorem nodup_handles_items (hsettings : p.settings = .ok settings) :
    ((settings.stylesheets.map (o.itemOf p settings)).map (·.handle)).Nodup := by
  rw [List.map_map]
  exact Project.nodup_handles hsettings

/-- Without paths the command works with the engine of the settings. -/
theorem engine_configured (hpaths : o.paths = [])
    (hvalues : ∀ entry ∈ settings.stylesheets,
      (p.layeredValues? settings entry o.values).isSome) :
    o.engine p settings = .ok (.stocked (settings.stylesheets.map (o.itemOf p settings)), []) := by
  rw [engine, hpaths, List.isEmpty_nil, if_pos rfl, configuredEngine_eq hvalues]

/-- Without paths the command delivers the items of the entries. -/
theorem run_configured (hpaths : o.paths = []) (hsettings : p.settings = .ok settings)
    (hvalues : ∀ entry ∈ settings.stylesheets,
      (p.layeredValues? settings entry o.values).isSome)
    {delivered : Run}
    (h : deliver (.stocked (settings.stylesheets.map (o.itemOf p settings))) p.files
      (o.target p settings) = delivered) :
    o.run p = { delivered with events := settings.loadedEvent :: delivered.events } := by
  rw [run, hsettings]
  simp only [engine_configured hpaths hvalues, h]
  rfl

section Items

variable (hvalues : ∀ entry ∈ settings.stylesheets,
  (p.layeredValues? settings entry o.values).isSome)

private theorem ofDelivery_items (delivery : Delivery) :
    StockItem.ofDelivery (settings.stylesheets.map (o.itemOf p settings)) delivery =
      (settings.stylesheets.filter fun entry => o.prints entry = decide (delivery = .printed)).map
        (o.itemOf p settings) := by
  rw [StockItem.ofDelivery, List.filter_map]
  congr 1
  refine List.filter_congr fun entry _ => ?_
  have hdelivery : (o.itemOf p settings entry).stylesheet.delivery =
      if o.prints entry then .printed else .external := rfl
  rw [Function.comp_apply, hdelivery]
  cases o.prints entry <;> cases delivery <;> rfl

theorem printed_items :
    StockItem.ofDelivery (settings.stylesheets.map (o.itemOf p settings)) .printed =
      (settings.stylesheets.filter o.prints).map (o.itemOf p settings) := by
  simp only [ofDelivery_items, decide_true, Bool.decide_eq_true]

theorem external_items :
    StockItem.ofDelivery (settings.stylesheets.map (o.itemOf p settings)) .external =
      (settings.stylesheets.filter fun entry => !o.prints entry).map (o.itemOf p settings) := by
  rw [ofDelivery_items]
  congr 1
  refine List.filter_congr fun entry _ => ?_
  cases o.prints entry <;> rfl

include hvalues

private theorem body?_item {entry : StylesheetEntry} (hentry : entry ∈ settings.stylesheets) :
    (o.itemOf p settings entry).body? p.files = o.bodyOf? p settings entry := by
  obtain ⟨v, hv⟩ := Option.isSome_iff_exists.mp (hvalues entry hentry)
  rw [StockItem.body?, StockItem.rendition, bodyOf?, itemOf, hv]
  simp only [Stylesheet.read, stylesheetOf]
  cases p.files.read? (entry.sourcePath p.root) with
  | none => rfl
  | some source => rfl

private theorem bodies_items (q : StylesheetEntry → Bool) :
    ((settings.stylesheets.filter q).map (o.itemOf p settings)).filterMap (·.body? p.files) =
      (settings.stylesheets.filter q).filterMap (o.bodyOf? p settings) := by
  rw [List.filterMap_map]
  exact List.filterMap_congr fun entry hentry => body?_item hvalues (List.mem_filter.mp hentry).1

/-- What is written of the items are the files of the entries. -/
theorem outputs_items :
    StockItem.outputs (o.target p settings) p.files
        (settings.stylesheets.map (o.itemOf p settings)) = o.outputsOf p settings := by
  rw [StockItem.outputs, external_items, List.filterMap_map, outputsOf]
  refine List.filterMap_congr fun entry hentry => ?_
  rw [Function.comp_apply, body?_item hvalues (List.mem_filter.mp hentry).1]
  rfl

private theorem failures_items :
    StockItem.failures p.files (settings.stylesheets.map (o.itemOf p settings)) =
      o.failuresOf p settings := by
  rw [StockItem.failures, List.countP_map, failuresOf]
  refine List.countP_congr fun entry hentry => ?_
  rw [Function.comp_apply, body?_item hvalues hentry]

end Items

/-- The line that closes a run over entries, some of which may have failed. -/
def closingLines (failed : Nat) (entries : List StylesheetEntry) : List String :=
  if 0 < failed then
    ["Failed to compile " ++ (toString failed ++ " " ++ "stylesheet" ++
      (if failed = 1 then "" else "s")) ++ "."]
  else if entries = [] then ["No stylesheets to compile."]
  else []

private theorem toList_message?_endingAfter (failed : Nat) (entries : List StylesheetEntry) :
    (endingAfter failed (entries.map (o.itemOf p settings))).message?.toList =
      closingLines failed entries := by
  unfold endingAfter closingLines
  simp only [List.map_eq_nil_iff]
  split
  · rfl
  · split
    · rfl
    · rfl

/-- What the command comes to without paths: the bodies of printed entries one after the other, each
with a line break, then the files of the other entries, and an error exactly when an entry failed. -/
structure DeliversEntries (o : CompileOptions) (p : Project) (settings : Settings) (run : Run)
    (outcome : Outcome) : Prop where
  output : outcome.output = String.join
    (((settings.stylesheets.filter o.prints).filterMap (o.bodyOf? p settings)).map (· ++ "\n"))
  written : writeAll (o.target p settings) p.files (o.outputsOf p settings) = some outcome.files
  told : ∃ before, run.events =
    before ++ (o.outputsOf p settings).map fun output => wroteEvent output.1
  exitCode : outcome.exitCode = if 0 < o.failuresOf p settings then 1 else 0
  closing : ∃ lines, outcome.errorLines =
    lines ++ closingLines (o.failuresOf p settings) settings.stylesheets

/-- Without paths every entry of accepted settings is delivered once, in their order, if its values can
be read and its file can be written. -/
theorem compile_configured (hpaths : o.paths = []) (hsettings : p.settings = .ok settings)
    (hvalues : ∀ entry ∈ settings.stylesheets,
      (p.layeredValues? settings entry o.values).isSome)
    {after : FileTree}
    (hwritten : writeAll (o.target p settings) p.files (o.outputsOf p settings) = some after)
    (quiet : Bool) (verbose : Nat) :
    o.DeliversEntries p settings (o.run p) ((Command.compile o).outcome quiet verbose p) := by
  let items := settings.stylesheets.map (o.itemOf p settings)
  have hdistinct : (items.map (·.handle)).Nodup := nodup_handles_items hsettings
  rw [← outputs_items hvalues] at hwritten
  obtain ⟨hdelivers, hfiles⟩ := delivers (Engine.stocks_stocked hdistinct) hdistinct hwritten
  generalize hrun : deliver (.stocked items) p.files (o.target p settings) = run at hdelivers hfiles
  have hending : run.ending = endingAfter (o.failuresOf p settings) items := by
    rw [hdelivers.ending, failures_items hvalues]
  rw [Command.outcome, Command.run, run_configured hpaths hsettings hvalues hrun]
  refine ⟨?_, ?_, ?_, ?_, ?_⟩
  · simp only [hdelivers.printed, items, printed_items, bodies_items hvalues]
  · rw [← outputs_items hvalues]
    exact hdelivers.written
  · obtain ⟨before, htold⟩ := hdelivers.told
    rw [← outputs_items hvalues, htold]
    exact ⟨_, (List.cons_append ..).symm⟩
  · simp only [hending, succeeds_endingAfter]
    by_cases hfailed : 0 < o.failuresOf p settings
    · simp [hfailed]
    · simp [hfailed]
  · simp only [hending, items, toList_message?_endingAfter]
    exact ⟨_, rfl⟩

/-- Settings with a stylesheet that is minified with values of its own into a file, one whose source is
missing, and one that is printed. -/
private def themedProject : Project where
  root := ⟨"/p"⟩
  files := ⟨[(["p"], .directory),
    (["p", "dcss.toml"], .file ("\n".intercalate
      ["[[stylesheets]]", "handle = 'a'", "path = 'a.dcss'", "print = false", "minify = true",
        "values = 'a.json'", "[[stylesheets]]", "handle = 'b'", "path = 'b.dcss'",
        "[[stylesheets]]", "handle = 'c'", "path = 'a.dcss'"])),
    (["p", "a.dcss"], .file "x \x7b c: $c; \x7d"),
    (["p", "a.json"], .file "\x7b\"c\": 1\x7d")]⟩
  userSettings := none

/-- The stylesheet whose source is missing fails alone, and the value of the first one is not there for
the last. -/
theorem compile_configured_themed :
    let o : CompileOptions := ⟨[], none, false, none⟩
    ∃ settings after, themedProject.settings = .ok settings ∧
      (∀ entry ∈ settings.stylesheets,
        (themedProject.layeredValues? settings entry o.values).isSome) ∧
      writeAll (o.target themedProject settings) themedProject.files
        (o.outputsOf themedProject settings) = some after ∧
      (settings.stylesheets.map (o.bodyOf? themedProject settings) =
          [some "x\x7bc:1\x7d", none, some "x \x7b c: ; \x7d"] ∧
        after.read? ⟨"/p/dist/a.css"⟩ = some "x\x7bc:1\x7d") ∧
      o.DeliversEntries themedProject settings (o.run themedProject)
        ((Command.compile o).outcome false 0 themedProject) := by
  intro o
  let after : FileTree := ⟨themedProject.files.nodes ++
    [(["p", "dist"], .directory), (["p", "dist", "a.css"], .file "x\x7bc:1\x7d")]⟩
  have haccepted : themedProject.settings.toOption.any (fun settings => decide
      ((∀ entry ∈ settings.stylesheets,
          (themedProject.layeredValues? settings entry o.values).isSome) ∧
        writeAll (o.target themedProject settings) themedProject.files
          (o.outputsOf themedProject settings) = some after ∧
        settings.stylesheets.map (o.bodyOf? themedProject settings) =
          [some "x\x7bc:1\x7d", none, some "x \x7b c: ; \x7d"])) = true := by
    decide +kernel
  obtain ⟨settings, hsettings, hchecked⟩ := Project.exists_settings haccepted
  obtain ⟨hvalues, hwritten, hbodies⟩ := of_decide_eq_true hchecked
  exact ⟨settings, after, hsettings, hvalues, hwritten, ⟨hbodies, by decide +kernel⟩,
    compile_configured rfl hsettings hvalues hwritten false 0⟩

end CompileOptions

end StyleTemplate
