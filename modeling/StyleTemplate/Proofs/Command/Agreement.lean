import StyleTemplate.Proofs.Command.Checking
import StyleTemplate.Proofs.Command.Configured

/-! Checking and compiling agree. Without paths both commands go through the entries of the settings, and
what a check finds in an entry is what the stylesheet comes with that compiling renders for it, in the
order of the places (`CompileOptions.check_configured`). -/

namespace StyleTemplate

namespace CompileOptions

/-! ### Rendered items -/

section Rendered

open StockItem (ofDelivery)

variable {items : List StockItem} {files : FileTree} {printed external : List Artifact}

/-- Items that can all be read give one stylesheet each. -/
private theorem exists_rendered (h : ∀ item ∈ items, ∃ a, item.rendition files = .ok a)
    (delivery : Delivery) :
    ∃ as : List Artifact, (ofDelivery items delivery).map (·.rendition files) = as.map .ok ∧
      as.map (·.handle) = (ofDelivery items delivery).map (·.handle) := by
  have hreadable : ∀ item ∈ ofDelivery items delivery, ∃ a, item.rendition files = .ok a :=
    fun item hitem => h item (List.mem_filter.mp hitem).1
  generalize ofDelivery items delivery = chosen at hreadable
  induction chosen with
  | nil => exact ⟨[], rfl, rfl⟩
  | cons item chosen ih =>
    obtain ⟨⟨a, ha⟩, hchosen⟩ := List.forall_mem_cons.mp hreadable
    obtain ⟨as, hresults, hhandles⟩ := ih hchosen
    refine ⟨a :: as, ?_, ?_⟩
    · rw [List.map_cons, List.map_cons, ha, hresults]
    · rw [List.map_cons, List.map_cons, hhandles, StockItem.handle_of_rendition ha]

private theorem artifacts_ok (as : List Artifact) : artifacts (as.map .ok) = as := by
  rw [artifacts, List.filterMap_map]
  exact List.filterMap_some

private theorem rendered_perm
    (hprinted : (ofDelivery items .printed).map (·.rendition files) = printed.map .ok)
    (hexternal : (ofDelivery items .external).map (·.rendition files) = external.map .ok) :
    (printed ++ external).Perm (items.filterMap fun item => (item.rendition files).toOption) := by
  have hperm := (StockItem.ofDelivery_perm items).filterMap fun item =>
    (item.rendition files).toOption
  rwa [List.filterMap_append, ← artifacts_rendition, ← artifacts_rendition, hprinted, hexternal,
    artifacts_ok, artifacts_ok] at hperm

private theorem filter_handle_eq {item : StockItem} (hdistinct : (items.map (·.handle)).Nodup)
    (hitem : item ∈ items) : (items.filter fun other => other.handle = item.handle) = [item] := by
  induction items with
  | nil => exact nomatch hitem
  | cons first items ih =>
    obtain ⟨hnew, hdistinct⟩ := List.nodup_cons.mp hdistinct
    have hothers (other : StockItem) (hother : other ∈ items) : other.handle ≠ first.handle :=
      fun heq => hnew (List.mem_map.mpr ⟨other, hother, heq⟩)
    rcases List.mem_cons.mp hitem with rfl | hitem
    · have hnone : (items.filter fun other => other.handle = item.handle) = [] := by
        simpa [List.filter_eq_nil_iff] using hothers
      simp [hnone]
    · rw [List.filter_cons_of_neg (by simpa using (hothers item hitem).symm), ih hdistinct hitem]

/-- An item gives the only stylesheet with its handle. -/
private theorem filter_rendered
    (hprinted : (ofDelivery items .printed).map (·.rendition files) = printed.map .ok)
    (hexternal : (ofDelivery items .external).map (·.rendition files) = external.map .ok)
    (hdistinct : (items.map (·.handle)).Nodup) {item : StockItem} (hitem : item ∈ items)
    {a : Artifact} (ha : item.rendition files = .ok a) :
    (printed ++ external).filter (·.handle = item.handle) = [a] := by
  have hown : (items.filterMap fun other => (other.rendition files).toOption).filter
      (·.handle = item.handle) =
        (items.filter fun other => other.handle = item.handle).filterMap fun other =>
          (other.rendition files).toOption := by
    rw [List.filter_filterMap, List.filterMap_filter]
    refine List.filterMap_congr fun other _ => ?_
    cases hother : other.rendition files with
    | error error => simp [Except.toOption]
    | ok b => simp [Except.toOption, Option.filter, StockItem.handle_of_rendition hother]
  have hperm := (rendered_perm hprinted hexternal).filter (·.handle = item.handle)
  rw [hown, filter_handle_eq hdistinct hitem] at hperm
  simpa [ha, Except.toOption] using hperm

end Rendered

/-! ### Both commands -/

variable {o : CompileOptions} {c : CheckOptions} {p : Project} {settings : Settings}

/-- The stylesheets that the command renders for the entries of settings: one for each entry that is
printed, and then one for each of the others. The engine made of the settings gives them, and they are
what the run hands over. -/
structure RendersEntries (o : CompileOptions) (p : Project) (settings : Settings)
    (printed external : List Artifact) : Prop where
  engine : ∃ e, o.engine p settings = .ok (e, []) ∧
    (e.renderAll p.files .printed).1 = printed.map .ok ∧
    ((e.renderAll p.files .printed).2.renderAll p.files .external).1 = external.map .ok
  printedHandles : printed.map (·.handle) = (settings.stylesheets.filter o.prints).map (·.handle)
  externalHandles : external.map (·.handle) =
    (settings.stylesheets.filter fun entry => !o.prints entry).map (·.handle)
  run : HandsOver printed external p.files (o.target p settings) (o.run p)

/-- What was found in the stylesheet of an entry is what the one compiled stylesheet with its handle
comes with, in the order of the places. -/
structure AgreesOn (p : Project) (compiled : List Artifact) (entry : StylesheetEntry)
    (found : Checked) : Prop where
  path : found.target.path = entry.sourcePath p.root
  diagnostics : ∃ a, compiled.filter (·.handle = entry.handle) = [a] ∧
    StablySorted (fun d : Diagnostic => d.span.start) a.diagnostics found.diagnostics

/-- The entries of settings are checked with the values they are compiled with. -/
private theorem mapM_checked {entries : List StylesheetEntry} {compiled : List Artifact}
    (o : CompileOptions) (hentries : ∀ entry ∈ entries, ∃ source v,
      p.files.read? (entry.sourcePath p.root) = some source ∧
      p.layeredValues? settings entry o.values = some v ∧
      compiled.filter (·.handle = entry.handle) =
        [(o.itemOf p settings entry).artifact source]) :
    ∃ found, (entries.map fun entry =>
        (⟨entry.sourcePath p.root, p.layersOf entry o.values⟩ : CheckTarget)).mapM
          (CheckOptions.checked p settings) = .ok found ∧
      List.Forall₂ (AgreesOn p compiled) entries found := by
  induction entries with
  | nil => exact ⟨[], rfl, .nil⟩
  | cons entry entries ih =>
    obtain ⟨⟨source, v, hsource, hv, hcompiled⟩, hentries⟩ := List.forall_mem_cons.mp hentries
    obtain ⟨found, hfound, hagree⟩ := ih hentries
    have hchecked : CheckOptions.checked p settings
        ⟨entry.sourcePath p.root, p.layersOf entry o.values⟩ =
          .ok ⟨⟨entry.sourcePath p.root, p.layersOf entry o.values⟩, source,
            checkSource source (.ofValue v) Filter.builtins⟩ := by
      rw [CheckOptions.checked, CheckOptions.prepare, hsource]
      simp only [Project.resolver_of_layeredValues? hv]
      rfl
    rw [List.map_cons, List.mapM_cons, hchecked, hfound]
    refine ⟨_, rfl, .cons ⟨rfl, _, hcompiled, ?_⟩ hagree⟩
    have hitem : (o.itemOf p settings entry).resolver = .ofValue v := by
      rw [itemOf, hv, Option.getD_some]
    rw [StockItem.artifact, hitem]
    exact CheckOptions.stablySorted_checkSource source (.ofValue v) Filter.builtins

/-- Without paths every entry of accepted settings is rendered, if its source and its values can be
read. -/
private theorem exists_rendersEntries (hpaths : o.paths = []) (hsettings : p.settings = .ok settings)
    (hvalues : ∀ entry ∈ settings.stylesheets,
      (p.layeredValues? settings entry o.values).isSome)
    (hsources : ∀ entry ∈ settings.stylesheets,
      (p.files.read? (entry.sourcePath p.root)).isSome) :
    ∃ printed external, o.RendersEntries p settings printed external ∧
      ∀ entry ∈ settings.stylesheets, ∀ source,
        p.files.read? (entry.sourcePath p.root) = some source →
        (printed ++ external).filter (·.handle = entry.handle) =
          [(o.itemOf p settings entry).artifact source] := by
  have hdistinct : ((settings.stylesheets.map (o.itemOf p settings)).map (·.handle)).Nodup :=
    nodup_handles_items hsettings
  have hstocks := Engine.stocks_stocked hdistinct
  have hrendition (entry : StylesheetEntry) (source : String)
      (hsource : p.files.read? (entry.sourcePath p.root) = some source) :
      (o.itemOf p settings entry).rendition p.files =
        .ok ((o.itemOf p settings entry).artifact source) := by
    simp only [StockItem.rendition, itemOf, stylesheetOf, Stylesheet.read, hsource]
  have hrendered : ∀ item ∈ settings.stylesheets.map (o.itemOf p settings),
      ∃ a, item.rendition p.files = .ok a := by
    refine List.forall_mem_map.mpr fun entry hentry => ?_
    obtain ⟨source, hsource⟩ := Option.isSome_iff_exists.mp (hsources entry hentry)
    exact ⟨_, hrendition entry source hsource⟩
  obtain ⟨printed, hprinted, hprintedHandles⟩ := exists_rendered hrendered .printed
  obtain ⟨external, hexternal, hexternalHandles⟩ := exists_rendered hrendered .external
  refine ⟨printed, external, ⟨⟨_, engine_configured hpaths hvalues, ?_⟩, ?_, ?_, ?_⟩, ?_⟩
  · rw [← hprinted, ← hexternal]
    exact hstocks.results hdistinct p.files
  · rw [hprintedHandles, printed_items, List.map_map]
    rfl
  · rw [hexternalHandles, external_items, List.map_map]
    rfl
  · have hhands := handsOver_deliver hstocks hdistinct (o.target p settings) p.files
    rw [hprinted, hexternal, artifacts_ok, artifacts_ok] at hhands
    rw [run_configured hpaths hsettings hvalues rfl]
    exact hhands.prepend settings.loadedEvent Bool.false_ne_true Bool.false_ne_true
  · intro entry hentry source hsource
    exact filter_rendered hprinted hexternal hdistinct (List.mem_map_of_mem hentry)
      (hrendition entry source hsource)

/-- Without paths and with the same extra values, a check finds in each entry of accepted settings what
compiling the entry finds, if their sources and values can be read. -/
theorem check_configured (hcompile : o.paths = []) (hcheck : c.paths = [])
    (hextra : c.values = o.values) (hsettings : p.settings = .ok settings)
    (hlisted : settings.stylesheets ≠ [])
    (hvalues : ∀ entry ∈ settings.stylesheets,
      (p.layeredValues? settings entry o.values).isSome)
    (hsources : ∀ entry ∈ settings.stylesheets,
      (p.files.read? (entry.sourcePath p.root)).isSome) :
    ∃ printed external found, o.RendersEntries p settings printed external ∧
      (c.targets p settings).mapM (CheckOptions.checked p settings) = .ok found ∧
      CheckOptions.ReportsFound p (c.severities settings) found (c.run p) ∧
      List.Forall₂ (AgreesOn p (printed ++ external)) settings.stylesheets found := by
  obtain ⟨printed, external, hrenders, hcompiled⟩ :=
    exists_rendersEntries hcompile hsettings hvalues hsources
  have htargets : c.targets p settings = settings.stylesheets.map fun entry =>
      ⟨entry.sourcePath p.root, p.layersOf entry o.values⟩ := by
    simp [CheckOptions.targets, CheckOptions.isConfigured, hcheck, hlisted, hextra]
  have hentries : ∀ entry ∈ settings.stylesheets, ∃ source v,
      p.files.read? (entry.sourcePath p.root) = some source ∧
      p.layeredValues? settings entry o.values = some v ∧
      (printed ++ external).filter (·.handle = entry.handle) =
        [(o.itemOf p settings entry).artifact source] := by
    intro entry hentry
    obtain ⟨source, hsource⟩ := Option.isSome_iff_exists.mp (hsources entry hentry)
    obtain ⟨v, hv⟩ := Option.isSome_iff_exists.mp (hvalues entry hentry)
    exact ⟨source, v, hsource, hv, hcompiled entry hentry source hsource⟩
  obtain ⟨found, hfound, hagree⟩ := mapM_checked o hentries
  rw [← htargets] at hfound
  refine ⟨printed, external, found, hrenders, hfound,
    CheckOptions.reportsFound_run hsettings ?_ hfound, hagree⟩
  simpa [htargets] using hlisted

/-- Settings with a printed stylesheet that has values of its own, and one that is written. -/
private def checkedProject : Project where
  root := ⟨"/p"⟩
  files := ⟨[(["p"], .directory),
    (["p", "dcss.toml"], .file ("\n".intercalate
      ["[[stylesheets]]", "handle = 'a'", "path = 'a.dcss'", "values = 'a.json'", "cache = true",
        "[[stylesheets]]", "handle = 'b'", "path = 'a.dcss'", "print = false"])),
    (["p", "a.dcss"], .file "$m"),
    (["p", "a.json"], .file "\x7b\"m\": \x7b\x7d\x7d")]⟩
  userSettings := none

/-- Two entries with one source, of which only the first has a value for its variable. -/
theorem check_configured_twice :
    let o : CompileOptions := ⟨[], none, true, none⟩
    let c : CheckOptions := ⟨[], none, [], []⟩
    ∃ settings printed external found, checkedProject.settings = .ok settings ∧
      settings.stylesheets ≠ [] ∧
      (∀ entry ∈ settings.stylesheets,
        (checkedProject.layeredValues? settings entry o.values).isSome) ∧
      (∀ entry ∈ settings.stylesheets,
        (checkedProject.files.read? (entry.sourcePath checkedProject.root)).isSome) ∧
      o.RendersEntries checkedProject settings printed external ∧
      (c.targets checkedProject settings).mapM (CheckOptions.checked checkedProject settings) =
        .ok found ∧
      CheckOptions.ReportsFound checkedProject (c.severities settings) found
        (c.run checkedProject) ∧
      List.Forall₂ (AgreesOn checkedProject (printed ++ external)) settings.stylesheets found := by
  intro o c
  have haccepted : checkedProject.settings.toOption.any (fun settings => decide
      (settings.stylesheets ≠ [] ∧
        (∀ entry ∈ settings.stylesheets,
          (checkedProject.layeredValues? settings entry o.values).isSome) ∧
        ∀ entry ∈ settings.stylesheets,
          (checkedProject.files.read? (entry.sourcePath checkedProject.root)).isSome)) = true := by
    decide +kernel
  obtain ⟨settings, hsettings, hchecked⟩ := Project.exists_settings haccepted
  obtain ⟨hlisted, hvalues, hsources⟩ := of_decide_eq_true hchecked
  obtain ⟨printed, external, found, hagrees⟩ :=
    check_configured (o := o) (c := c) rfl rfl rfl hsettings hlisted hvalues hsources
  exact ⟨settings, printed, external, found, hsettings, hlisted, hvalues, hsources, hagrees⟩

end CompileOptions

end StyleTemplate
