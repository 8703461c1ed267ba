import StyleTemplate.Command
import StyleTemplate.Proofs.Command.Selection

/-! Paths in another order. What the command prints and writes and how it ends depends on the stylesheets
that are found under its paths, and on nothing else of the paths (`CompileOptions.amounts_of_sameFound`);
so they may come in any order and more than once (`CompileOptions.compile_reordered`). -/

namespace StyleTemplate

/-- What a command line comes to besides what it tells. -/
structure SameResults (outcome other : Outcome) : Prop where
  output : outcome.output = other.output
  files : outcome.files = other.files
  exitCode : outcome.exitCode = other.exitCode

namespace CompileOptions

variable {o : CompileOptions} {p : Project} {paths : List Path}

/-! ### The same stylesheets -/

/-- The stylesheets that are found under the paths, as the walks come to them. -/
def found (o : CompileOptions) (p : Project) : List Path := (o.roots p).flatMap p.files.stylesheetsAt

/-- Whether other options find the same stylesheets. Paths with the same steps are the same stylesheet. -/
structure SameFound (p : Project) (o other : CompileOptions) : Prop where
  kept : ∀ path ∈ o.found p, ∃ path' ∈ other.found p, path'.steps = path.steps
  known : ∀ path ∈ other.found p, ∃ path' ∈ o.found p, path'.steps = path.steps

instance (p : Project) (o other : CompileOptions) : Decidable (SameFound p o other) :=
  decidable_of_iff
    ((∀ path ∈ o.found p, ∃ path' ∈ other.found p, path'.steps = path.steps) ∧
      ∀ path ∈ other.found p, ∃ path' ∈ o.found p, path'.steps = path.steps)
    ⟨fun ⟨kept, known⟩ => ⟨kept, known⟩, fun h => ⟨h.kept, h.known⟩⟩

/-- Under the same paths the same is found, however often they are given and in whatever order. -/
theorem sameFound_of_mem_iff (h : ∀ path, path ∈ paths ↔ path ∈ o.paths) :
    SameFound p { o with paths } o := by
  have hfound : ∀ path, path ∈ found { o with paths } p ↔ path ∈ o.found p := by
    simp only [found, roots, List.mem_flatMap, List.mem_map, h, implies_true]
  exact ⟨fun path hpath => ⟨path, (hfound path).mp hpath, rfl⟩,
    fun path hpath => ⟨path, (hfound path).mpr hpath, rfl⟩⟩

theorem found_of_mem_stylesheets {path : Path} (h : path ∈ p.files.stylesheets (o.roots p)) :
    path ∈ o.found p :=
  List.mem_flatMap.mpr (FileTree.mem_of_mem_stylesheets h)

theorem isStylesheet_of_found {path : Path} (h : path ∈ o.found p) : path.isStylesheet := by
  obtain ⟨root, -, hpath⟩ := List.mem_flatMap.mp h
  exact FileTree.isStylesheet_of_mem_stylesheetsAt hpath

theorem exists_mem_stylesheets_of_found {path : Path} (h : path ∈ o.found p) :
    ∃ path' ∈ p.files.stylesheets (o.roots p), path'.steps = path.steps := by
  obtain ⟨root, hroot, hpath⟩ := List.mem_flatMap.mp h
  exact FileTree.exists_mem_stylesheets hroot hpath

/-- The same are compiled. -/
private theorem map_steps_of_sameFound {other : CompileOptions} (h : SameFound p o other) :
    (distinct [] (p.files.stylesheets (o.roots p))).map (·.steps) =
      (distinct [] (p.files.stylesheets (other.roots p))).map (·.steps) := by
  refine map_steps_distinct (FileTree.pairwise_stylesheets ..) (FileTree.pairwise_stylesheets ..)
    (fun path hpath => isStylesheet_of_found (found_of_mem_stylesheets hpath)) ?_ ?_
  · intro path hpath
    obtain ⟨path', hpath', hsteps⟩ := h.known path (found_of_mem_stylesheets hpath)
    obtain ⟨path'', hpath'', hsteps'⟩ := exists_mem_stylesheets_of_found hpath'
    exact ⟨path'', hpath'', hsteps'.trans hsteps⟩
  · intro path hpath
    have hchosen := (distinct_sublist [] _).subset hpath
    obtain ⟨path', hpath', hsteps⟩ := h.kept path (found_of_mem_stylesheets hchosen)
    obtain ⟨path'', hpath'', hsteps'⟩ := exists_mem_stylesheets_of_found hpath'
    exact ⟨path'', hpath'', hsteps'.trans hsteps⟩

/-! ### The same results -/

/-- Items that become the same in each delivery are delivered alike. -/
private theorem amounts_deliver {items others : List StockItem} {files : FileTree} {directory : Path}
    (hdistinct : (items.map (·.handle)).Nodup) (hdistinct' : (others.map (·.handle)).Nodup)
    (h : ∀ delivery, (StockItem.ofDelivery items delivery).map (·.rendition files) =
      (StockItem.ofDelivery others delivery).map (·.rendition files)) :
    Amounts (deliver (.stocked items) files directory) (deliver (.stocked others) files directory) := by
  obtain ⟨hprinted, hexternal⟩ := (Engine.stocks_stocked hdistinct).results hdistinct files
  obtain ⟨hprinted', hexternal'⟩ := (Engine.stocks_stocked hdistinct').results hdistinct' files
  rw [h] at hprinted hexternal
  simp only [deliver, hprinted, hprinted', hexternal, hexternal']
  exact ⟨rfl, rfl, rfl⟩

/-- A delivery has all of the found stylesheets or none. -/
private theorem ofDelivery_itemsAt (o : CompileOptions) (resolver : Resolver) (delivery : Delivery) :
    (∀ paths, StockItem.ofDelivery (o.itemsAt resolver paths) delivery = o.itemsAt resolver paths) ∨
      ∀ paths, StockItem.ofDelivery (o.itemsAt resolver paths) delivery = [] := by
  by_cases hdelivery : (if o.outDir.isNone then Delivery.printed else .external) = delivery
  · refine .inl fun paths => List.filter_eq_self.mpr fun item hitem => ?_
    exact decide_eq_true ((o.delivery_itemsAt resolver paths item hitem).trans hdelivery)
  · refine .inr fun paths => List.filter_eq_nil_iff.mpr fun item hitem hmem => hdelivery ?_
    exact (o.delivery_itemsAt resolver paths item hitem).symm.trans (of_decide_eq_true hmem)

/-- With paths under which the same stylesheets are found a run comes to the same. -/
theorem amounts_of_sameFound (hproper : p.files.Proper) (hpaths : o.paths ≠ []) (hothers : paths ≠ [])
    (h : SameFound p { o with paths } o) : Amounts (run { o with paths } p) (o.run p) := by
  cases hsettings : p.settings with
  | error error =>
    rw [run, run, hsettings]
    exact ⟨rfl, rfl, rfl⟩
  | ok settings =>
    cases hresolver : p.resolver settings (o.values.map p.absolute).toList with
    | error error =>
      rw [run, run, hsettings]
      simp only [engine, hresolver, List.isEmpty_eq_false_iff.mpr hpaths,
        List.isEmpty_eq_false_iff.mpr hothers]
      exact ⟨rfl, rfl, rfl⟩
    | ok resolver =>
      have hrun := amounts_run hpaths hsettings hresolver
      have hrun' := amounts_run (o := { o with paths }) hothers hsettings hresolver
      refine hrun'.trans (.trans ?_ hrun.symm)
      refine amounts_deliver (nodup_handles_itemsAt ..) (nodup_handles_itemsAt ..) fun delivery => ?_
      have hreads : ∀ path ∈ distinct [] (p.files.stylesheets (roots { o with paths } p)),
          ∀ other ∈ distinct [] (p.files.stylesheets (o.roots p)), path.steps = other.steps →
            path.isStylesheet ∧ ∃ content,
              p.files.read? path = some content ∧ p.files.read? other = some content := by
        intro path hpath other hother hsteps
        obtain ⟨hsheet, content, hread⟩ := read?_of_mem_found hproper hpath
        obtain ⟨-, content', hread'⟩ := read?_of_mem_found hproper hother
        obtain rfl := FileTree.eq_of_read?_of_steps hread hread' hsteps
        exact ⟨hsheet, content, hread, hread'⟩
      have hrenditions := map_rendition_eq o resolver (map_steps_of_sameFound h) hreads
      rcases ofDelivery_itemsAt o resolver delivery with hall | hnone
      · rw [hall]
        exact (congrArg _ (hall _)).trans hrenditions
      · rw [hnone]
        exact congrArg _ (hnone _)

theorem sameResults_of_amounts {other : CompileOptions} (h : Amounts (other.run p) (o.run p))
    (quiet : Bool) (verbose : Nat) :
    SameResults ((Command.compile other).outcome quiet verbose p)
      ((Command.compile o).outcome quiet verbose p) := by
  rw [Command.outcome, Command.outcome, Command.run, Command.run]
  exact ⟨by simp only [h.printed], h.files, by simp only [h.ending]⟩

/-! ### The least of a handle -/

/-- Whether an engine compiles one of the found stylesheets for each stem, and that the least of them. -/
structure ChoosesLeast (o : CompileOptions) (p : Project) (e : Engine) : Prop where
  distinct : e.handles.Nodup
  all : ∀ path ∈ o.found p, ∃ s ∈ e.stylesheets, path.stem? = some s.handle
  least : ∀ s ∈ e.stylesheets, ∃ path ∈ o.found p, s.source = .path path ∧
    path.stem? = some s.handle ∧
      ∀ other ∈ o.found p, other.stem? = some s.handle → other.compare path ≠ .lt

private theorem choosesLeast_stocked (o : CompileOptions) (p : Project) (resolver : Resolver) :
    o.ChoosesLeast p
      (.stocked (o.itemsAt resolver (distinct [] (p.files.stylesheets (o.roots p))))) := by
  have hhandles := o.nodup_handles_itemsAt resolver [] (p.files.stylesheets (o.roots p))
  have hstocks := Engine.stocks_stocked hhandles
  have hsorted := FileTree.pairwise_stylesheets p.files (o.roots p)
  have hstylesheets : (Engine.stocked (o.itemsAt resolver
      (CompileOptions.distinct [] (p.files.stylesheets (o.roots p))))).stylesheets =
        (CompileOptions.distinct [] (p.files.stylesheets (o.roots p))).map o.stylesheetAt := by
    rw [hstocks.stylesheets, itemsAt, List.map_map]
    rfl
  constructor
  case distinct => exact hstocks.handles ▸ hhandles
  case all =>
    intro path hpath
    obtain ⟨q, hq, hsteps⟩ := exists_mem_stylesheets_of_found hpath
    have hnew : handleOf q ∉ ([] : List Path).map handleOf := List.not_mem_nil
    obtain ⟨chosen, hchosen, hhandle, -⟩ := exists_mem_distinct hsorted hq hnew
    refine ⟨o.stylesheetAt chosen, hstylesheets ▸ List.mem_map_of_mem hchosen, ?_⟩
    have hsheet := isStylesheet_of_found hpath
    rw [stem?_eq_handleOf hsheet, handleOf_eq hsheet hsteps.symm, ← hhandle]
    rfl
  case least =>
    intro s hs
    rw [hstylesheets] at hs
    obtain ⟨path, hpath, rfl⟩ := List.mem_map.mp hs
    obtain ⟨hmem, -, hleast⟩ := (mem_distinct_iff hsorted).mp hpath
    have hfound := found_of_mem_stylesheets hmem
    refine ⟨path, hfound, rfl, stem?_eq_handleOf (isStylesheet_of_found hfound), ?_⟩
    intro other hother hstem
    -- of paths with the steps of `other`, one is in the list that the choice was made from
    obtain ⟨q, hq, hsteps⟩ := exists_mem_stylesheets_of_found hother
    have hsheet := isStylesheet_of_found hother
    have hhandle : handleOf other = handleOf path :=
      Option.some.inj ((stem?_eq_handleOf hsheet).symm.trans hstem)
    rw [Path.compare_eq_compareLex, ← hsteps, ← Path.compare_eq_compareLex]
    exact hleast q hq ((handleOf_eq hsheet hsteps.symm).symm.trans hhandle)

/-- In a project with the files of a file system, what the command comes to with paths depends on the
stylesheets found under them alone, in whatever order and however often the paths are given; and of those
with one stem the least is compiled. -/
theorem compile_reordered (hproper : p.files.Proper) (hpaths : o.paths ≠ []) (quiet : Bool)
    (verbose : Nat) :
    (∀ paths, (∀ path, path ∈ paths ↔ path ∈ o.paths) →
        SameResults ((Command.compile { o with paths }).outcome quiet verbose p)
          ((Command.compile o).outcome quiet verbose p)) ∧
      (∀ paths, paths ≠ [] → SameFound p { o with paths } o →
        SameResults ((Command.compile { o with paths }).outcome quiet verbose p)
          ((Command.compile o).outcome quiet verbose p)) ∧
      ∀ settings e events, o.engine p settings = .ok (e, events) → o.ChoosesLeast p e := by
  refine ⟨?_, ?_, ?_⟩
  · intro paths hsame
    have hothers : paths ≠ [] := by
      rintro rfl
      obtain ⟨path, hpath⟩ := List.exists_mem_of_ne_nil o.paths hpaths
      exact List.not_mem_nil ((hsame path).mpr hpath)
    exact sameResults_of_amounts
      (amounts_of_sameFound hproper hpaths hothers (sameFound_of_mem_iff hsame)) quiet verbose
  · intro paths hothers hsame
    exact sameResults_of_amounts (amounts_of_sameFound hproper hpaths hothers hsame) quiet verbose
  · intro settings e events hengine
    cases hresolver : p.resolver settings (o.values.map p.absolute).toList with
    | error error =>
      rw [engine, if_neg (by simpa using hpaths), hresolver] at hengine
      cases hengine
    | ok resolver =>
      obtain ⟨told, -, hfound⟩ := engine_found hpaths hresolver
      rw [hfound] at hengine
      obtain ⟨rfl, -⟩ := Prod.mk.inj (Except.ok.inj hengine)
      exact choosesLeast_stocked o p resolver

/-- Two stylesheets with one stem in different directories. -/
private def themes : Project where
  root := ⟨"/p"⟩
  files := ⟨[(["p"], .directory), (["p", "a"], .directory), (["p", "b"], .directory),
    (["p", "a", "theme.dcss"], .file "1"), (["p", "b", "theme.css"], .file "2")]⟩
  userSettings := none

/-- Two directories in either order, one of them twice, and the directory that holds both. -/
theorem compile_reordered_themes :
    let o : CompileOptions := ⟨[⟨"b"⟩, ⟨"a"⟩], none, false, none⟩
    let outcomeOf paths := (Command.compile { o with paths }).outcome false 0 themes
    themes.files.Proper ∧ o.paths ≠ [] ∧ (outcomeOf o.paths).output = "1\n" ∧
      SameResults (outcomeOf [⟨"a"⟩, ⟨"b"⟩, ⟨"a"⟩]) (outcomeOf o.paths) ∧
      SameFound themes { o with paths := [⟨"."⟩] } o ∧
      SameResults (outcomeOf [⟨"."⟩]) (outcomeOf o.paths) ∧
      ∀ settings e events, o.engine themes settings = .ok (e, events) → o.ChoosesLeast themes e := by
  intro o outcomeOf
  have hproper : themes.files.Proper := by decide +kernel
  have hpaths : o.paths ≠ [] := List.cons_ne_nil _ _
  have hbelow : SameFound themes { o with paths := [⟨"."⟩] } o := by decide +kernel
  have hgt : Path.compare ⟨"/p/b/theme.css"⟩ ⟨"/p/a/theme.dcss"⟩ = .gt := by decide +kernel
  have hfound : themes.files.stylesheets (o.roots themes) =
      FileTree.dropRepeated [⟨"/p/a/theme.dcss"⟩, ⟨"/p/b/theme.css"⟩] := by
    have hwalks : (o.roots themes).flatMap themes.files.stylesheetsAt =
        [⟨"/p/b/theme.css"⟩, ⟨"/p/a/theme.dcss"⟩] := by
      decide +kernel
    rw [FileTree.stylesheets, hwalks]
    simp [List.mergeSort, hgt]
  have hprinted : (o.run themes).printed = ["1"] := by
    unfold run engine foundEngine
    rw [hfound]
    decide +kernel
  have houtput : (outcomeOf o.paths).output = "1\n" := by
    simp only [outcomeOf, Command.outcome, Command.run, hprinted]
    decide
  obtain ⟨hreordered, hsame, hleast⟩ := compile_reordered hproper hpaths false 0
  refine ⟨hproper, hpaths, houtput, hreordered _ fun path => ?_, hbelow,
    hsame _ (List.cons_ne_nil _ _) hbelow, hleast⟩
  simp [o, or_comm]

end CompileOptions

end StyleTemplate
