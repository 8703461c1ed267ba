import StyleTemplate.Proofs.Command.Selection
import StyleTemplate.Proofs.FileTree.Edits

/-! Compiling again. What a run leaves behind extends the tree it began with, by stylesheets in the
directory for output. A later run writes what it would have written without the earlier one, if the earlier
one put nothing in the way of its sources (`CompileOptions.run_again`). -/

namespace StyleTemplate

open FileTree (Extends Proper)

namespace CompileOptions

variable {directory : Path} {before after files others : FileTree}

/-! ### What a run leaves behind -/

/-- Writing leaves an extension of the tree, with the directories that were made for the first file. -/
structure Leaves (directory : Path) (before after : FileTree) : Prop where
  proper : after.Proper
  extension : Extends before after
  made : after = before ∨ ∃ made, before.makeDirectories? directory = some made ∧
    ∀ l, after.isDirectoryAt l = made.isDirectoryAt l

private theorem leaves_writeAll {outputs : List (Path × String)}
    (hcss : ∀ output ∈ outputs, ∃ text, output.1 = ⟨text ++ ".css"⟩) (hproper : before.Proper)
    (h : writeAll directory before outputs = some after) : Leaves directory before after := by
  induction outputs generalizing before with
  | nil => exact Option.some.inj h ▸ ⟨hproper, .refl _, .inl rfl⟩
  | cons output outputs ih =>
    obtain ⟨path, body⟩ := output
    obtain ⟨⟨text, rfl⟩, hothers⟩ := List.forall_mem_cons.mp hcss
    rw [writeAll] at h
    split at h
    · cases h
    · rename_i written hwritten
      obtain ⟨made, hmade, hwrite⟩ := Option.bind_eq_some_iff.mp hwritten
      obtain ⟨here, stem, hhere, hname, hfree, rfl⟩ := FileTree.exists_of_write?_css hwrite
      have hproper' : made.Proper :=
        hproper.makeFrom (fun _ => Path.slash_not_mem_piece) FileTree.isDirectoryAt_nil hmade
      have hsame := FileTree.isDirectoryAt_put_file hfree body
      obtain ⟨hafter, hextends, hagain⟩ := ih hothers (hproper'.put hhere hname (.inr hfree)) h
      refine ⟨hafter, ?_, .inr ⟨made, hmade, fun l => ?_⟩⟩
      · exact (Extends.of_makeFrom hmade).trans
          ((Extends.put_file ⟨here, stem, .inl rfl⟩ hfree body).trans hextends)
      · rcases hagain with rfl | ⟨made', hmade', hdirectories⟩
        · exact hsame l
        · -- the directory is there, so that making it again changes nothing
          have hsettled := FileTree.makeFrom_settled hmade fun l hl => (hsame l).trans hl
          obtain rfl : _ = made' := Option.some.inj (hsettled.symm.trans hmade')
          exact (hdirectories l).trans (hsame l)

/-! ### Writing the same into two trees -/

/-- With the same directories, and the one for output among them, bodies are written alike. -/
private theorem writeBodies_settled (bodies : List Artifact)
    (hsame : ∀ l, files.isDirectoryAt l = others.isDirectoryAt l)
    (hmade : files.makeDirectories? directory = some files) :
    ∃ told left left' error, writeBodies directory files bodies = (told, left, error) ∧
      writeBodies directory others bodies = (told, left', error) := by
  induction bodies generalizing files others with
  | nil => exact ⟨[], files, others, none, rfl, rfl⟩
  | cons a bodies ih =>
    have hmade' : others.makeDirectories? directory = some others :=
      FileTree.makeFrom_settled hmade fun l hl => (hsame l).symm.trans hl
    have hlocate : files.locate? (fileOf directory a.handle) =
        others.locate? (fileOf directory a.handle) := FileTree.follow_congr hsame
    rw [writeBodies, writeBodies, writeBody, writeBody, hmade, hmade']
    simp only [FileTree.write?, hlocate]
    cases hl : others.locate? (fileOf directory a.handle) with
    | none => exact ⟨_, _, _, _, rfl, rfl⟩
    | some l =>
      simp only [hsame l]
      by_cases hdirectory : others.isDirectoryAt l = true
      · simp only [if_pos hdirectory]
        exact ⟨_, _, _, _, rfl, rfl⟩
      · simp only [if_neg hdirectory]
        have hfree : others.isDirectoryAt l = false := Bool.eq_false_iff.mpr hdirectory
        have hput := FileTree.isDirectoryAt_put_file ((hsame l).trans hfree) a.body
        have hput' := FileTree.isDirectoryAt_put_file hfree a.body
        have hsame' : ∀ l', (files.put l (.file a.body)).isDirectoryAt l' =
            (others.put l (.file a.body)).isDirectoryAt l' := fun l' =>
          (hput l').trans ((hsame l').trans (hput' l').symm)
        obtain ⟨told, left, left', error, hfirst, hsecond⟩ := ih hsame'
          (FileTree.makeFrom_settled hmade fun l' hl' => (hput l').trans hl')
        rw [hfirst, hsecond]
        exact ⟨_, _, _, _, rfl, rfl⟩

/-- Where directories are made first, as many as the other tree has. -/
private theorem writeBodies_same (bodies : List Artifact) {made : FileTree}
    (hmade : files.makeDirectories? directory = some made)
    (hsame : ∀ l, made.isDirectoryAt l = others.isDirectoryAt l) :
    ∃ told left left' error, writeBodies directory files bodies = (told, left, error) ∧
      writeBodies directory others bodies = (told, left', error) := by
  cases bodies with
  | nil => exact ⟨[], files, others, none, rfl, rfl⟩
  | cons a bodies =>
    have hagain : made.makeDirectories? directory = some made :=
      FileTree.makeFrom_settled hmade fun l hl => hl
    have hbody : writeBody directory files a = writeBody directory made a := by
      rw [writeBody, writeBody, hmade, hagain]
    obtain ⟨told, left, left', error, hfirst, hsecond⟩ :=
      writeBodies_settled (a :: bodies) hsame hagain
    rw [writeBodies, ← hbody] at hfirst
    rw [writeBodies]
    cases hcase : writeBody directory files a with
    | error cause =>
      rw [hcase] at hfirst
      obtain ⟨rfl, -, rfl⟩ := hfirst
      exact ⟨_, _, _, _, rfl, hsecond⟩
    | ok written =>
      rw [hcase] at hfirst
      exact ⟨_, _, _, _, hfirst, hsecond⟩

/-! ### The same run in two trees -/

/-- Two runs that print the same, write the same bodies, each into the tree it began with, tell of the
same files, and end alike. -/
structure SameWrites (directory : Path) (files others : FileTree) (run other : Run) : Prop where
  printed : run.printed = other.printed
  written : ∃ bodies error,
    writeBodies directory files bodies = (run.wrote, run.files, error) ∧
      writeBodies directory others bodies = (other.wrote, other.files, error)
  wrote : run.wrote = other.wrote
  ending : run.ending = other.ending

/-- Something else may have been told before, and not the same. -/
private theorem SameWrites.prepend {run other : Run} (h : SameWrites directory files others run other)
    {told told' : List Event} (htold : ∀ event ∈ told, ¬event.isWrote)
    (htold' : ∀ event ∈ told', ¬event.isWrote) :
    SameWrites directory files others { run with events := told ++ run.events }
      { other with events := told' ++ other.events } := by
  have hsame {told : List Event} (htold : ∀ event ∈ told, ¬event.isWrote) (run : Run) :
      Run.wrote { run with events := told ++ run.events } = run.wrote := by
    rw [Run.wrote, List.filter_append, List.filter_eq_nil_iff.mpr htold]
    rfl
  obtain ⟨hprinted, hwritten, hwrote, hending⟩ := h
  refine ⟨hprinted, ?_, ?_, hending⟩
  · rwa [hsame htold, hsame htold']
  · rwa [hsame htold, hsame htold']

private theorem sameWrites_deliver {items items' : List StockItem}
    (hresults : items.map (·.rendition files) = items'.map (·.rendition others))
    (hdistinct : (items.map (·.handle)).Nodup) (hdistinct' : (items'.map (·.handle)).Nodup)
    (hexternal : ∀ item ∈ items, item.stylesheet.delivery = .external)
    (hexternal' : ∀ item ∈ items', item.stylesheet.delivery = .external)
    (hwrite : ∀ bodies, ∃ told left left' error,
      writeBodies directory files bodies = (told, left, error) ∧
        writeBodies directory others bodies = (told, left', error)) :
    SameWrites directory files others (deliver (.stocked items) files directory)
      (deliver (.stocked items') others directory) := by
  have hnone {items : List StockItem}
      (hexternal : ∀ item ∈ items, item.stylesheet.delivery = .external) :
      StockItem.ofDelivery items .printed = [] :=
    List.filter_eq_nil_iff.mpr fun item hitem => by simp [hexternal item hitem]
  have hall {items : List StockItem}
      (hexternal : ∀ item ∈ items, item.stylesheet.delivery = .external) :
      StockItem.ofDelivery items .external = items :=
    List.filter_eq_self.mpr fun item hitem => by simp [hexternal item hitem]
  obtain ⟨hprinted, hrendered⟩ := (Engine.stocks_stocked hdistinct).results hdistinct files
  obtain ⟨hprinted', hrendered'⟩ := (Engine.stocks_stocked hdistinct').results hdistinct' others
  rw [hnone hexternal, List.map_nil] at hprinted
  rw [hnone hexternal', List.map_nil] at hprinted'
  rw [hall hexternal] at hrendered
  rw [hall hexternal', ← hresults] at hrendered'
  have hwrote := wrote_deliver (.stocked items) files directory
  have hwrote' := wrote_deliver (.stocked items') others directory
  obtain ⟨told, left, left', error, hfirst, hsecond⟩ :=
    hwrite (artifacts (items.map (·.rendition files)))
  rw [hrendered, hfirst] at hwrote
  rw [hrendered', hsecond] at hwrote'
  have hfiles : (deliver (.stocked items) files directory).files = left := by
    simp only [deliver, hrendered, hfirst]
  have hfiles' : (deliver (.stocked items') others directory).files = left' := by
    simp only [deliver, hrendered', hsecond]
  refine ⟨?_, ?_, hwrote.trans hwrote'.symm, ?_⟩
  · simp only [deliver, hprinted, hprinted']
  · rw [hwrote, hwrote', hfiles, hfiles']
    exact ⟨_, error, hfirst, hsecond⟩
  · simp only [deliver, hprinted, hprinted', hrendered, hrendered', hfirst, hsecond]

section Found

variable {roots : List Path} (h : Extends before after)
  (hrepositories : ∀ d, after.isRepository d → before.isRepository d)
  (hbefore : before.Proper) (hafter : after.Proper)
  (hsources : ∀ path ∈ distinct [] (after.stylesheets roots), after.read? path = before.read? path)
include h hrepositories hbefore hafter hsources

/-- The same stylesheets are compiled in both trees. -/
private theorem map_steps_found :
    (distinct [] (after.stylesheets roots)).map (·.steps) =
      (distinct [] (before.stylesheets roots)).map (·.steps) := by
  refine map_steps_distinct (FileTree.pairwise_stylesheets after roots)
    (FileTree.pairwise_stylesheets before roots) (fun path hpath => ?_) (fun path hpath => ?_)
    fun path hpath => ?_
  · obtain ⟨root, -, hfound⟩ := FileTree.mem_of_mem_stylesheets hpath
    exact FileTree.isStylesheet_of_mem_stylesheetsAt hfound
  · obtain ⟨root, hroot, hfound⟩ := FileTree.mem_of_mem_stylesheets hpath
    exact FileTree.exists_mem_stylesheets hroot (h.mem_stylesheetsAt hrepositories hbefore hfound)
  · have hchosen := (distinct_sublist [] _).subset hpath
    obtain ⟨root, hroot, hfound⟩ := FileTree.mem_of_mem_stylesheets hchosen
    obtain ⟨-, content, hread⟩ := read?_of_mem_found hafter hpath
    rw [hsources path hpath] at hread
    exact FileTree.exists_mem_stylesheets hroot
      (h.mem_stylesheetsAt_of_read? hrepositories hafter hfound hread)

/-- They become the same. -/
private theorem map_rendition_found (o : CompileOptions) (resolver : Resolver) :
    (o.itemsAt resolver (distinct [] (after.stylesheets roots))).map (·.rendition after) =
      (o.itemsAt resolver (distinct [] (before.stylesheets roots))).map (·.rendition before) := by
  refine map_rendition_eq o resolver (map_steps_found h hrepositories hbefore hafter hsources)
    fun path hpath path' hpath' hsame => ?_
  obtain ⟨hsheet, content, hread⟩ := read?_of_mem_found hafter hpath
  obtain ⟨-, content', hread'⟩ := read?_of_mem_found hbefore hpath'
  obtain rfl : content = content' :=
    FileTree.eq_of_read?_of_steps ((hsources path hpath).symm.trans hread) hread' hsame
  exact ⟨hsheet, content, hread, hread'⟩

end Found

/-! ### Running again -/

variable {o : CompileOptions} {p : Project} {dir : Path}

private theorem external_itemsAt (hdir : o.outDir = some dir) (resolver : Resolver)
    (paths : List Path) :
    ∀ item ∈ o.itemsAt resolver paths, item.stylesheet.delivery = .external := by
  intro item hitem
  rw [delivery_itemsAt o resolver paths item hitem, hdir]
  rfl

/-- A run over found stylesheets is a delivery of the chosen ones. -/
private theorem run_found {settings : Settings} {resolver : Resolver} (hpaths : o.paths ≠ [])
    (hdir : o.outDir = some dir)
    (hsettings : ({ p with files } : Project).settings = .ok settings)
    (hresolver : ({ p with files } : Project).resolver settings
      (o.values.map p.absolute).toList = .ok resolver)
    {delivered : Run}
    (h : deliver (.stocked (o.itemsAt resolver (distinct [] (files.stylesheets (o.roots p))))) files
      (p.absolute dir) = delivered) :
    ∃ events, (∀ event ∈ events, ¬event.isWrote) ∧
      o.run { p with files } = { delivered with events := events ++ delivered.events } := by
  have htarget : o.target { p with files } settings = p.absolute dir := by
    rw [target, hdir]
    rfl
  rw [← htarget] at h
  exact exists_run_found hpaths hsettings hresolver h

/-- What a run that succeeds leaves behind. -/
theorem leaves_run (hpaths : o.paths ≠ []) (hdir : o.outDir = some dir) (hproper : p.files.Proper)
    (hsucceeds : (o.run p).ending.succeeds) :
    Leaves (p.absolute dir) p.files (o.run p).files := by
  cases hsettings : p.settings with
  | error error =>
    rw [run, hsettings] at hsucceeds
    exact absurd hsucceeds Bool.false_ne_true
  | ok settings =>
    cases hresolver : p.resolver settings (o.values.map p.absolute).toList with
    | error error =>
      have hengine : o.engine p settings = .error error := by
        rw [engine, if_neg (by simpa using hpaths), hresolver]
      rw [run, hsettings] at hsucceeds
      simp only [hengine] at hsucceeds
      exact absurd hsucceeds Bool.false_ne_true
    | ok resolver =>
      obtain ⟨events, -, hrun⟩ := run_found hpaths hdir hsettings hresolver rfl
      rw [hrun] at hsucceeds ⊢
      have hdistinct := o.nodup_handles_itemsAt resolver [] (p.files.stylesheets (o.roots p))
      refine leaves_writeAll (fun output houtput => ?_) hproper
        (writeAll_of_succeeds (Engine.stocks_stocked hdistinct) hdistinct hsucceeds)
      obtain ⟨item, -, houtput⟩ := List.mem_filterMap.mp houtput
      obtain ⟨body, -, rfl⟩ := Option.map_eq_some_iff.mp houtput
      exact fileOf_css _ _

/-- The settings are read alike from both trees. -/
private theorem settings_eq (h : Extends before after) (hroot : before.isDirectory p.root) :
    ({ p with files := after } : Project).settings =
      ({ p with files := before } : Project).settings := by
  have hread (name : String) (hname : Path.IsName name) (hlast : name.toList.getLast? ≠ some 's') :
      after.read? (p.root.join ⟨name⟩) = before.read? (p.root.join ⟨name⟩) :=
    h.read?_join hroot hname hlast
  have hfile (name : String) (hname : Path.IsName name) (hlast : name.toList.getLast? ≠ some 's')
      (hname' : Path.IsName (name ++ ".toml")) :
      ({ p with files := after } : Project).settingsFile? name =
        ({ p with files := before } : Project).settingsFile? name := by
    rw [Project.settingsFile?, Project.settingsFile?]
    simp only [Project.absolute]
    rw [hread name hname hlast, hread (name ++ ".toml") hname' (by simp)]
  rw [Project.settings, Project.settings, Project.layers, Project.layers,
    hfile ".dcss.toml" (by constructor <;> decide) (by decide) (by constructor <;> decide),
    hfile "dcss.toml" (by constructor <;> decide) (by decide) (by constructor <;> decide)]

/-- Whether a project has nothing in the way of its sources that another one has not: the stylesheets
that are compiled read as they do in the other, and no directory is the top of a repository only here. -/
structure Undisturbed (o : CompileOptions) (p other : Project) : Prop where
  sources : ∀ path ∈ distinct [] (p.files.stylesheets (o.roots p)),
    p.files.read? path = other.files.read? path
  repositories : ∀ d, p.files.isRepository d → other.files.isRepository d

/-- Bodies are written alike into what a run left and into the tree it began with, edited alike. -/
private theorem writeBodies_edited {edits : List Edit} (h : Leaves directory before after)
    (hbefores : before.AllowsAll edits) (hafters : after.AllowsAll edits) (bodies : List Artifact) :
    ∃ told left left' error,
      writeBodies directory (after.applyEdits edits) bodies = (told, left, error) ∧
        writeBodies directory (before.applyEdits edits) bodies = (told, left', error) := by
  rcases h.made with rfl | ⟨made, hmade, hdirectories⟩
  · exact ⟨_, _, _, _, rfl, rfl⟩
  · have hextends := hbefores.extends_applyEdits hafters h.extension
    have hfree : ∀ l content, made.isDirectoryAt l →
        (before.applyEdits edits).node? l ≠ some (.file content) := by
      intro l content hl hnode
      obtain ⟨content', hnode'⟩ := hextends.files l content hnode
      have hdirectory : (after.applyEdits edits).isDirectoryAt l := by
        rw [hafters.isDirectoryAt_applyEdits, hdirectories, hl, Bool.true_or]
      rw [FileTree.isDirectoryAt_iff, hnode'] at hdirectory
      exact nomatch hdirectory
    obtain ⟨made', hmade', hsame⟩ :=
      FileTree.makeFrom_added hmade hbefores.isDirectoryAt_applyEdits hfree
    have hall (l : Location) : made'.isDirectoryAt l = (after.applyEdits edits).isDirectoryAt l := by
      rw [hsame, hafters.isDirectoryAt_applyEdits, hdirectories]
    obtain ⟨told, left, left', error, hfirst, hsecond⟩ := writeBodies_same bodies hmade' hall
    exact ⟨told, left', left, error, hsecond, hfirst⟩

/-- After a run that succeeds and any edits, the command writes what it writes where the run never took
place, if the run left nothing in the way of the sources. -/
theorem run_again {edits : List Edit} (hpaths : o.paths ≠ []) (hvalues : o.values = none)
    (hdir : o.outDir = some dir) (hproper : p.files.Proper) (hroot : p.files.isDirectory p.root)
    (hsucceeds : (o.run p).ending.succeeds)
    (hbefores : p.files.AllowsAll edits) (hafters : (o.run p).files.AllowsAll edits)
    (hundisturbed : o.Undisturbed { p with files := (o.run p).files.applyEdits edits }
      { p with files := p.files.applyEdits edits }) :
    SameWrites (p.absolute dir) ((o.run p).files.applyEdits edits) (p.files.applyEdits edits)
      (o.run { p with files := (o.run p).files.applyEdits edits })
      (o.run { p with files := p.files.applyEdits edits }) := by
  have hleaves := leaves_run hpaths hdir hproper hsucceeds
  generalize (o.run p).files = left at hleaves hafters hundisturbed ⊢
  have hbefore := hbefores.proper_applyEdits hproper
  have hafter := hafters.proper_applyEdits hleaves.proper
  have hextends := hbefores.extends_applyEdits hafters hleaves.extension
  have hroot' : (p.files.applyEdits edits).isDirectory p.root := by
    refine FileTree.isDirectory_mono (fun l hl => ?_) hroot
    rw [hbefores.isDirectoryAt_applyEdits, hl, Bool.true_or]
  have hsettings' := settings_eq (p := p) hextends hroot'
  cases hsettings : ({ p with files := p.files.applyEdits edits } : Project).settings with
  | error error =>
    rw [run, run, hsettings', hsettings]
    exact ⟨rfl, ⟨[], none, rfl, rfl⟩, rfl, rfl⟩
  | ok settings =>
    rw [hsettings] at hsettings'
    obtain ⟨resolver, hresolver⟩ : ∃ resolver, ∀ files, ({ p with files } : Project).resolver settings
        (o.values.map p.absolute).toList = .ok resolver := by
      rw [hvalues]
      exact ⟨_, fun files => rfl⟩
    have hsources : ∀ path ∈ distinct [] ((left.applyEdits edits).stylesheets (o.roots p)),
        (left.applyEdits edits).read? path = (p.files.applyEdits edits).read? path :=
      hundisturbed.sources
    obtain ⟨told', htold', hrun'⟩ := run_found hpaths hdir hsettings' (hresolver _) rfl
    obtain ⟨told, htold, hrun⟩ := run_found hpaths hdir hsettings (hresolver _) rfl
    have hdelivers := sameWrites_deliver
      (map_rendition_found hextends hundisturbed.repositories hbefore hafter hsources o
        resolver)
      (o.nodup_handles_itemsAt _ [] _) (o.nodup_handles_itemsAt _ [] _)
      (external_itemsAt hdir _ _) (external_itemsAt hdir _ _)
      (writeBodies_edited hleaves hbefores hafters)
    rw [hrun', hrun]
    exact hdelivers.prepend htold' htold

private def projectOf (nodes : List (Location × FileNode)) : Project := ⟨⟨"/p"⟩, ⟨nodes⟩, none⟩

/-- Compiles what is below one directory of the project into another one. -/
private def compileInto (source dir : String) : CompileOptions :=
  ⟨[⟨source⟩], none, false, some ⟨dir⟩⟩

private def apart : Project :=
  projectOf [(["p"], .directory), (["p", "src"], .directory), (["p", "src", "a.dcss"], .file "old")]

/-- A directory of sources that is compiled into another one. In between the source is moved into a new
directory and changed. -/
theorem run_again_apart :
    let o := compileInto "src" "dist"
    let edits : List Edit := [⟨["p", "src", "a.dcss"], none⟩, ⟨["p", "src", "new"], some .directory⟩,
      ⟨["p", "src", "new", "a.dcss"], some (.file "new")⟩]
    let left := (o.run apart).files.applyEdits edits
    let fresh := apart.files.applyEdits edits
    o.paths ≠ [] ∧ o.values = none ∧ o.outDir = some ⟨"dist"⟩ ∧ apart.files.Proper ∧
      apart.files.isDirectory apart.root ∧ (o.run apart).ending.succeeds ∧
      apart.files.AllowsAll edits ∧ (o.run apart).files.AllowsAll edits ∧
      o.Undisturbed { apart with files := left } { apart with files := fresh } ∧
      (o.run { apart with files := left }).files.read? ⟨"/p/dist/a.css"⟩ = some "new" ∧
      SameWrites (apart.absolute ⟨"dist"⟩) left fresh (o.run { apart with files := left })
        (o.run { apart with files := fresh }) := by
  intro o edits left fresh
  let made : FileTree := ⟨[(["p"], .directory), (["p", "src"], .directory),
    (["p", "src", "a.dcss"], .file "old"), (["p", "dist"], .directory),
    (["p", "dist", "a.css"], .file "old")]⟩
  have hproper : apart.files.Proper := by decide +kernel
  have hroot : apart.files.isDirectory apart.root := by decide +kernel
  have hrun : (o.run apart).files = made ∧ (o.run apart).ending.succeeds := by decide +kernel
  have hsucceeds := hrun.2
  have hbefores : apart.files.AllowsAll edits := by decide +kernel
  have hafters : (o.run apart).files.AllowsAll edits := by
    rw [hrun.1]
    decide +kernel
  have hleft : left = made.applyEdits edits := congrArg (FileTree.applyEdits · edits) hrun.1
  have hundisturbed : o.Undisturbed { apart with files := left } { apart with files := fresh } := by
    rw [hleft]
    refine ⟨by decide +kernel, fun d hd => ?_⟩
    have hlast : ∀ l ∈ (made.applyEdits edits).locations, l.getLast? ≠ some ".git" := by
      decide +kernel
    exact absurd (by simp) (hlast _ (FileTree.mem_locations_of_isRepository hd))
  have hoverwritten : (o.run { apart with files := left }).files.read? ⟨"/p/dist/a.css"⟩ = some "new" := by
    rw [hleft]
    decide +kernel
  exact ⟨by decide, rfl, rfl, hproper, hroot, hsucceeds, hbefores, hafters, hundisturbed, hoverwritten,
    run_again (by decide) rfl rfl hproper hroot hsucceeds hbefores hafters hundisturbed⟩

/-- Whether a second run, after one that succeeds and edits, leaves a file otherwise than a run where the
first one never took place. -/
structure Differs (o : CompileOptions) (p : Project) (edits : List Edit) (output : Path) : Prop where
  proper : p.files.Proper
  succeeds : (o.run p).ending.succeeds
  allowed : p.files.AllowsAll edits ∧ (o.run p).files.AllowsAll edits
  differs : (o.run { p with files := (o.run p).files.applyEdits edits }).files.read? output ≠
    (o.run { p with files := p.files.applyEdits edits }).files.read? output

private def themed : Project := projectOf [(["p"], .directory), (["p", "theme.dcss"], .file "old")]

/-- The output comes before its source in the order of paths. -/
private theorem differs_themed :
    Differs (compileInto "." "dist") themed [⟨["p", "theme.dcss"], some (.file "new")⟩]
      ⟨"/p/dist/theme.css"⟩ := by
  let made : FileTree := ⟨[(["p"], .directory), (["p", "theme.dcss"], .file "old"),
    (["p", "dist"], .directory), (["p", "dist", "theme.css"], .file "old")]⟩
  let left := made.applyEdits [⟨["p", "theme.dcss"], some (.file "new")⟩]
  have hrun : ((compileInto "." "dist").run themed).files = made ∧
      ((compileInto "." "dist").run themed).ending.succeeds := by
    decide +kernel
  have hgt : Path.compare ⟨"/p/./theme.dcss"⟩ ⟨"/p/./dist/theme.css"⟩ = .gt := by decide +kernel
  have hboth : [(⟨"/p/."⟩ : Path)].flatMap left.stylesheetsAt =
      [⟨"/p/./theme.dcss"⟩, ⟨"/p/./dist/theme.css"⟩] := by
    decide +kernel
  have hfound : left.stylesheets ((compileInto "." "dist").roots { themed with files := left }) =
      FileTree.dropRepeated [⟨"/p/./dist/theme.css"⟩, ⟨"/p/./theme.dcss"⟩] := by
    have hroots : (compileInto "." "dist").roots { themed with files := left } = [⟨"/p/."⟩] := by
      decide +kernel
    rw [hroots, FileTree.stylesheets, hboth]
    simp [List.mergeSort, hgt]
  have hsecond : ((compileInto "." "dist").run { themed with files := left }).files.read?
      ⟨"/p/dist/theme.css"⟩ = some "old" := by
    unfold run engine foundEngine
    rw [hfound]
    decide +kernel
  refine ⟨by decide +kernel, hrun.2, ?_, ?_⟩
  · rw [hrun.1]
    decide +kernel
  · rw [hrun.1, hsecond]
    decide +kernel

private def ignoring : Project :=
  projectOf [(["p"], .directory), (["p", ".gitignore"], .file "*"), (["p", "a.dcss"], .file "old")]

/-- The directory for output makes a repository of the project, so that rules in it begin to count. -/
private theorem differs_ignoring :
    Differs (compileInto "." ".git") ignoring [⟨["p", "a.dcss"], some (.file "new")⟩]
      ⟨"/p/.git/a.css"⟩ := by
  let made : FileTree := ⟨[(["p"], .directory), (["p", ".gitignore"], .file "*"),
    (["p", "a.dcss"], .file "old"), (["p", ".git"], .directory), (["p", ".git", "a.css"], .file "old")]⟩
  let left := made.applyEdits [⟨["p", "a.dcss"], some (.file "new")⟩]
  have hrun : ((compileInto "." ".git").run ignoring).files = made ∧
      ((compileInto "." ".git").run ignoring).ending.succeeds := by
    decide +kernel
  have hpassed : left.isPassedOver ["p", ".git"] true ∧ left.isPassedOver ["p", ".gitignore"] false ∧
      left.isPassedOver ["p", "a.dcss"] false := by
    refine ⟨by cbv, by cbv, by cbv⟩
  have hbelow : left.filesBelow ["p"] =
      [([".gitignore"], "*"), (["a.dcss"], "new"), ([".git", "a.css"], "old")] := by
    decide +kernel
  have hlocate : left.locate? ⟨"/p/."⟩ = some ["p"] := by decide +kernel
  have hdirectory : left.isFile ⟨"/p/."⟩ = false := by decide +kernel
  have hfound : left.stylesheets ((compileInto "." ".git").roots { ignoring with files := left }) =
      [] := by
    have hroots : (compileInto "." ".git").roots { ignoring with files := left } = [⟨"/p/."⟩] := by
      decide +kernel
    simp [hroots, FileTree.stylesheets, FileTree.stylesheetsAt, FileTree.stylesheetsBelow,
      FileTree.isReached, FileTree.isApproached, FileTree.dropRepeated, List.range_succ, hpassed,
      hbelow, hlocate, hdirectory]
  have hsecond : ((compileInto "." ".git").run { ignoring with files := left }).files.read?
      ⟨"/p/.git/a.css"⟩ = some "old" := by
    unfold run engine foundEngine
    rw [hfound]
    decide +kernel
  refine ⟨by decide +kernel, hrun.2, ?_, ?_⟩
  · rw [hrun.1]
    decide +kernel
  · rw [hrun.1, hsecond]
    decide +kernel

/-- Without the proviso a second run may differ: it compiles what the first run made of a source in place
of the source, or the first run made a repository whose rules pass over the source. -/
theorem run_again_differs :
    Differs (compileInto "." "dist") themed [⟨["p", "theme.dcss"], some (.file "new")⟩]
        ⟨"/p/dist/theme.css"⟩ ∧
      Differs (compileInto "." ".git") ignoring [⟨["p", "a.dcss"], some (.file "new")⟩]
        ⟨"/p/.git/a.css"⟩ :=
  ⟨differs_themed, differs_ignoring⟩

end CompileOptions

end StyleTemplate
