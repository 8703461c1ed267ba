import StyleTemplate.Proofs.Command.Configured
import StyleTemplate.Proofs.FileTree.Writing

/-! Where the stylesheets of the settings are written. A handle becomes part of a path, so that it may lead
out of the directory for output, and two handles may lead to one file. A run keeps its files apart exactly
when the texts of their paths do (`CompileOptions.keptApart_iff`), and so it does whenever no handle has a
slash in it (`CompileOptions.compile_placed`). -/

namespace StyleTemplate

open FileTree (placeOf)

namespace CompileOptions

variable {directory : Path} {before between after : FileTree} {written more : List (Path × String)}

/-! ### What writing does -/

/-- What writing files into a directory one after the other does: the last body that goes to a place is
there afterwards, and everywhere else nothing is new but directories. -/
structure Writes (directory : Path) (before after : FileTree) (written : List (Path × String)) :
    Prop where
  proper : after.Proper
  directories : ∀ l, before.isDirectoryAt l → after.isDirectoryAt l
  opened : written ≠ [] → after.locate? directory = some (placeOf directory)
  located : ∀ output ∈ written, after.locate? output.1 = some (placeOf output.1)
  last : ∀ front output back, written = front ++ output :: back →
    (∀ other ∈ back, placeOf other.1 ≠ placeOf output.1) →
      after.node? (placeOf output.1) = some (.file output.2)
  frame : ∀ l, (∀ output ∈ written, placeOf output.1 ≠ l) → after.node? l = before.node? l ∨
    before.node? l = none ∧ after.node? l = some .directory

namespace Writes

theorem nil (hproper : before.Proper) : Writes directory before before [] where
  proper := hproper
  directories _ hl := hl
  opened hne := absurd rfl hne
  located := by simp
  last front output back hsplit := by simp at hsplit
  frame _ _ := .inl rfl

theorem append (h : Writes directory before between written) (h' : Writes directory between after more) :
    Writes directory before after (written ++ more) where
  proper := h'.proper
  directories l hl := h'.directories l (h.directories l hl)
  opened hne := by
    by_cases hmore : more = []
    · rw [hmore, List.append_nil] at hne
      exact FileTree.locate?_mono h'.directories (h.opened hne)
    · exact h'.opened hmore
  located output houtput := by
    rcases List.mem_append.mp houtput with houtput | houtput
    · exact FileTree.locate?_mono h'.directories (h.located output houtput)
    · exact h'.located output houtput
  last front output back hsplit hback := by
    rcases List.append_eq_append_iff.mp hsplit with ⟨rest, -, hmore⟩ | ⟨rest, hwritten, hrest⟩
    · exact h'.last rest output back hmore hback
    · cases rest with
      | nil => exact h'.last [] output back hrest.symm hback
      | cons first rest =>
        -- it was written before all of `more`, which leaves its place alone
        obtain ⟨rfl, rfl⟩ := List.cons.inj hrest
        have hthere := h.last front output rest hwritten fun other hother =>
          hback other (List.mem_append_left _ hother)
        rcases h'.frame _ fun other hother => hback other (List.mem_append_right _ hother) with
          heq | ⟨hnone, -⟩
        · rw [heq, hthere]
        · rw [hthere] at hnone
          exact nomatch hnone
  frame l hl := by
    have hfirst := h.frame l fun output houtput => hl output (List.mem_append_left _ houtput)
    rcases h'.frame l fun output houtput => hl output (List.mem_append_right _ houtput) with
      heq | ⟨hnone, hdirectory⟩
    · rw [heq]
      exact hfirst
    · rcases hfirst with heq | ⟨-, hmade⟩
      · exact .inr ⟨heq ▸ hnone, hdirectory⟩
      · rw [hmade] at hnone
        exact nomatch hnone

/-- With one body for each place, all bodies are there afterwards. -/
theorem read?_of_nodup (h : Writes directory before after written)
    (hdistinct : (written.map fun output => placeOf output.1).Nodup) {output : Path × String}
    (houtput : output ∈ written) : after.read? output.1 = some output.2 := by
  obtain ⟨front, back, hsplit⟩ := List.append_of_mem houtput
  rw [hsplit, List.map_append, List.map_cons] at hdistinct
  have hlater := (List.nodup_cons.mp (List.nodup_append.mp hdistinct).2.1).1
  have hback : ∀ other ∈ back, placeOf other.1 ≠ placeOf output.1 := by
    intro other hother heq
    exact hlater (heq ▸ List.mem_map_of_mem hother)
  rw [FileTree.read?, FileTree.nodeAt?, h.located output houtput, Option.bind_some,
    h.last front output back hsplit hback]

/-- A file was there with its content, or it was written to. -/
theorem exists_output (h : Writes directory before after written) {l : Location} {content : String}
    (hl : after.node? l = some (.file content)) :
    before.node? l = some (.file content) ∨ ∃ output ∈ written, placeOf output.1 = l := by
  by_cases hwritten : ∃ output ∈ written, placeOf output.1 = l
  · exact .inr hwritten
  · have hnone : ∀ output ∈ written, placeOf output.1 ≠ l := by
      intro output houtput heq
      exact hwritten ⟨output, houtput, heq⟩
    rcases h.frame l hnone with heq | ⟨-, hdirectory⟩
    · exact .inl (heq ▸ hl)
    · rw [hdirectory] at hl
      exact nomatch hl

end Writes

/-- Writing a body makes the directory and puts a file where the path leads. -/
private theorem exists_of_writeBody {a : Artifact} (h : writeBody directory before a = .ok after) :
    ∃ made, before.makeDirectories? directory = some made ∧
      made.locate? (fileOf directory a.handle) = some (placeOf (fileOf directory a.handle)) ∧
      made.isDirectoryAt (placeOf (fileOf directory a.handle)) = false ∧
      after = made.put (placeOf (fileOf directory a.handle)) (.file a.body) := by
  unfold writeBody at h
  cases hmade : before.makeDirectories? directory with
  | none =>
    rw [hmade] at h
    exact nomatch h
  | some made =>
    cases hwritten : made.write? (fileOf directory a.handle) a.body with
    | none =>
      simp only [hmade, hwritten] at h
      exact nomatch h
    | some written =>
      simp only [hmade, hwritten] at h
      obtain rfl := Except.ok.inj h
      obtain ⟨l, hl, hfree, hput⟩ := FileTree.exists_of_write? hwritten
      obtain rfl := FileTree.eq_placeOf_of_locate? hl
      exact ⟨made, rfl, hl, hfree, hput⟩

/-- One body goes to the place that the text of its path names. -/
theorem writes_writeBody {a : Artifact} (hproper : before.Proper)
    (h : writeBody directory before a = .ok after) :
    Writes directory before after [outputOf directory a] := by
  obtain ⟨made, hmade, hl, hfree, rfl⟩ := exists_of_writeBody h
  have hpieces : ∀ piece ∈ directory.pieces, '/' ∉ piece.toList := fun _ => Path.slash_not_mem_piece
  have hopened := (hproper.follow_of_makeFrom hpieces FileTree.isDirectoryAt_nil hmade).1
  have hproper' : made.Proper := hproper.makeFrom hpieces FileTree.isDirectoryAt_nil hmade
  have hkept : ∀ l, made.isDirectoryAt l →
      (made.put (placeOf (fileOf directory a.handle)) (.file a.body)).isDirectoryAt l :=
    fun l hl => (FileTree.isDirectoryAt_put_file hfree a.body l).trans hl
  have hne : placeOf (fileOf directory a.handle) ≠ [] := by
    intro hnil
    rw [hnil, FileTree.isDirectoryAt_nil] at hfree
    exact nomatch hfree
  obtain ⟨text, hcss⟩ := fileOf_css directory a.handle
  obtain ⟨here, stem, hhere, hname, hplace⟩ := FileTree.exists_of_locate?_css (hcss ▸ hl)
  rw [← hcss] at hplace
  constructor
  case proper =>
    rw [hplace] at hfree ⊢
    exact hproper'.put hhere hname (.inr hfree)
  case directories =>
    intro l hl
    exact hkept l (FileTree.isDirectoryAt_of_makeFrom hmade hl)
  case opened =>
    intro _
    exact FileTree.locate?_mono hkept hopened
  case located => exact List.forall_mem_singleton.mpr (FileTree.locate?_mono hkept hl)
  case last =>
    intro front output back hsplit _
    obtain rfl : output = outputOf directory a := by
      rw [← List.mem_singleton, hsplit]
      exact List.mem_append_right _ List.mem_cons_self
    exact (FileTree.node?_put hne).trans (if_pos rfl)
  case frame =>
    intro l hl
    have hother : l ≠ placeOf (fileOf directory a.handle) := (List.forall_mem_singleton.mp hl).symm
    rw [FileTree.node?_put hne, if_neg hother]
    exact FileTree.node?_of_makeFrom hmade l

/-- Bodies are written in their order, up to the first that cannot be written. -/
theorem writes_writeBodies {as : List Artifact} {told : List Event} {error : Option CommandError}
    (hproper : before.Proper) (h : writeBodies directory before as = (told, after, error)) :
    ∃ written, written <+: as.map (outputOf directory) ∧
      (error = none → written = as.map (outputOf directory)) ∧
      told = written.map (fun output => wroteEvent output.1) ∧
      Writes directory before after written := by
  induction as generalizing before told with
  | nil =>
    obtain ⟨rfl, rfl, rfl⟩ := h
    exact ⟨[], List.nil_prefix, fun _ => rfl, rfl, .nil hproper⟩
  | cons a as ih =>
    rw [writeBodies] at h
    cases hbody : writeBody directory before a with
    | error cause =>
      rw [hbody] at h
      obtain ⟨rfl, rfl, rfl⟩ := h
      exact ⟨[], List.nil_prefix, fun hnone => absurd hnone (Option.some_ne_none cause), rfl, .nil hproper⟩
    | ok between =>
      have hfirst := writes_writeBody hproper hbody
      rcases hrest : writeBodies directory between as with ⟨told', after', error'⟩
      simp only [hbody, hrest] at h
      obtain ⟨rfl, rfl, rfl⟩ := h
      obtain ⟨written, hbegins, hall, rfl, hwrites⟩ := ih hfirst.proper hrest
      refine ⟨outputOf directory a :: written, ?_, fun hnone => ?_, rfl, hfirst.append hwrites⟩
      · exact (List.prefix_cons_inj _).mpr hbegins
      · rw [hall hnone, List.map_cons]

/-! ### Files kept apart -/

/-- Whether a location lies below a directory. -/
def Inside (tree : FileTree) (directory : Path) (l : Location) : Prop :=
  ∃ here, tree.locate? directory = some here ∧ here <+: l ∧ here ≠ l

/-- Whether files that were written lie below the directory, no two of them in one place, so that each
has what was written to it, and whether no other file is new or changed. -/
structure KeptApart (directory : Path) (before after : FileTree) (written : List (Path × String)) :
    Prop where
  inside : ∀ output ∈ written, ∃ l, after.locate? output.1 = some l ∧ Inside after directory l
  distinct : (written.map fun output => after.locate? output.1).Nodup
  kept : ∀ output ∈ written, after.read? output.1 = some output.2
  outside : ∀ l content, after.node? l = some (.file content) →
    before.node? l = some (.file content) ∨ Inside after directory l

/-- Whether the texts of the paths name places below the directory, no two of them the same. -/
structure Apart (directory : Path) (written : List (Path × String)) : Prop where
  below : ∀ output ∈ written, placeOf directory <+: placeOf output.1 ∧
    placeOf directory ≠ placeOf output.1
  distinct : (written.map fun output => placeOf output.1).Nodup

theorem apart_iff : Apart directory written ↔
    (∀ output ∈ written, placeOf directory <+: placeOf output.1 ∧
      placeOf directory ≠ placeOf output.1) ∧
        (written.map fun output => placeOf output.1).Nodup :=
  ⟨fun h => ⟨h.below, h.distinct⟩, fun h => ⟨h.1, h.2⟩⟩

instance (directory : Path) (written : List (Path × String)) : Decidable (Apart directory written) :=
  decidable_of_iff _ apart_iff.symm

theorem Apart.sublist (h : Apart directory more) (hsub : written.Sublist more) :
    Apart directory written :=
  ⟨fun output houtput => h.below output (hsub.subset houtput), h.distinct.sublist (hsub.map _)⟩

/-- Files are kept apart exactly when the texts of their paths keep them apart. -/
theorem keptApart_iff (h : Writes directory before after written) :
    KeptApart directory before after written ↔ Apart directory written := by
  have hplaces : (written.map fun output => after.locate? output.1) =
      (written.map fun output => placeOf output.1).map some := by
    rw [List.map_map]
    exact List.map_congr_left fun output houtput => h.located output houtput
  have hdistinct : (written.map fun output => after.locate? output.1).Nodup ↔
      (written.map fun output => placeOf output.1).Nodup := by
    rw [hplaces, List.nodup_map_iff fun _ _ => Option.some.inj]
  constructor
  · intro hkept
    refine ⟨?_, hdistinct.mp hkept.distinct⟩
    intro output houtput
    obtain ⟨l, hl, here, hhere, hbelow⟩ := hkept.inside output houtput
    rw [h.located output houtput] at hl
    rw [h.opened (List.ne_nil_of_mem houtput)] at hhere
    obtain rfl := Option.some.inj hl
    obtain rfl := Option.some.inj hhere
    exact hbelow
  · intro hapart
    have hinside : ∀ output ∈ written, Inside after directory (placeOf output.1) := by
      intro output houtput
      exact ⟨_, h.opened (List.ne_nil_of_mem houtput), hapart.below output houtput⟩
    refine ⟨?_, hdistinct.mpr hapart.distinct, ?_, ?_⟩
    · intro output houtput
      exact ⟨_, h.located output houtput, hinside output houtput⟩
    · intro output houtput
      exact h.read?_of_nodup hapart.distinct houtput
    · intro l content hl
      rcases h.exists_output hl with hbefore | ⟨output, houtput, rfl⟩
      · exact .inl hbefore
      · exact .inr (hinside output houtput)

/-! ### Handles -/

/-- A handle without a slash names a file in the directory itself. -/
theorem placeOf_fileOf {handle : String} (h : '/' ∉ handle.toList) :
    placeOf (fileOf directory handle) = placeOf directory ++ [handle ++ ".css"] := by
  have hname : '/' ∉ (handle ++ ".css").toList := by simp [h]
  have hrelative : Path.isAbsolute ⟨handle ++ ".css"⟩ = false := by
    rw [Path.isAbsolute, beq_eq_false_iff_ne]
    exact fun hhead => hname (List.mem_of_mem_head? hhead)
  rw [fileOf, FileTree.placeOf_join hrelative, Path.pieces_of_not_mem hname, List.foldl_cons,
    FileTree.advance_css, List.foldl_nil]

variable {o : CompileOptions} {p : Project} {settings : Settings}

/-- Distinct handles without slashes keep the files of the entries apart. -/
theorem apart_outputsOf (hsettings : p.settings = .ok settings)
    (hslash : ∀ entry ∈ settings.stylesheets, o.prints entry = false → '/' ∉ entry.handle.toList) :
    Apart (o.target p settings) (o.outputsOf p settings) := by
  have hwhole : ∀ entry ∈ settings.stylesheets.filter (!o.prints ·), '/' ∉ entry.handle.toList := by
    intro entry hentry
    obtain ⟨hmem, hexternal⟩ := List.mem_filter.mp hentry
    exact hslash entry hmem (by simpa using hexternal)
  constructor
  · intro output houtput
    obtain ⟨entry, hentry, houtput⟩ := List.mem_filterMap.mp houtput
    obtain ⟨body, -, rfl⟩ := Option.map_eq_some_iff.mp houtput
    have hplace : placeOf ((o.target p settings).join ⟨entry.handle ++ ".css"⟩) =
        placeOf (o.target p settings) ++ [entry.handle ++ ".css"] :=
      placeOf_fileOf (hwhole entry hentry)
    rw [hplace]
    exact ⟨List.prefix_append _ _, by simp⟩
  · have hhandles : (settings.stylesheets.filter (!o.prints ·)).Pairwise
        fun entry other => entry.handle ≠ other.handle :=
      (List.pairwise_map.mp (Project.nodup_handles hsettings)).filter _
    rw [List.Nodup, outputsOf, List.pairwise_map, List.pairwise_filterMap]
    refine hhandles.imp_of_mem fun hentry hother hne output houtput output' houtput' heq => hne ?_
    obtain ⟨body, -, rfl⟩ := Option.map_eq_some_iff.mp houtput
    obtain ⟨body', -, rfl⟩ := Option.map_eq_some_iff.mp houtput'
    have hnames := (placeOf_fileOf (hwhole _ hentry)).symm.trans
      (heq.trans (placeOf_fileOf (hwhole _ hother)))
    have hname := congrArg String.toList (List.singleton_inj.mp (List.append_cancel_left hnames))
    rw [String.toList_append, String.toList_append] at hname
    exact String.toList_inj.mp (List.append_cancel_right hname)

/-! ### A run over the settings -/

/-- The files that a run without paths writes: those of the entries in their order, all of them unless
something stops the run, each one told of, and nothing besides them. -/
structure Written (o : CompileOptions) (p : Project) (settings : Settings)
    (written : List (Path × String)) : Prop where
  begins : written <+: o.outputsOf p settings
  all : (∀ error, (o.run p).ending ≠ .stopped error) → written = o.outputsOf p settings
  told : ∃ before, (o.run p).events = before ++ written.map fun output => wroteEvent output.1
  writes : Writes (o.target p settings) p.files (o.run p).files written

/-- There are such files; none if the values of an entry cannot be read. -/
theorem exists_written (hpaths : o.paths = []) (hsettings : p.settings = .ok settings)
    (hproper : p.files.Proper) : ∃ written, o.Written p settings written := by
  cases hengine : o.configuredEngine p settings with
  | error error =>
    have hrun : o.run p = ⟨[], [settings.loadedEvent], p.files, .stopped error⟩ := by
      rw [run, hsettings]
      simp only [engine, hpaths, List.isEmpty_nil, if_true, hengine]
    refine ⟨[], List.nil_prefix, fun hnone => ?_, ⟨[settings.loadedEvent], ?_⟩, ?_⟩
    · rw [hrun] at hnone
      exact absurd rfl (hnone error)
    · rw [hrun]
      rfl
    · rw [hrun]
      exact .nil hproper
  | ok e =>
    have hvalues := isSome_of_configuredEngine hengine
    have hdistinct := nodup_handles_items (o := o) hsettings
    obtain ⟨as, before, told, error, houtputs, hwritten, htold, hending⟩ :=
      exists_writeBodies (Engine.stocks_stocked hdistinct) hdistinct (o.target p settings) p.files
    generalize hdelivered : deliver (.stocked (settings.stylesheets.map (o.itemOf p settings)))
      p.files (o.target p settings) = delivered at hwritten htold hending
    have hrun := run_configured hpaths hsettings hvalues hdelivered
    rw [htold] at hrun
    rw [outputs_items hvalues] at houtputs
    obtain ⟨written, hbegins, hall, rfl, hwrites⟩ := writes_writeBodies hproper hwritten
    rw [houtputs] at hbegins hall
    refine ⟨written, hbegins, fun hnone => ?_, ?_, ?_⟩
    · rcases hending with hclean | ⟨cause, hstopped⟩
      · exact hall hclean
      · rw [hrun] at hnone
        exact absurd hstopped (hnone cause)
    · rw [hrun]
      exact ⟨_, (List.cons_append ..).symm⟩
    · rw [hrun]
      exact hwrites

theorem Written.eq_of_done (h : o.Written p settings written) (hdone : (o.run p).ending = .done) :
    written = o.outputsOf p settings := by
  refine h.all fun error hstopped => ?_
  rw [hdone] at hstopped
  exact nomatch hstopped

/-- Without paths a run over accepted settings keeps its files apart, in the directory for output,
exactly when the texts of their paths do, and so it does if no handle that is written has a slash. -/
theorem compile_placed (hpaths : o.paths = []) (hsettings : p.settings = .ok settings)
    (hproper : p.files.Proper) :
    ∃ written, o.Written p settings written ∧
      (KeptApart (o.target p settings) p.files (o.run p).files written ↔
        Apart (o.target p settings) written) ∧
      ((∀ entry ∈ settings.stylesheets, o.prints entry = false → '/' ∉ entry.handle.toList) →
        KeptApart (o.target p settings) p.files (o.run p).files written) := by
  obtain ⟨written, hwritten⟩ := exists_written hpaths hsettings hproper
  have hiff := keptApart_iff hwritten.writes
  refine ⟨written, hwritten, hiff, fun hslash => hiff.mpr ?_⟩
  exact (apart_outputsOf hsettings hslash).sublist hwritten.begins.sublist

/-- Settings with two stylesheets under these handles. -/
private def handledBy (first second : String) : Project where
  root := ⟨"/p"⟩
  files := ⟨[(["p"], .directory),
    (["p", "dcss.toml"], .file ("\n".intercalate
      ["[[stylesheets]]", "handle = '" ++ first ++ "'", "path = 'a.dcss'",
        "[[stylesheets]]", "handle = '" ++ second ++ "'", "path = 'b.dcss'"])),
    (["p", "a.dcss"], .file "1"), (["p", "b.dcss"], .file "2")]⟩
  userSettings := none

/-- Two stylesheets that are written into a directory that is made for them. -/
theorem compile_placed_names :
    let o : CompileOptions := ⟨[], none, false, some ⟨"dist"⟩⟩
    let p := handledBy "a" "b"
    ∃ settings written, o.paths = [] ∧ p.settings = .ok settings ∧ p.files.Proper ∧
      (∀ entry ∈ settings.stylesheets, o.prints entry = false → '/' ∉ entry.handle.toList) ∧
      written = [(⟨"/p/dist/a.css"⟩, "1"), (⟨"/p/dist/b.css"⟩, "2")] ∧
      o.Written p settings written ∧
      (KeptApart (o.target p settings) p.files (o.run p).files written ↔
        Apart (o.target p settings) written) ∧
      KeptApart (o.target p settings) p.files (o.run p).files written := by
  intro o p
  have hproper : p.files.Proper := by decide +kernel
  have haccepted : p.settings.toOption.any (fun settings => decide
      ((∀ entry ∈ settings.stylesheets, o.prints entry = false → '/' ∉ entry.handle.toList) ∧
        o.outputsOf p settings = [(⟨"/p/dist/a.css"⟩, "1"), (⟨"/p/dist/b.css"⟩, "2")] ∧
        (o.run p).ending = .done)) = true := by
    decide +kernel
  obtain ⟨settings, hsettings, hchecked⟩ := Project.exists_settings haccepted
  obtain ⟨hslash, houtputs, hdone⟩ := of_decide_eq_true hchecked
  obtain ⟨written, hwritten, hiff, hkept⟩ := compile_placed (o := o) rfl hsettings hproper
  exact ⟨settings, written, rfl, hsettings, hproper, hslash,
    (hwritten.eq_of_done hdone).trans houtputs, hwritten, hiff, hkept hslash⟩

/-- A run that ends well keeps its files apart only if the texts of all their paths do. -/
private theorem exists_not_keptApart (hpaths : o.paths = []) (hproper : p.files.Proper)
    (h : p.settings.toOption.any (fun settings => decide
      ((o.run p).ending = .done ∧ ¬Apart (o.target p settings) (o.outputsOf p settings))) = true) :
    ∃ settings written, p.settings = .ok settings ∧ o.Written p settings written ∧
      ¬KeptApart (o.target p settings) p.files (o.run p).files written := by
  obtain ⟨settings, hsettings, hchecked⟩ := Project.exists_settings h
  obtain ⟨hdone, hapart⟩ := of_decide_eq_true hchecked
  obtain ⟨written, hwritten⟩ := exists_written hpaths hsettings hproper
  refine ⟨settings, written, hsettings, hwritten, fun hkept => hapart ?_⟩
  rw [← hwritten.eq_of_done hdone]
  exact (keptApart_iff hwritten.writes).mp hkept

/-- Handles with slashes may lead out of the directory, and two of them to one file, of which the last
body stays. -/
theorem not_keptApart :
    let o : CompileOptions := ⟨[], none, false, some ⟨"dist"⟩⟩
    let escaping := handledBy "a" "../a"
    let doubled := handledBy "a" "./a"
    (∃ settings written, escaping.settings = .ok settings ∧ o.Written escaping settings written ∧
        ¬KeptApart (o.target escaping settings) escaping.files (o.run escaping).files written) ∧
      (o.run escaping).files.read? ⟨"/p/a.css"⟩ = some "2" ∧
      (∃ settings written, doubled.settings = .ok settings ∧ o.Written doubled settings written ∧
        ¬KeptApart (o.target doubled settings) doubled.files (o.run doubled).files written) ∧
      (o.run doubled).files.read? ⟨"/p/dist/a.css"⟩ = some "2" := by
  intro o escaping doubled
  refine ⟨exists_not_keptApart rfl ?_ ?_, ?_, exists_not_keptApart rfl ?_ ?_, ?_⟩
  all_goals decide +kernel

end CompileOptions

end StyleTemplate
