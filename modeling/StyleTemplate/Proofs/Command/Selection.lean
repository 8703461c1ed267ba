import StyleTemplate.Proofs.Command.Delivery
import StyleTemplate.Proofs.FileTree.Order
import StyleTemplate.Proofs.FileTree.Walking

/-! Which of the found stylesheets are compiled. Of those with one handle it is the least path
(`CompileOptions.mem_distinct_iff`), so that the choice depends on the steps of the paths that were found
and on nothing else (`CompileOptions.map_steps_distinct`), and so does what becomes of them
(`CompileOptions.map_rendition_eq`). The engine holds one item for each (`CompileOptions.foundEngine_eq`),
and a run is a delivery of these items (`CompileOptions.exists_run_found`). -/

namespace StyleTemplate.CompileOptions

variable {paths seen : List Path} {p q : Path}

/-- The handle of a stylesheet is the stem of its name. -/
theorem stem?_eq_handleOf (hsheet : p.isStylesheet) : p.stem? = some (handleOf p) := by
  have hsome : p.stem?.isSome := by
    rw [Path.stem?, Option.isSome_map]
    cases hnone : p.fileName? with
    | some name => rfl
    | none => simp [Path.isStylesheet, Path.extension?, hnone] at hsheet
  obtain ⟨stem, hstem⟩ := Option.isSome_iff_exists.mp hsome
  rw [handleOf, hstem, Option.getD_some]

/-- Stylesheets with the same steps have the same handle. -/
theorem handleOf_eq (hsheet : p.isStylesheet) (hsteps : p.steps = q.steps) :
    handleOf p = handleOf q := by
  have hname : p.fileName? = q.fileName? := by rw [Path.fileName?, Path.fileName?, hsteps]
  have hstem : p.stem? = q.stem? := by rw [Path.stem?, Path.stem?, hname]
  calc
    handleOf p = q.stem?.getD q.text := by
      rw [← hstem, stem?_eq_handleOf hsheet, Option.getD_some]
    _ = handleOf q := rfl

/-! ### The first of a handle -/

private theorem distinct_cons :
    distinct seen (p :: paths) =
      if handleOf p ∈ seen.map handleOf then distinct seen paths
      else p :: distinct (seen ++ [p]) paths := by
  rw [distinct]
  have hholder : (holder? (handleOf p) seen).isSome ↔ handleOf p ∈ seen.map handleOf := by
    simp [holder?, List.find?_isSome]
  split
  · rename_i existing hsome
    rw [if_pos (hholder.mp (by rw [hsome, Option.isSome_some]))]
  · rename_i hnone
    rw [if_neg fun hmem => by simp [hnone] at hholder; grind]

theorem distinct_sublist (seen paths : List Path) : (distinct seen paths).Sublist paths := by
  induction paths generalizing seen with
  | nil => exact .slnil
  | cons p paths ih =>
    rw [distinct_cons]
    split
    · exact (ih seen).cons p
    · exact (ih _).cons_cons p

/-- No two of the chosen paths have the same handle. -/
theorem nodup_handles_distinct (seen paths : List Path) :
    ((distinct seen paths).map handleOf).Nodup ∧
      ∀ p ∈ distinct seen paths, handleOf p ∉ seen.map handleOf := by
  induction paths generalizing seen with
  | nil => exact ⟨.nil, by simp [distinct]⟩
  | cons p paths ih =>
    rw [distinct_cons]
    split
    · exact ih seen
    · rename_i hnew
      obtain ⟨hdistinct, hrest⟩ := ih (seen ++ [p])
      rw [List.map_append] at hrest
      refine ⟨List.nodup_cons.mpr ⟨fun hmem => ?_, hdistinct⟩, fun q hq => ?_⟩
      · obtain ⟨q, hq, heq⟩ := List.mem_map.mp hmem
        exact hrest q hq (List.mem_append_right _ (by simp [heq]))
      · rcases List.mem_cons.mp hq with rfl | hq
        · exact hnew
        · exact fun hmem => hrest q hq (List.mem_append_left _ hmem)

/-- In ascending order, the least path of a handle is chosen. -/
theorem mem_distinct_iff (hsorted : paths.Pairwise fun p q => p.compare q = .lt) :
    p ∈ distinct seen paths ↔
      p ∈ paths ∧ handleOf p ∉ seen.map handleOf ∧
        ∀ q ∈ paths, handleOf q = handleOf p → q.compare p ≠ .lt := by
  induction paths generalizing seen with
  | nil => simp [distinct]
  | cons first paths ih =>
    obtain ⟨hfirst, hsorted⟩ := List.pairwise_cons.mp hsorted
    rw [distinct_cons]
    split
    · rename_i hheld
      rw [ih hsorted]
      grind
    · rename_i hnew
      rw [List.mem_cons, ih hsorted]
      constructor
      · rintro (rfl | ⟨hp, hother, hleast⟩)
        · refine ⟨List.mem_cons_self, hnew, fun q hq _ hlt => ?_⟩
          rcases List.mem_cons.mp hq with rfl | hq
          · simp [Std.ReflCmp.compare_self] at hlt
          · exact Std.OrientedCmp.not_lt_of_lt (hfirst q hq) hlt
        · rw [List.map_append, List.mem_append, not_or] at hother
          refine ⟨List.mem_cons_of_mem _ hp, hother.1, fun q hq heq => ?_⟩
          rcases List.mem_cons.mp hq with rfl | hq
          · exact absurd (by simp [heq]) hother.2
          · exact hleast q hq heq
      · rintro ⟨hp, hother, hleast⟩
        rcases List.mem_cons.mp hp with rfl | hp
        · exact .inl rfl
        · refine .inr ⟨hp, ?_, fun q hq => hleast q (List.mem_cons_of_mem _ hq)⟩
          rw [List.map_append, List.mem_append, not_or]
          refine ⟨hother, fun hmem => ?_⟩
          have heq : handleOf first = handleOf p := by simpa [eq_comm] using hmem
          exact hleast first List.mem_cons_self heq (hfirst p hp)

/-- For each path one with its handle is chosen that is no greater. -/
theorem exists_mem_distinct (hsorted : paths.Pairwise fun p q => p.compare q = .lt)
    (hp : p ∈ paths) (hnew : handleOf p ∉ seen.map handleOf) :
    ∃ q ∈ distinct seen paths, handleOf q = handleOf p ∧ p.compare q ≠ .lt := by
  induction paths generalizing seen with
  | nil => exact nomatch hp
  | cons first paths ih =>
    obtain ⟨hfirst, hsorted⟩ := List.pairwise_cons.mp hsorted
    rw [distinct_cons]
    split
    · rename_i hheld
      rcases List.mem_cons.mp hp with rfl | hp
      · exact absurd hheld hnew
      · exact ih hsorted hp hnew
    · by_cases heq : handleOf first = handleOf p
      · refine ⟨first, List.mem_cons_self, heq, fun hlt => ?_⟩
        rcases List.mem_cons.mp hp with rfl | hp
        · simp [Std.ReflCmp.compare_self] at hlt
        · exact Std.OrientedCmp.not_lt_of_lt (hfirst p hp) hlt
      · rcases List.mem_cons.mp hp with rfl | hp
        · exact absurd rfl heq
        · have hnew' : handleOf p ∉ (seen ++ [first]).map handleOf := by
            simpa [Ne.symm heq] using hnew
          obtain ⟨q, hq, hhandle, hle⟩ := ih hsorted hp hnew'
          exact ⟨q, List.mem_cons_of_mem _ hq, hhandle, hle⟩

/-! ### The choice depends on steps -/

private theorem map_steps_eq {some other : List Path}
    (hsome : some.Pairwise fun p q => p.compare q = .lt)
    (hother : other.Pairwise fun p q => p.compare q = .lt)
    (h : ∀ steps, steps ∈ some.map (·.steps) ↔ steps ∈ other.map (·.steps)) :
    some.map (·.steps) = other.map (·.steps) := by
  have hordered {paths : List Path} (hsorted : paths.Pairwise fun p q => p.compare q = .lt) :
      (paths.map (·.steps)).Pairwise fun s t => List.compareLex PathStep.compare s t = .lt :=
    List.pairwise_map.mpr (hsorted.imp fun hlt => by rwa [← Path.compare_eq_compareLex])
  have hnodup {steps : List (List PathStep)}
      (hsorted : steps.Pairwise fun s t => List.compareLex PathStep.compare s t = .lt) :
      steps.Nodup := by
    refine hsorted.imp fun hlt heq => ?_
    simp [heq, Std.ReflCmp.compare_self] at hlt
  have hperm := (List.perm_ext_iff_of_nodup (hnodup (hordered hsome)) (hnodup (hordered hother))).mpr h
  refine hperm.eq_of_pairwise (fun s t _ _ hlt hgt => ?_) (hordered hsome) (hordered hother)
  exact absurd hgt (Std.OrientedCmp.not_lt_of_lt hlt)

/-- When every path of `other` is in `some`, and every choice from `some` is in `other`, the choices from
both are the same, up to how their paths are written. -/
theorem map_steps_distinct {some other : List Path}
    (hsome : some.Pairwise fun p q => p.compare q = .lt)
    (hother : other.Pairwise fun p q => p.compare q = .lt)
    (hsheets : ∀ p ∈ some, p.isStylesheet)
    (hsub : ∀ p ∈ other, ∃ q ∈ some, q.steps = p.steps)
    (hchosen : ∀ p ∈ distinct [] some, ∃ q ∈ other, q.steps = p.steps) :
    (distinct [] some).map (·.steps) = (distinct [] other).map (·.steps) := by
  refine map_steps_eq (hsome.sublist (distinct_sublist [] some))
    (hother.sublist (distinct_sublist [] other)) fun steps => ?_
  simp only [List.mem_map]
  constructor
  · rintro ⟨p, hp, rfl⟩
    obtain ⟨q, hq, hsteps⟩ := hchosen p hp
    obtain ⟨hp, -, hleast⟩ := (mem_distinct_iff hsome).mp hp
    refine ⟨q, (mem_distinct_iff hother).mpr ⟨hq, by simp, fun r hr heq hlt => ?_⟩, hsteps⟩
    obtain ⟨r', hr', hsteps'⟩ := hsub r hr
    refine hleast r' hr' ?_ ?_
    · rw [handleOf_eq (hsheets r' hr') hsteps', heq, handleOf_eq (hsheets p hp) hsteps.symm]
    · rwa [Path.compare_eq_compareLex, hsteps', ← hsteps, ← Path.compare_eq_compareLex]
  · rintro ⟨q, hq, rfl⟩
    obtain ⟨hq, -, hleast⟩ := (mem_distinct_iff hother).mp hq
    obtain ⟨p, hp, hsteps⟩ := hsub q hq
    have hnew : handleOf p ∉ ([] : List Path).map handleOf := List.not_mem_nil
    obtain ⟨w, hw, hhandle, hle⟩ := exists_mem_distinct hsome hp hnew
    obtain ⟨w', hw', hsteps'⟩ := hchosen w hw
    have hw₀ := (distinct_sublist [] some).subset hw
    -- the path that is chosen for the handle of `q` is neither before `q` nor behind it
    have hbefore : w'.compare q ≠ .lt := by
      refine hleast w' hw' ?_
      rw [← handleOf_eq (hsheets w hw₀) hsteps'.symm, hhandle, handleOf_eq (hsheets p hp) hsteps]
    have hbehind : q.compare w' ≠ .lt := by
      rwa [Path.compare_eq_compareLex, hsteps', ← hsteps, ← Path.compare_eq_compareLex]
    have hequal : w'.compare q = .eq := by
      have hswap : q.compare w' = (w'.compare q).swap := Std.OrientedCmp.eq_swap
      rw [hswap] at hbehind
      cases hcompare : w'.compare q <;> simp_all
    exact ⟨w, hw, hsteps'.symm.trans (Path.compare_eq_iff.mp hequal)⟩

/-- What is compiled of the found stylesheets is one by its name and can be read. -/
theorem read?_of_mem_found {files : FileTree} {roots : List Path} {path : Path}
    (hproper : files.Proper) (hpath : path ∈ distinct [] (files.stylesheets roots)) :
    path.isStylesheet ∧ ∃ content, files.read? path = some content := by
  obtain ⟨root, -, hfound⟩ := FileTree.mem_of_mem_stylesheets ((distinct_sublist [] _).subset hpath)
  exact ⟨FileTree.isStylesheet_of_mem_stylesheetsAt hfound, hproper.read?_of_mem_stylesheetsAt hfound⟩

/-! ### The engine -/

variable {o : CompileOptions} {p : Project} {resolver : Resolver}

/-- The items for paths that are compiled with one resolver. -/
def itemsAt (o : CompileOptions) (resolver : Resolver) (paths : List Path) : List StockItem :=
  paths.map fun path => ⟨o.stylesheetAt path, resolver⟩

theorem nodup_handles_itemsAt (o : CompileOptions) (resolver : Resolver) (seen paths : List Path) :
    ((o.itemsAt resolver (distinct seen paths)).map (·.handle)).Nodup := by
  rw [itemsAt, List.map_map]
  exact (nodup_handles_distinct seen paths).1

/-- Without a directory for output all of them are printed, and with one all are written. -/
theorem delivery_itemsAt (o : CompileOptions) (resolver : Resolver) (paths : List Path) :
    ∀ item ∈ o.itemsAt resolver paths,
      item.stylesheet.delivery = if o.outDir.isNone then .printed else .external := by
  intro item hitem
  obtain ⟨path, -, rfl⟩ := List.mem_map.mp hitem
  rfl

/-- Stylesheets with the same steps that read the same become the same. -/
theorem map_rendition_eq (o : CompileOptions) (resolver : Resolver) {others : List Path}
    {before after : FileTree} (hsteps : paths.map (·.steps) = others.map (·.steps))
    (hreads : ∀ path ∈ paths, ∀ other ∈ others, path.steps = other.steps → path.isStylesheet ∧
      ∃ content, before.read? path = some content ∧ after.read? other = some content) :
    (o.itemsAt resolver paths).map (·.rendition before) =
      (o.itemsAt resolver others).map (·.rendition after) := by
  rw [itemsAt, itemsAt, List.map_map, List.map_map]
  induction paths generalizing others with
  | nil =>
    obtain rfl := List.map_eq_nil_iff.mp hsteps.symm
    rfl
  | cons path paths ih =>
    obtain ⟨other, others, rfl, hsame, hrest⟩ := List.map_eq_cons_iff.mp hsteps.symm
    obtain ⟨hsheet, content, hread, hread'⟩ :=
      hreads path List.mem_cons_self other List.mem_cons_self hsame.symm
    have hhandle := handleOf_eq hsheet hsame.symm
    rw [List.map_cons, List.map_cons, ih hrest.symm fun path hpath other hother =>
      hreads path (List.mem_cons_of_mem _ hpath) other (List.mem_cons_of_mem _ hother)]
    congr 1
    simp only [Function.comp_apply, StockItem.rendition, StockItem.artifact, StockItem.handle,
      Stylesheet.read, stylesheetAt, hread, hread', hhandle]

private theorem not_isWrote_of_mem_walkEvents {files : FileTree} {roots : List Path} {event : Event}
    (h : event ∈ files.walkEvents roots) : ¬event.isWrote := by
  obtain ⟨root, -, h⟩ := List.mem_flatMap.mp h
  unfold FileTree.walkEventsAt at h
  split at h
  · exact absurd h List.not_mem_nil
  · split at h
    · obtain ⟨names, -, rfl⟩ := List.mem_map.mp h
      exact Bool.false_ne_true
    · rw [List.mem_singleton.mp h]
      exact Bool.false_ne_true

private theorem not_isWrote_of_mem_skipEvents {seen : List Path} {event : Event}
    (h : event ∈ skipEvents seen paths) : ¬event.isWrote := by
  induction paths generalizing seen with
  | nil => exact absurd h List.not_mem_nil
  | cons path paths ih =>
    rw [skipEvents] at h
    split at h
    · rcases List.mem_cons.mp h with rfl | h
      · exact Bool.false_ne_true
      · exact ih h
    · exact ih h

/-- The engine for found stylesheets has one item for each that is chosen. -/
theorem foundEngine_eq :
    o.foundEngine p resolver =
      .stocked (o.itemsAt resolver (distinct [] (p.files.stylesheets (o.roots p)))) := by
  rw [foundEngine, Engine.stocked, itemsAt, List.foldl_map]
  rfl

/-- With paths the command works with this engine, and has written nothing when it is ready. -/
theorem engine_found {settings : Settings} (hpaths : o.paths ≠ [])
    (hresolver : p.resolver settings (o.values.map p.absolute).toList = .ok resolver) :
    ∃ events, (∀ event ∈ events, ¬event.isWrote) ∧ o.engine p settings =
      .ok (.stocked (o.itemsAt resolver (distinct [] (p.files.stylesheets (o.roots p)))), events) := by
  refine ⟨p.files.walkEvents (o.roots p) ++ skipEvents [] (p.files.stylesheets (o.roots p)), ?_, ?_⟩
  · intro event hevent
    rcases List.mem_append.mp hevent with hevent | hevent
    · exact not_isWrote_of_mem_walkEvents hevent
    · exact not_isWrote_of_mem_skipEvents hevent
  · rw [engine, if_neg (by simpa using hpaths), hresolver]
    simp only [foundEngine_eq]

/-! ### The run -/

/-- What a run comes to besides what it tells. -/
structure Amounts (run delivered : Run) : Prop where
  printed : run.printed = delivered.printed
  files : run.files = delivered.files
  ending : run.ending = delivered.ending

namespace Amounts

variable {run other third : Run}

theorem symm (h : Amounts run other) : Amounts other run :=
  ⟨h.printed.symm, h.files.symm, h.ending.symm⟩

theorem trans (h : Amounts run other) (h' : Amounts other third) : Amounts run third :=
  ⟨h.printed.trans h'.printed, h.files.trans h'.files, h.ending.trans h'.ending⟩

end Amounts

/-- A run over found stylesheets is a delivery of the chosen ones, after what was told of the search. -/
theorem exists_run_found {settings : Settings} (hpaths : o.paths ≠ [])
    (hsettings : p.settings = .ok settings)
    (hresolver : p.resolver settings (o.values.map p.absolute).toList = .ok resolver)
    {delivered : Run}
    (h : deliver (.stocked (o.itemsAt resolver (distinct [] (p.files.stylesheets (o.roots p)))))
      p.files (o.target p settings) = delivered) :
    ∃ events, (∀ event ∈ events, ¬event.isWrote) ∧
      o.run p = { delivered with events := events ++ delivered.events } := by
  obtain ⟨events, hevents, hengine⟩ := engine_found hpaths hresolver
  refine ⟨settings.loadedEvent :: events, List.forall_mem_cons.mpr ⟨Bool.false_ne_true, hevents⟩, ?_⟩
  rw [run, hsettings]
  simp only [hengine, h]

/-- So it comes to what the delivery comes to. -/
theorem amounts_run {settings : Settings} (hpaths : o.paths ≠ []) (hsettings : p.settings = .ok settings)
    (hresolver : p.resolver settings (o.values.map p.absolute).toList = .ok resolver) :
    Amounts (o.run p)
      (deliver (.stocked (o.itemsAt resolver (distinct [] (p.files.stylesheets (o.roots p))))) p.files
        (o.target p settings)) := by
  obtain ⟨events, -, hrun⟩ := exists_run_found hpaths hsettings hresolver rfl
  rw [hrun]
  exact ⟨rfl, rfl, rfl⟩

end StyleTemplate.CompileOptions
