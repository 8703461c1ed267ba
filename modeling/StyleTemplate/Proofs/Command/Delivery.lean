import StyleTemplate.Proofs.Command.Stock

/-! Handing over what is in stock. Bodies of printed stylesheets are printed and the others are written,
both in the order of the stock; a stylesheet that fails is counted and otherwise left out
(`CompileOptions.delivers`). What is told of it are the problems of each stylesheet and, last, each file
(`CompileOptions.handsOver_deliver`). -/

namespace StyleTemplate

open StockItem (ofDelivery)

/-- Whether an event tells of a file that was written. -/
def Event.isWrote (e : Event) : Bool := e.level = .info && e.target = "dcss::commands::compile"

/-- What a run tells of the files that it wrote. -/
def Run.wrote (run : Run) : List Event := run.events.filter (·.isWrote)

namespace Engine

variable (e : Engine) (tree : FileTree)

private theorem not_isWrote_of_mem_renderEvents {s : Stylesheet} {event : Event}
    (h : event ∈ e.renderEvents tree s) : ¬event.isWrote := by
  have hlookup : event ∈ (if s.cache then [e.lookupEvent s.handle] else []) → ¬event.isWrote := by
    intro hmem
    split at hmem
    · rw [List.mem_singleton.mp hmem]
      exact Bool.false_ne_true
    · exact absurd hmem List.not_mem_nil
  rw [renderEvents] at h
  split at h
  · rcases List.mem_append.mp h with h | h
    · exact hlookup h
    · rw [compileEvents] at h
      split at h
      · simp only [Compilation.events, List.mem_cons, List.mem_append, List.mem_map] at h
        obtain rfl | ⟨d, -, rfl⟩ | rfl | h := h
        · exact Bool.false_ne_true
        · exact Bool.false_ne_true
        · exact Bool.false_ne_true
        · exact absurd h List.not_mem_nil
      · exact absurd h List.not_mem_nil
  · exact hlookup h

/-- No file is written while stylesheets are rendered. -/
theorem filter_isWrote_renderAllEvents (delivery : Delivery) :
    (e.renderAllEvents tree delivery).filter (·.isWrote) = [] := by
  refine List.filter_eq_nil_iff.mpr fun event hevent => ?_
  obtain ⟨s, -, hevent⟩ := List.mem_flatMap.mp hevent
  rcases List.mem_append.mp hevent with hevent | hevent
  · exact e.not_isWrote_of_mem_renderEvents tree hevent
  · rw [failureEvents] at hevent
    split at hevent
    · exact absurd hevent List.not_mem_nil
    · rw [List.mem_singleton.mp hevent]
      exact Bool.false_ne_true

end Engine

namespace StockItem

/-- The body of the item, if its stylesheet can be read. -/
def body? (item : StockItem) (tree : FileTree) : Option String :=
  (item.rendition tree).toOption.map (·.body)

/-- The files that a delivery of items writes into a directory, in order. -/
def outputs (directory : Path) (tree : FileTree) (items : List StockItem) : List (Path × String) :=
  (ofDelivery items .external).filterMap fun item =>
    (item.body? tree).map fun body => (CompileOptions.fileOf directory item.handle, body)

/-- How many items cannot be read. -/
def failures (tree : FileTree) (items : List StockItem) : Nat :=
  items.countP fun item => (item.body? tree).isNone

variable {tree : FileTree}

theorem handle_of_rendition {item : StockItem} {a : Artifact} (h : item.rendition tree = .ok a) :
    a.handle = item.handle := by
  unfold rendition at h
  split at h
  · rw [← Except.ok.inj h]
    rfl
  · exact nomatch h

/-- Every item has one of the deliveries. -/
theorem ofDelivery_perm (items : List StockItem) :
    (ofDelivery items .printed ++ ofDelivery items .external).Perm items := by
  have hexternal : ofDelivery items .external =
      items.filter fun item => !decide (item.stylesheet.delivery = .printed) := by
    refine List.filter_congr fun item _ => ?_
    cases item.stylesheet.delivery <;> rfl
  rw [hexternal]
  exact List.filter_append_perm _ items

end StockItem

namespace CompileOptions

variable {directory : Path} {files : FileTree}

/-- Files written one after the other. Before each of them the directory is made if need be. -/
def writeAll (directory : Path) (files : FileTree) : List (Path × String) → Option FileTree
  | [] => some files
  | (path, body) :: outputs =>
    match (files.makeDirectories? directory).bind (·.write? path body) with
    | none => none
    | some files => writeAll directory files outputs

/-- What is told about a file that was written. -/
def wroteEvent (path : Path) : Event :=
  ⟨.info, "dcss::commands::compile", "Wrote " ++ path.text, []⟩

/-- The file of a body, and the body. -/
def outputOf (directory : Path) (a : Artifact) : Path × String :=
  (fileOf directory a.handle, a.body)

/-- The files for output are stylesheets by their names. -/
theorem fileOf_css (directory : Path) (handle : String) :
    ∃ text, fileOf directory handle = ⟨text ++ ".css"⟩ := by
  unfold fileOf Path.join
  split
  · exact ⟨handle, rfl⟩
  · split
    · exact ⟨directory.text ++ handle, by simp only [String.append_assoc]⟩
    · exact ⟨directory.text ++ "/" ++ handle, by simp only [String.append_assoc]⟩

private theorem writeBody_eq (directory : Path) (files : FileTree) (a : Artifact) :
    (writeBody directory files a).toOption =
      (files.makeDirectories? directory).bind (·.write? (fileOf directory a.handle) a.body) := by
  unfold writeBody
  cases files.makeDirectories? directory with
  | none => rfl
  | some made =>
    dsimp only [Option.bind_some]
    cases made.write? (fileOf directory a.handle) a.body with
    | none => rfl
    | some written => rfl

/-- Bodies are written without an error exactly when their files can be written. -/
theorem writeBodies_eq_iff {as : List Artifact} {events : List Event} {after : FileTree} :
    writeBodies directory files as = (events, after, none) ↔
      events = as.map (fun a => wroteEvent (fileOf directory a.handle)) ∧
        writeAll directory files (as.map (outputOf directory)) = some after := by
  induction as generalizing files events after with
  | nil => simp [writeBodies, writeAll, eq_comm]
  | cons a as ih =>
    have hbody := writeBody_eq directory files a
    rw [writeBodies, List.map_cons, List.map_cons, outputOf, writeAll, ← hbody]
    cases writeBody directory files a with
    | error error => simp [Except.toOption]
    | ok written =>
      simp only [Except.toOption]
      rcases hrest : writeBodies directory written as with ⟨told, left, error⟩
      constructor
      · intro heq
        simp only [Prod.mk.injEq] at heq
        obtain ⟨rfl, rfl, rfl⟩ := heq
        obtain ⟨htold, hall⟩ := ih.mp hrest
        rw [htold]
        exact ⟨rfl, hall⟩
      · rintro ⟨rfl, hall⟩
        rw [ih.mpr ⟨rfl, hall⟩] at hrest
        simp only [Prod.mk.injEq] at hrest
        obtain ⟨rfl, rfl, rfl⟩ := hrest
        rfl

/-! ### A whole delivery -/

/-- How many stylesheets failed decides how a delivery ends, when nothing stops it. -/
def endingAfter (failures : Nat) (items : List StockItem) : Ending :=
  if 0 < failures then .notCompiled failures
  else if items = [] then .nothingTo .compile
  else .done

theorem succeeds_endingAfter (failures : Nat) (items : List StockItem) :
    (endingAfter failures items).succeeds = !decide (0 < failures) := by
  unfold endingAfter
  split
  · rename_i hfailed
    simp [Ending.succeeds, hfailed]
  · rename_i hfailed
    split
    · simp [Ending.succeeds, hfailed]
    · simp [Ending.succeeds, hfailed]

/-- What a delivery of items comes to: printed bodies in the order of the stock, and written files in
that order, told of one after the other at the end. -/
structure Delivers (items : List StockItem) (files : FileTree) (directory : Path) (run : Run) :
    Prop where
  printed : run.printed = (ofDelivery items .printed).filterMap (·.body? files)
  written : writeAll directory files (StockItem.outputs directory files items) = some run.files
  told : ∃ before, run.events =
    before ++ (StockItem.outputs directory files items).map fun output => wroteEvent output.1
  ending : run.ending = endingAfter (StockItem.failures files items) items

variable {items : List StockItem} {e : Engine}

theorem artifacts_rendition (files : FileTree) (items : List StockItem) :
    artifacts (items.map (·.rendition files)) =
      items.filterMap fun item => (item.rendition files).toOption := by
  rw [artifacts, List.filterMap_map]
  rfl

private theorem bodies_rendition (files : FileTree) (items : List StockItem) :
    (artifacts (items.map (·.rendition files))).map (·.body) = items.filterMap (·.body? files) := by
  rw [artifacts_rendition, List.map_filterMap]
  rfl

private theorem outputs_rendition (directory : Path) (files : FileTree) (items : List StockItem) :
    (artifacts ((ofDelivery items .external).map (·.rendition files))).map (outputOf directory) =
      StockItem.outputs directory files items := by
  rw [artifacts_rendition, List.map_filterMap, StockItem.outputs]
  congr 1
  funext item
  rw [StockItem.body?]
  cases hrendition : item.rendition files with
  | error error => rfl
  | ok a => simp [Except.toOption, outputOf, StockItem.handle_of_rendition hrendition]

private theorem endingOf_perm {results others : List (Except RenderError Artifact)}
    (h : results.Perm others) : endingOf results = endingOf others := by
  have hartifacts : (artifacts results).length = (artifacts others).length :=
    (h.filterMap _).length_eq
  rw [endingOf, endingOf, hartifacts, h.length_eq]

private theorem endingOf_rendition (files : FileTree) (items : List StockItem) :
    endingOf (items.map (·.rendition files)) =
      endingAfter (StockItem.failures files items) items := by
  have hcompiled : (artifacts (items.map (·.rendition files))).length =
      items.countP fun item => (item.body? files).isSome := by
    rw [← List.length_map (·.body), bodies_rendition, List.length_filterMap_eq_countP]
  have hall : items.length = items.countP (fun item => (item.body? files).isSome) +
      StockItem.failures files items := by
    rw [List.length_eq_countP_add_countP (p := fun item => (item.body? files).isSome),
      StockItem.failures]
    congr 1
    exact List.countP_congr fun item _ => by simp
  have hfailed : items.length - items.countP (fun item => (item.body? files).isSome) =
      StockItem.failures files items := by omega
  simp only [endingOf, endingAfter, hcompiled, List.length_map, hfailed]
  by_cases hnone : 0 < StockItem.failures files items
  · rw [if_pos hnone, if_pos hnone]
  · rw [if_neg hnone, if_neg hnone]
    have hempty : items.countP (fun item => (item.body? files).isSome) = 0 ↔ items = [] := by
      rw [← List.length_eq_zero_iff]
      omega
    simp only [hempty]

/-- A delivery from an engine with these items, when all its files can be written. -/
theorem delivers (h : e.Stocks items) (hdistinct : (items.map (·.handle)).Nodup)
    {after : FileTree}
    (hwritten : writeAll directory files (StockItem.outputs directory files items) = some after) :
    Delivers items files directory (deliver e files directory) ∧
      (deliver e files directory).files = after := by
  obtain ⟨hprinted, hexternal⟩ := h.results hdistinct files
  have hbodies := writeBodies_eq_iff.mpr
    ⟨rfl, (outputs_rendition directory files items).symm ▸ hwritten⟩
  rw [← hexternal] at hbodies
  have hfiles : (deliver e files directory).files = after := by
    simp only [deliver, hbodies]
  refine ⟨⟨?_, hfiles ▸ hwritten, ?_, ?_⟩, hfiles⟩
  · simp only [deliver]
    rw [hprinted, bodies_rendition]
  · simp only [deliver, hbodies]
    refine ⟨_, congrArg _ ?_⟩
    rw [hexternal, ← outputs_rendition, List.map_map]
    rfl
  · simp only [deliver, hbodies]
    rw [hprinted, hexternal, ← List.map_append,
      endingOf_perm ((StockItem.ofDelivery_perm items).map _), endingOf_rendition]

/-- What a run does with stylesheets that were rendered: it prints the bodies of the first ones, writes
those of the others, and tells of the files last, and before that of each stylesheet and the problems in
it. Only an error in writing keeps it from going on to the end. -/
structure HandsOver (printed external : List Artifact) (files : FileTree) (directory : Path)
    (run : Run) : Prop where
  bodies : run.printed = printed.map (·.body)
  written : ∃ error, writeBodies directory files external = (run.wrote, run.files, error) ∧
    (error = none ∨ ∃ cause, run.ending = .stopped cause)
  last : run.wrote <:+ run.events
  findings : run.events.filter (·.isFinding) = (printed ++ external).flatMap (·.findings)

/-- Something else may have been told before. -/
theorem HandsOver.prepend {printed external : List Artifact} {run : Run}
    (h : HandsOver printed external files directory run) (event : Event) (hwrote : ¬event.isWrote)
    (hfinding : ¬event.isFinding) :
    HandsOver printed external files directory { run with events := event :: run.events } := by
  have hsame : Run.wrote { run with events := event :: run.events } = run.wrote :=
    List.filter_cons_of_neg hwrote
  refine ⟨h.bodies, hsame ▸ h.written, hsame ▸ h.last.trans (List.suffix_cons ..), ?_⟩
  rw [List.filter_cons_of_neg hfinding]
  exact h.findings

/-- Of writing, only files are told. -/
private theorem filter_writeBodies (directory : Path) (files : FileTree) (as : List Artifact) :
    (writeBodies directory files as).1.filter (·.isWrote) = (writeBodies directory files as).1 ∧
      (writeBodies directory files as).1.filter (·.isFinding) = [] := by
  induction as generalizing files with
  | nil => exact ⟨rfl, rfl⟩
  | cons a as ih =>
    rw [writeBodies]
    split
    · exact ⟨rfl, rfl⟩
    · obtain ⟨hwrote, hfinding⟩ := ih _
      refine ⟨?_, ?_⟩
      · rw [List.filter_cons_of_pos rfl, hwrote]
      · rw [List.filter_cons_of_neg Bool.false_ne_true, hfinding]

/-- The files that a delivery tells of are those that it writes. -/
theorem wrote_deliver (e : Engine) (files : FileTree) (directory : Path) :
    (deliver e files directory).wrote = (writeBodies directory files
      (artifacts ((e.renderAll files .printed).2.renderAll files .external).1)).1 := by
  simp only [deliver, Run.wrote, List.filter_append, Engine.filter_isWrote_renderAllEvents,
    (filter_writeBodies ..).1]
  rfl

/-- A delivery hands over what its items become. -/
theorem handsOver_deliver (h : e.Stocks items) (hdistinct : (items.map (·.handle)).Nodup)
    (directory : Path) (files : FileTree) :
    HandsOver (artifacts ((ofDelivery items .printed).map (·.rendition files)))
      (artifacts ((ofDelivery items .external).map (·.rendition files))) files directory
      (deliver e files directory) := by
  have hwrote := wrote_deliver e files directory
  have hfirst : (e.renderAllEvents files .printed).filter (·.isFinding) = _ :=
    h.findings rfl (fun item _ => .refl item.handle e) files
  have hsecond := h.findings (Engine.stylesheets_renderAll e files .printed)
    (fun _ hitem => h.agreeOn_printed hdistinct files hitem) files
  obtain ⟨hprinted, hexternal⟩ := h.results hdistinct files
  rw [← hprinted, ← hexternal]
  refine ⟨rfl, ⟨(writeBodies directory files
    (artifacts ((e.renderAll files .printed).2.renderAll files .external).1)).2.2, ?_, ?_⟩, ?_, ?_⟩
  · rw [hwrote]
    rfl
  · simp only [deliver]
    split
    · rename_i cause hcause
      exact .inr ⟨cause, rfl⟩
    · rename_i hnone
      exact .inl hnone
  · rw [hwrote]
    exact List.suffix_append ..
  · simp only [deliver, List.filter_append, hfirst, hsecond, (filter_writeBodies ..).2, List.append_nil,
      List.flatMap_append, hprinted, hexternal, artifacts_rendition]

/-- What a delivery leaves behind and tells at the end is what writing its outputs does. -/
theorem exists_writeBodies (h : e.Stocks items) (hdistinct : (items.map (·.handle)).Nodup)
    (directory : Path) (files : FileTree) :
    ∃ as before told error, as.map (outputOf directory) = StockItem.outputs directory files items ∧
      writeBodies directory files as = (told, (deliver e files directory).files, error) ∧
      (deliver e files directory).events = before ++ told ∧
      (error = none ∨ ∃ cause, (deliver e files directory).ending = .stopped cause) := by
  have hhands := handsOver_deliver h hdistinct directory files
  obtain ⟨error, hwritten, hending⟩ := hhands.written
  obtain ⟨before, hbefore⟩ := hhands.last
  exact ⟨_, before, _, error, outputs_rendition directory files items, hwritten, hbefore.symm, hending⟩

/-- If nothing stops a delivery, its files can all be written. -/
theorem writeAll_of_succeeds (h : e.Stocks items) (hdistinct : (items.map (·.handle)).Nodup)
    (hsucceeds : (deliver e files directory).ending.succeeds) :
    writeAll directory files (StockItem.outputs directory files items) =
      some (deliver e files directory).files := by
  obtain ⟨-, hexternal⟩ := h.results hdistinct files
  rw [← outputs_rendition, ← hexternal]
  simp only [deliver] at hsucceeds ⊢
  split at hsucceeds
  · exact nomatch hsucceeds
  · rename_i hnone
    exact (writeBodies_eq_iff.mp (Prod.ext rfl (Prod.ext rfl hnone))).2

end CompileOptions

end StyleTemplate
