import StyleTemplate.Proofs.Engine.Session

/-! Handles are isolated from each other: what an engine holds for a handle, and so all that can be
asked about the handle, depends on no operation that names another one (`Session.isolated_run`). -/

namespace StyleTemplate

/-- The handle that an operation names. -/
def Operation.handle? : Operation → Option String
  | setResolver h _ | setCallback h _ | registerFilter h _ _ | compile h _ | render h
  | updateCache h _ | clearCache h => some h
  | enqueue s => some s.handle
  | registerGlobalFilter .. | renderAll _ | changeFiles _ => none

/-- Whether an operation names the handle, or no handle at all. -/
def Operation.concerns (handle : String) (op : Operation) : Bool := op.handle?.all (· = handle)

variable {handle other : String}

/-! ### What an operation on one handle does to another -/

namespace Engine

variable {e e' : Engine}

theorem agreeOn_setResolver (hne : handle ≠ other) (e : Engine) (resolver : Resolver) :
    AgreeOn handle e (e.setResolver other resolver) :=
  ⟨by simp [setResolver, hne], rfl, rfl, rfl, rfl⟩

theorem agreeOn_registerFilter (hne : handle ≠ other) (e : Engine) (name : String) (filter : Filter) :
    AgreeOn handle e (e.registerFilter other name filter) :=
  ⟨rfl, by simp [registerFilter, hne], rfl, rfl, rfl⟩

theorem agreeOn_enqueue {s : Stylesheet} (hne : handle ≠ s.handle) (e : Engine) :
    AgreeOn handle e (e.enqueue s) :=
  ⟨rfl, rfl, rfl, by rw [stylesheet?_enqueue, if_neg hne], rfl⟩

theorem agreeOn_clearCache (hne : handle ≠ other) (e : Engine) :
    AgreeOn handle e (e.clearCache other).2 :=
  ⟨rfl, rfl, rfl, rfl, by simp [clearCache, hne]⟩

/-! ### What an operation does to engines that hold the same for a handle -/

namespace AgreeOn

variable (h : AgreeOn handle e e')
include h

theorem setResolver (other : String) (resolver : Resolver) :
    AgreeOn handle (e.setResolver other resolver) (e'.setResolver other resolver) :=
  ⟨by simp [Engine.setResolver, h.resolver], h.ownFilters, h.globalFilters, h.stylesheet, h.body⟩

theorem registerFilter (other name : String) (filter : Filter) :
    AgreeOn handle (e.registerFilter other name filter) (e'.registerFilter other name filter) := by
  refine ⟨h.resolver, ?_, h.globalFilters, h.stylesheet, h.body⟩
  by_cases hother : handle = other
  · subst hother
    simp [Engine.registerFilter, h.ownFilters]
  · simp [Engine.registerFilter, hother, h.ownFilters]

theorem registerGlobalFilter (name : String) (filter : Filter) :
    AgreeOn handle (e.registerGlobalFilter name filter) (e'.registerGlobalFilter name filter) :=
  ⟨h.resolver, h.ownFilters, congrArg (Table.insert · name filter) h.globalFilters, h.stylesheet,
    h.body⟩

theorem enqueue (s : Stylesheet) : AgreeOn handle (e.enqueue s) (e'.enqueue s) := by
  refine ⟨h.resolver, h.ownFilters, h.globalFilters, ?_, h.body⟩
  rw [stylesheet?_enqueue, stylesheet?_enqueue, h.stylesheet]

theorem clearCache (other : String) :
    AgreeOn handle (e.clearCache other).2 (e'.clearCache other).2 :=
  ⟨h.resolver, h.ownFilters, h.globalFilters, h.stylesheet, by simp [Engine.clearCache, h.body]⟩

/-- Which other stylesheets are rendered, and in which order, makes no difference. -/
theorem renderAll (hdistinct : e.handles.Nodup) (hdistinct' : e'.handles.Nodup) (tree : FileTree)
    (delivery : Delivery) :
    AgreeOn handle (e.renderAll tree delivery).2 (e'.renderAll tree delivery).2 := by
  have hnodup {e : Engine} (hdistinct : e.handles.Nodup) :
      ((e.stylesheetsFor delivery).map (·.handle)).Nodup := by
    rw [handles_stylesheetsFor hdistinct]
    exact hdistinct.filter _
  have hleft := agreeOn_renderEach (hnodup hdistinct) handle e tree
  have hright := agreeOn_renderEach (hnodup hdistinct') handle e' tree
  simp only [mem_stylesheetsFor_iff hdistinct] at hleft
  simp only [mem_stylesheetsFor_iff hdistinct', ← h.delivers] at hright
  refine hleft.symm.trans (AgreeOn.trans ?_ hright)
  split
  · exact (h.render tree).2
  · exact h

end AgreeOn

end Engine

/-! ### Runs -/

namespace Session

/-- Two sessions hold the same for a handle, and the same files. -/
structure AgreeOn (handle : String) (s s' : Session) : Prop where
  engine : Engine.AgreeOn handle s.engine s'.engine
  tree : s.tree = s'.tree

variable {s s' : Session}

theorem agreeOn_step {op : Operation} (hop : ¬op.concerns handle) (s : Session) :
    AgreeOn handle s (s.step op) := by
  have hne : ∀ other, op.handle? = some other → handle ≠ other := fun other hother heq => by
    simp [Operation.concerns, hother, heq] at hop
  cases op with
  | setResolver other resolver => exact ⟨Engine.agreeOn_setResolver (hne other rfl) _ resolver, rfl⟩
  | setCallback other callback => exact ⟨Engine.agreeOn_setResolver (hne other rfl) _ _, rfl⟩
  | registerFilter other name filter =>
    exact ⟨Engine.agreeOn_registerFilter (hne other rfl) _ name filter, rfl⟩
  | enqueue stylesheet => exact ⟨Engine.agreeOn_enqueue (hne stylesheet.handle rfl) _, rfl⟩
  | compile => exact ⟨.refl handle _, rfl⟩
  | render other => exact ⟨Engine.agreeOn_render (hne other rfl) _ _, rfl⟩
  | updateCache other body => exact ⟨Engine.agreeOn_updateCache (hne other rfl) _ body, rfl⟩
  | clearCache other => exact ⟨Engine.agreeOn_clearCache (hne other rfl) _, rfl⟩
  | registerGlobalFilter | renderAll | changeFiles => exact (hop rfl).elim

theorem AgreeOn.step (h : s.AgreeOn handle s') (hdistinct : s.engine.handles.Nodup)
    (hdistinct' : s'.engine.handles.Nodup) (op : Operation) :
    (s.step op).AgreeOn handle (s'.step op) := by
  obtain ⟨e, tree⟩ := s
  obtain ⟨e', tree'⟩ := s'
  obtain ⟨h, htree⟩ := h
  cases htree
  cases op with
  | setResolver other resolver => exact ⟨h.setResolver other resolver, rfl⟩
  | setCallback other callback => exact ⟨h.setResolver other _, rfl⟩
  | registerFilter other name filter => exact ⟨h.registerFilter other name filter, rfl⟩
  | registerGlobalFilter name filter => exact ⟨h.registerGlobalFilter name filter, rfl⟩
  | enqueue stylesheet => exact ⟨h.enqueue stylesheet, rfl⟩
  | compile => exact ⟨h, rfl⟩
  | render other =>
    refine ⟨?_, rfl⟩
    by_cases hother : handle = other
    · subst hother
      exact (h.render tree).2
    · exact (Engine.agreeOn_render hother e tree).symm.trans
        (h.trans (Engine.agreeOn_render hother e' tree))
  | renderAll delivery => exact ⟨h.renderAll hdistinct hdistinct' tree delivery, rfl⟩
  | updateCache other body => exact ⟨h.updateCache other body, rfl⟩
  | clearCache other => exact ⟨h.clearCache other, rfl⟩
  | changeFiles files => exact ⟨h, rfl⟩

/-- Of a run, a handle sees the operations that name it or no handle. -/
theorem AgreeOn.run_filter (h : s.AgreeOn handle s') (hdistinct : s.engine.handles.Nodup)
    (hdistinct' : s'.engine.handles.Nodup) (ops : List Operation) :
    (s.run ops).AgreeOn handle (s'.run (ops.filter (·.concerns handle))) := by
  induction ops generalizing s s' with
  | nil => exact h
  | cons op ops ih =>
    have hnodup {s : Session} (h : s.engine.handles.Nodup) : (s.step op).engine.handles.Nodup :=
      nodup_handles_run h [op]
    by_cases hop : op.concerns handle
    · rw [List.filter_cons_of_pos hop]
      exact ih (h.step hdistinct hdistinct' op) (hnodup hdistinct) (hnodup hdistinct')
    · -- only the first run takes this step
      rw [List.filter_cons_of_neg hop]
      obtain ⟨hengine, htree⟩ := agreeOn_step hop s
      exact ih ⟨hengine.symm.trans h.engine, htree.symm.trans h.tree⟩ (hnodup hdistinct) hdistinct'

/-- All that can be asked about a handle has the same answer in two sessions. -/
structure Indistinguishable (handle : String) (s s' : Session) : Prop where
  filters : s.engine.filtersFor handle = s'.engine.filtersFor handle
  stylesheet : s.engine.stylesheet? handle = s'.engine.stylesheet? handle
  body : s.engine.cache.get? handle = s'.engine.cache.get? handle
  compile : ∀ source, s.engine.compile handle source = s'.engine.compile handle source
  render : (s.engine.render s.tree handle).1 = (s'.engine.render s'.tree handle).1

theorem AgreeOn.indistinguishable (h : s.AgreeOn handle s') : s.Indistinguishable handle s' := by
  obtain ⟨h, htree⟩ := h
  exact ⟨h.filtersFor, h.stylesheet, h.body, h.compile, htree ▸ (h.render s.tree).1⟩

/-- Runs on a fresh engine that differ in operations on other handles only. -/
theorem isolated_run (builtins : Bool) (tree : FileTree) {handle : String} {ops ops' : List Operation}
    (h : ops.filter (·.concerns handle) = ops'.filter (·.concerns handle)) :
    ((start builtins tree).run ops).Indistinguishable handle ((start builtins tree).run ops') := by
  have hfresh := nodup_handles_start builtins tree
  have hstart : AgreeOn handle (start builtins tree) (start builtins tree) := ⟨.refl handle _, rfl⟩
  have hleft := hstart.run_filter hfresh hfresh ops
  have hright := hstart.run_filter hfresh hfresh ops'
  rw [h] at hleft
  refine AgreeOn.indistinguishable ⟨hleft.engine.trans hright.engine.symm, ?_⟩
  exact hleft.tree.trans hright.tree.symm

/-- Another stylesheet is enqueued earlier, with a filter of its own, rendered and then changed. -/
theorem isolated_run_theme :
    let theme : Operation := .enqueue ⟨"theme", .inline "a", true, false, true⟩
    let ops : List Operation := [theme, .renderAll .printed, .clearCache "theme"]
    let ops' : List Operation := [.enqueue ⟨"print", .inline "b", true, true, true⟩,
      .registerFilter "print" "upper" Filter.lower, theme, .renderAll .printed,
      .updateCache "print" "c", .clearCache "theme", .render "print"]
    ops.filter (·.concerns "theme") = ops'.filter (·.concerns "theme") ∧
      ((start true .empty).run ops).Indistinguishable "theme" ((start true .empty).run ops') :=
  ⟨rfl, isolated_run true .empty rfl⟩

end Session

end StyleTemplate
