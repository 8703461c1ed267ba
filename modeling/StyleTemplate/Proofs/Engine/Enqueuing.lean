import StyleTemplate.Proofs.Engine.Session

/-! Which stylesheets an engine holds, over whole runs: one for each handle, namely the one enqueued last,
in the order in which the handles were first enqueued. Every one of them belongs to one delivery
(`Session.stylesheets_run`). -/

namespace StyleTemplate

/-- The stylesheet that an operation enqueues. -/
def Operation.stylesheet? : Operation → Option Stylesheet
  | enqueue s => some s
  | _ => none

/-- The stylesheet last enqueued for a handle. -/
def lastEnqueued? (ops : List Operation) (handle : String) : Option Stylesheet :=
  ((ops.filterMap (·.stylesheet?)).filter (·.handle = handle)).getLast?

variable {ops : List Operation} {handle : String}

theorem lastEnqueued?_append (ops ops' : List Operation) (handle : String) :
    lastEnqueued? (ops ++ ops') handle =
      (lastEnqueued? ops' handle).or (lastEnqueued? ops handle) := by
  rw [lastEnqueued?, List.filterMap_append, List.filter_append, List.getLast?_append]
  rfl

theorem firstEnqueued_prefix (before later : List Operation) :
    firstEnqueued before <+: firstEnqueued (before ++ later) := by
  rw [firstEnqueued, firstEnqueued, List.filterMap_append, List.eraseDups_append]
  exact List.prefix_append ..

namespace Engine

variable {e : Engine}

/-- With distinct handles the stylesheets are those that look-ups of the handles find. -/
theorem stylesheets_map_some (h : e.handles.Nodup) :
    e.stylesheets.map some = e.handles.map e.stylesheet? := by
  rw [handles, List.map_map]
  exact List.map_congr_left fun s hs => (stylesheet?_of_mem h hs).symm

theorem stylesheetsFor_perm (e : Engine) :
    (e.stylesheetsFor .printed ++ e.stylesheetsFor .external).Perm e.stylesheets := by
  have hexternal : e.stylesheetsFor .external =
      e.stylesheets.filter fun s => !decide (s.delivery = .printed) := by
    refine List.filter_congr fun s _ => ?_
    cases s.delivery with
    | printed => rfl
    | external => rfl
  rw [hexternal]
  exact List.filter_append_perm (fun s => decide (s.delivery = .printed)) e.stylesheets

/-- A handle is found with the delivery of its stylesheet, once, and with no other. -/
theorem count_stylesheetsFor (h : e.handles.Nodup) {s : Stylesheet}
    (hs : e.stylesheet? handle = some s) (delivery : Delivery) :
    ((e.stylesheetsFor delivery).map (·.handle)).count handle =
      if delivery = s.delivery then 1 else 0 := by
  have hdelivers : e.delivers delivery handle ↔ delivery = s.delivery := by
    rw [delivers, hs, Option.any_some, decide_eq_true_iff, eq_comm]
  have hdistinct : ((e.stylesheetsFor delivery).map (·.handle)).Nodup := by
    rw [handles_stylesheetsFor h]
    exact h.filter _
  rw [hdistinct.count]
  simp only [mem_stylesheetsFor_iff h, hdelivers]

end Engine

namespace Session

theorem stylesheet?_step (s : Session) (op : Operation) (handle : String) :
    (s.step op).engine.stylesheet? handle =
      (lastEnqueued? [op] handle).or (s.engine.stylesheet? handle) := by
  cases op with
  | enqueue stylesheet =>
    refine (s.engine.stylesheet?_enqueue stylesheet handle).trans ?_
    by_cases h : handle = stylesheet.handle
    · simp [lastEnqueued?, Operation.stylesheet?, h]
    · simp [lastEnqueued?, Operation.stylesheet?, h, Ne.symm h]
  | _ => exact congrArg (List.find? _) (s.stylesheets_step rfl)

/-- Over a whole run a look-up finds the stylesheet enqueued last, or else the one that was there. -/
theorem stylesheet?_run (s : Session) (ops : List Operation) (handle : String) :
    (s.run ops).engine.stylesheet? handle =
      (lastEnqueued? ops handle).or (s.engine.stylesheet? handle) := by
  induction ops generalizing s with
  | nil => rfl
  | cons op ops ih =>
    rw [run_cons, ih, stylesheet?_step, ← Option.or_assoc, ← lastEnqueued?_append]
    rfl

theorem stylesheet?_start_run (builtins : Bool) (tree : FileTree) (ops : List Operation)
    (handle : String) :
    ((start builtins tree).run ops).engine.stylesheet? handle = lastEnqueued? ops handle := by
  have hnothing : (start builtins tree).engine.stylesheet? handle = none := by
    cases builtins <;> rfl
  rw [stylesheet?_run, hnothing, Option.or_none]

/-- What can be said of the stylesheets of an engine after a run on a fresh one. -/
structure Enqueued (builtins : Bool) (tree : FileTree) (ops : List Operation) (e : Engine) :
    Prop where
  order : e.handles = firstEnqueued ops
  distinct : e.handles.Nodup
  /-- At the place of a handle there is the stylesheet last enqueued for it. -/
  entries : e.stylesheets.map some = e.handles.map (lastEnqueued? ops)
  found : ∀ handle, e.stylesheet? handle = lastEnqueued? ops handle
  /-- A handle keeps the place that it has been given, whatever is enqueued for it later. -/
  kept : ∀ before later, ops = before ++ later →
    ((start builtins tree).run before).engine.handles <+: e.handles
  parts : ∀ delivery, (e.stylesheetsFor delivery).Sublist e.stylesheets
  together : (e.stylesheetsFor .printed ++ e.stylesheetsFor .external).Perm e.stylesheets
  /-- A handle belongs to the delivery of its stylesheet and to no other. -/
  once : ∀ handle ∈ e.handles, ∃ s, lastEnqueued? ops handle = some s ∧ ∀ delivery,
    ((e.stylesheetsFor delivery).map (·.handle)).count handle =
      if delivery = s.delivery then 1 else 0

/-- After any run on a fresh engine. -/
theorem stylesheets_run (builtins : Bool) (tree : FileTree) (ops : List Operation) :
    Enqueued builtins tree ops ((start builtins tree).run ops).engine := by
  have hdistinct : ((start builtins tree).run ops).engine.handles.Nodup :=
    nodup_handles_run (nodup_handles_start builtins tree) ops
  have hfound := stylesheet?_start_run builtins tree ops
  refine ⟨handles_run builtins tree ops, hdistinct, ?_, hfound, ?_, ?_, ?_, ?_⟩
  · rw [Engine.stylesheets_map_some hdistinct]
    exact List.map_congr_left fun handle _ => hfound handle
  · rintro before later rfl
    rw [handles_run, handles_run]
    exact firstEnqueued_prefix before later
  · exact fun delivery => List.filter_sublist
  · exact Engine.stylesheetsFor_perm _
  · intro handle hmem
    obtain ⟨s, hs, rfl⟩ := List.mem_map.mp hmem
    have hs := Engine.stylesheet?_of_mem hdistinct hs
    exact ⟨s, (hfound s.handle).symm.trans hs, Engine.count_stylesheetsFor hdistinct hs⟩

/-- A stylesheet that changes from one delivery to the other stays in front. -/
example :
    let theme : Stylesheet := ⟨"theme", .inline "a", true, false, false⟩
    let print : Stylesheet := ⟨"print", .inline "b", true, false, false⟩
    let external : Stylesheet := { theme with print := false }
    let e := ((start false .empty).run [.enqueue theme, .enqueue print, .enqueue external]).engine
    e.stylesheets = [external, print] ∧ e.stylesheetsFor .printed = [print] ∧
      e.stylesheetsFor .external = [external] := by
  decide

end Session

end StyleTemplate
