import Mathlib.Data.List.Induction
import StyleTemplate.Proofs.Engine.Rendering

/-! Everything that can be done with an engine, as operations on a session: an engine and the files
that it reads. After any run of operations on a fresh engine the handles of its stylesheets are
distinct, in the order in which they were first enqueued (`Session.handles_run`). -/

namespace StyleTemplate

/-- What can be done with an engine, or with the files that it reads. -/
inductive Operation where
  | setResolver (handle : String) (resolver : Resolver)
  | setCallback (handle : String) (callback : String → List String → Value)
  | registerFilter (handle name : String) (filter : Filter)
  | registerGlobalFilter (name : String) (filter : Filter)
  | enqueue (stylesheet : Stylesheet)
  | compile (handle source : String)
  | render (handle : String)
  | renderAll (delivery : Delivery)
  | updateCache (handle body : String)
  | clearCache (handle : String)
  /-- Files are written and removed, in any way. -/
  | changeFiles (tree : FileTree)

/-- The handle that an operation enqueues a stylesheet for. -/
def Operation.enqueued? : Operation → Option String
  | enqueue s => some s.handle
  | _ => none

/-- Handles in the order in which they are first enqueued. -/
def firstEnqueued (ops : List Operation) : List String := (ops.filterMap (·.enqueued?)).eraseDups

/-- Handles with that of one more operation, unless it is there. -/
def Operation.entered (op : Operation) (handles : List String) : List String :=
  match op.enqueued? with
  | some handle => if handle ∈ handles then handles else handles ++ [handle]
  | none => handles

theorem Operation.nodup_entered (op : Operation) {handles : List String} (h : handles.Nodup) :
    (op.entered handles).Nodup := by
  unfold Operation.entered
  split
  · split
    · exact h
    · rename_i hnew
      refine List.nodup_append.mpr ⟨h, by simp, fun other hother last hlast heq => ?_⟩
      obtain rfl := List.mem_singleton.mp hlast
      exact hnew (heq ▸ hother)
  · exact h

theorem firstEnqueued_snoc (ops : List Operation) (op : Operation) :
    firstEnqueued (ops ++ [op]) = op.entered (firstEnqueued ops) := by
  rw [firstEnqueued, List.filterMap_append, List.eraseDups_append, Operation.entered]
  cases hop : op.enqueued? with
  | none => simp [hop, firstEnqueued, List.removeAll]
  | some handle =>
    rw [List.filterMap_cons_some hop, List.filterMap_nil, List.removeAll]
    by_cases h : handle ∈ ops.filterMap (·.enqueued?)
    · rw [List.filter_cons_of_neg (by simp [h])]
      simp [h, firstEnqueued]
    · rw [List.filter_cons_of_pos (by simpa using h)]
      simp [h, firstEnqueued, List.eraseDups_cons]

/-- An engine on which nothing was done yet. -/
def Engine.fresh (builtins : Bool) : Engine := if builtins then .withBuiltins else .bare

/-- An engine, and the files that it reads. -/
structure Session where
  engine : Engine
  tree : FileTree

namespace Session

def start (builtins : Bool) (tree : FileTree) : Session := ⟨.fresh builtins, tree⟩

def step (s : Session) : Operation → Session
  | .setResolver h resolver => { s with engine := s.engine.setResolver h resolver }
  | .setCallback h callback => { s with engine := s.engine.setResolver h (.ofFunction callback) }
  | .registerFilter h name filter => { s with engine := s.engine.registerFilter h name filter }
  | .registerGlobalFilter name filter => { s with engine := s.engine.registerGlobalFilter name filter }
  | .enqueue stylesheet => { s with engine := s.engine.enqueue stylesheet }
  | .compile _ _ => s
  | .render h => { s with engine := (s.engine.render s.tree h).2 }
  | .renderAll delivery => { s with engine := (s.engine.renderAll s.tree delivery).2 }
  | .updateCache h body => { s with engine := s.engine.updateCache h body }
  | .clearCache h => { s with engine := (s.engine.clearCache h).2 }
  | .changeFiles tree => { s with tree }

def run (s : Session) (ops : List Operation) : Session := ops.foldl step s

theorem run_cons (s : Session) (op : Operation) (ops : List Operation) :
    s.run (op :: ops) = (s.step op).run ops := rfl

theorem run_snoc (s : Session) (ops : List Operation) (op : Operation) :
    s.run (ops ++ [op]) = (s.run ops).step op := by
  rw [run, run, List.foldl_append]
  rfl

/-! ### The order of stylesheets -/

theorem stylesheets_step (s : Session) {op : Operation} (h : op.enqueued? = none) :
    (s.step op).engine.stylesheets = s.engine.stylesheets := by
  cases op with
  | enqueue => exact nomatch h
  | render handle =>
    change (s.engine.render s.tree handle).2.stylesheets = _
    rw [Engine.render_snd]
    split
    · rfl
    · rfl
  | renderAll delivery =>
    exact Engine.stylesheets_renderAll s.engine s.tree delivery
  | _ => rfl

theorem handles_step (s : Session) (op : Operation) :
    (s.step op).engine.handles = op.entered s.engine.handles := by
  cases hop : op.enqueued? with
  | none =>
    rw [Engine.handles, stylesheets_step s hop, Operation.entered, hop]
    rfl
  | some handle =>
    cases op with
    | enqueue stylesheet => exact Engine.handles_enqueue s.engine stylesheet
    | _ => cases hop

theorem handles_run (builtins : Bool) (tree : FileTree) (ops : List Operation) :
    ((start builtins tree).run ops).engine.handles = firstEnqueued ops := by
  induction ops using List.reverseRecOn with
  | nil => cases builtins <;> rfl
  | append_singleton ops op ih => rw [run_snoc, handles_step, ih, firstEnqueued_snoc]

theorem nodup_handles_run {s : Session} (h : s.engine.handles.Nodup) (ops : List Operation) :
    (s.run ops).engine.handles.Nodup := by
  induction ops generalizing s with
  | nil => exact h
  | cons op ops ih =>
    refine ih ?_
    rw [handles_step]
    exact op.nodup_entered h

theorem nodup_handles_start (builtins : Bool) (tree : FileTree) :
    (start builtins tree).engine.handles.Nodup := by
  cases builtins <;> exact .nil

end Session

end StyleTemplate
