import StyleTemplate.Proofs.Engine.Session

/-! Rendering all stylesheets of a delivery is rendering each of them alone: in the order in which
their handles were first enqueued, with the result that each one has on the engine as it was, and
with nothing changed but cached bodies (`Session.renderAll_run`). -/

namespace StyleTemplate

namespace Engine

/-- Rendering all stylesheets of a delivery, these being the ones of `handles`. -/
structure RendersAlone (e : Engine) (tree : FileTree) (delivery : Delivery)
    (handles : List String) : Prop where
  order : (e.stylesheetsFor delivery).map (·.handle) = handles
  distinct : handles.Nodup
  results : (e.renderAll tree delivery).1 = handles.map fun handle => (e.render tree handle).1
  onlyCache : (e.renderAll tree delivery).2 =
    { e with cache := (e.renderAll tree delivery).2.cache }
  stored : ∀ s ∈ e.stylesheetsFor delivery, s.cache → ∀ artifact,
    (e.render tree s.handle).1 = .ok artifact →
      (e.renderAll tree delivery).2.cache.get? s.handle = some artifact.body
  untouched : ∀ handle, (∀ s ∈ e.stylesheetsFor delivery, s.handle = handle → s.cache → ∀ artifact,
    (e.render tree handle).1 ≠ .ok artifact) →
      (e.renderAll tree delivery).2.cache.get? handle = e.cache.get? handle
  anyOrder : ∀ others : List String, others.Perm handles → renderEach tree e others =
    (others.map fun handle => (e.render tree handle).1, (e.renderAll tree delivery).2)

variable {e : Engine}

private theorem stylesheet?_of_mem_stylesheetsFor {s : Stylesheet} {delivery : Delivery}
    (h : e.handles.Nodup) (hs : s ∈ e.stylesheetsFor delivery) : e.stylesheet? s.handle = some s :=
  stylesheet?_of_mem h (List.mem_filter.mp hs).1

theorem rendersAlone (h : e.handles.Nodup) (tree : FileTree) (delivery : Delivery) :
    e.RendersAlone tree delivery (e.handles.filter (e.delivers delivery)) := by
  have horder := handles_stylesheetsFor h delivery
  have hdistinct : (e.handles.filter (e.delivers delivery)).Nodup := h.filter _
  have hafter (handle : String) := agreeOn_renderEach hdistinct handle e tree
  rw [← horder] at hdistinct hafter ⊢
  refine ⟨rfl, hdistinct, renderEach_fst hdistinct e tree, renderEach_snd e tree _,
    fun s hs hcache artifact hok => ?_, fun handle hnone => ?_, fun others hperm => ?_⟩
  · have hbody := (hafter s.handle).body
    rw [if_pos (List.mem_map_of_mem hs),
      get?_render (stylesheet?_of_mem_stylesheetsFor h hs) hcache hok] at hbody
    exact hbody.symm
  · have hbody := (hafter handle).body
    split at hbody
    · rename_i hmem
      obtain ⟨s, hs, rfl⟩ := List.mem_map.mp hmem
      rw [render_snd_eq_self fun t ht hcache => ?_] at hbody
      · exact hbody.symm
      · rw [stylesheet?_of_mem_stylesheetsFor h hs] at ht
        obtain rfl := Option.some.inj ht
        exact hnone s hs rfl hcache
    · exact hbody.symm
  · have hothers := hperm.nodup_iff.mpr hdistinct
    exact Prod.ext (renderEach_fst hothers e tree) (renderEach_perm hdistinct hperm e tree)

end Engine

/-- After any run of operations on a fresh engine, whatever the files hold by then. -/
theorem Session.renderAll_run (builtins : Bool) (tree : FileTree) (ops : List Operation)
    (files : FileTree) (delivery : Delivery) :
    let e := ((start builtins tree).run ops).engine
    e.RendersAlone files delivery ((firstEnqueued ops).filter (e.delivers delivery)) := by
  intro e
  have hdistinct : e.handles.Nodup := nodup_handles_run (nodup_handles_start builtins tree) ops
  have hhandles : e.handles = firstEnqueued ops := handles_run builtins tree ops
  rw [← hhandles]
  exact Engine.rendersAlone hdistinct files delivery

end StyleTemplate
