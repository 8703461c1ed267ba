import StyleTemplate.Engine

/-! What renders do to an engine. A render looks at nothing but what the engine holds for its handle,
and changes nothing but the cached body of it (`Engine.AgreeOn`); so renders of distinct handles do
not see each other (`Engine.renderEach_fst`, `Engine.agreeOn_renderEach`). -/

namespace StyleTemplate.Engine

variable {e e' : Engine} {s : Stylesheet} {tree : FileTree} {handle other : String}

/-! ### Enqueued stylesheets -/

/-- The handles of the enqueued stylesheets, in their order. -/
def handles (e : Engine) : List String := e.stylesheets.map (·.handle)

theorem handles_enqueue (e : Engine) (s : Stylesheet) :
    (e.enqueue s).handles = if s.handle ∈ e.handles then e.handles else e.handles ++ [s.handle] := by
  unfold handles enqueue
  induction e.stylesheets with
  | nil => rfl
  | cons t ts ih =>
    rw [putStylesheet]
    by_cases ht : t.handle = s.handle
    · simp [ht]
    · simp only [ht, if_false, List.map_cons, ih, List.mem_cons, Ne.symm ht, false_or]
      split
      · rfl
      · rw [List.cons_append]

/-- A look-up finds the stylesheet last enqueued. -/
theorem stylesheet?_enqueue (e : Engine) (s : Stylesheet) (handle : String) :
    (e.enqueue s).stylesheet? handle = if handle = s.handle then some s else e.stylesheet? handle := by
  unfold stylesheet? enqueue
  induction e.stylesheets with
  | nil =>
    by_cases h : handle = s.handle
    · simp [putStylesheet, h]
    · simp [putStylesheet, h, Ne.symm h]
  | cons t ts ih =>
    rw [putStylesheet]
    by_cases ht : t.handle = s.handle
    · rw [if_pos ht]
      by_cases h : handle = s.handle
      · simp [h]
      · simp [h, Ne.symm h, ht]
    · rw [if_neg ht, List.find?_cons, List.find?_cons, ih]
      by_cases h : handle = s.handle
      · simp [h, ht]
      · simp [h]

theorem handle_of_stylesheet? (h : e.stylesheet? handle = some s) : s.handle = handle := by
  simpa using List.find?_some h

theorem stylesheet?_of_mem (hdistinct : e.handles.Nodup) (h : s ∈ e.stylesheets) :
    e.stylesheet? s.handle = some s := by
  unfold handles at hdistinct
  unfold stylesheet?
  generalize e.stylesheets = ts at hdistinct h
  induction ts with
  | nil => exact nomatch h
  | cons t ts ih =>
    rw [List.map_cons, List.nodup_cons] at hdistinct
    rcases List.mem_cons.mp h with rfl | h
    · simp
    · have hne : t.handle ≠ s.handle := fun ht => hdistinct.1 (ht ▸ List.mem_map_of_mem h)
      rw [List.find?_cons_of_neg (by simpa using hne)]
      exact ih hdistinct.2 h

/-- Whether the stylesheet of a handle has a delivery. -/
def delivers (e : Engine) (delivery : Delivery) (handle : String) : Bool :=
  (e.stylesheet? handle).any (·.delivery = delivery)

theorem handles_stylesheetsFor (h : e.handles.Nodup) (delivery : Delivery) :
    (e.stylesheetsFor delivery).map (·.handle) = e.handles.filter (e.delivers delivery) := by
  rw [handles, List.filter_map, stylesheetsFor]
  congr 1
  refine List.filter_congr fun t ht => ?_
  simp [delivers, stylesheet?_of_mem h ht]

theorem mem_stylesheetsFor_iff (h : e.handles.Nodup) {delivery : Delivery} :
    handle ∈ (e.stylesheetsFor delivery).map (·.handle) ↔ e.delivers delivery handle := by
  rw [handles_stylesheetsFor h, List.mem_filter, and_iff_right_iff_imp]
  intro hdelivers
  obtain ⟨s, hs, -⟩ := (Option.any_eq_true ..).mp hdelivers
  rw [← handle_of_stylesheet? hs]
  exact List.mem_map_of_mem (List.mem_of_find?_eq_some hs)

/-! ### What an engine holds for a handle -/

/-- Two engines hold the same for a handle. -/
structure AgreeOn (handle : String) (e e' : Engine) : Prop where
  resolver : e.resolvers.get? handle = e'.resolvers.get? handle
  ownFilters : e.ownFilters.get? handle = e'.ownFilters.get? handle
  globalFilters : e.globalFilters = e'.globalFilters
  stylesheet : e.stylesheet? handle = e'.stylesheet? handle
  body : e.cache.get? handle = e'.cache.get? handle

namespace AgreeOn

theorem refl (handle : String) (e : Engine) : AgreeOn handle e e := ⟨rfl, rfl, rfl, rfl, rfl⟩

theorem symm (h : AgreeOn handle e e') : AgreeOn handle e' e :=
  ⟨h.resolver.symm, h.ownFilters.symm, h.globalFilters.symm, h.stylesheet.symm, h.body.symm⟩

theorem trans {e'' : Engine} (h : AgreeOn handle e e') (h' : AgreeOn handle e' e'') :
    AgreeOn handle e e'' :=
  ⟨h.resolver.trans h'.resolver, h.ownFilters.trans h'.ownFilters,
    h.globalFilters.trans h'.globalFilters, h.stylesheet.trans h'.stylesheet, h.body.trans h'.body⟩

theorem filtersFor (h : AgreeOn handle e e') : e.filtersFor handle = e'.filtersFor handle := by
  rw [Engine.filtersFor, Engine.filtersFor, h.globalFilters, h.ownFilters]

theorem compile (h : AgreeOn handle e e') (source : String) :
    e.compile handle source = e'.compile handle source := by
  rw [Engine.compile, Engine.compile, h.resolver, h.filtersFor]

theorem delivers (h : AgreeOn handle e e') (delivery : Delivery) :
    e.delivers delivery handle = e'.delivers delivery handle := by
  rw [Engine.delivers, Engine.delivers, h.stylesheet]

theorem updateCache (h : AgreeOn handle e e') (other body : String) :
    AgreeOn handle (e.updateCache other body) (e'.updateCache other body) := by
  refine ⟨h.resolver, h.ownFilters, h.globalFilters, h.stylesheet, ?_⟩
  simp only [Engine.updateCache, Cache.get?_update, h.body]

end AgreeOn

theorem agreeOn_updateCache (hne : handle ≠ other) (e : Engine) (body : String) :
    AgreeOn handle e (e.updateCache other body) := by
  refine ⟨rfl, rfl, rfl, rfl, ?_⟩
  rw [updateCache, Cache.get?_update, if_neg hne]

/-! ### Rendering one handle -/

/-- What a stylesheet is rendered to without a look at the cache. -/
def produce (e : Engine) (tree : FileTree) (s : Stylesheet) : Except RenderError Artifact :=
  match s.read tree with
  | .error error => .error error
  | .ok source =>
    match e.compile s.handle source with
    | .error error => .error error
    | .ok compilation =>
      .ok ⟨s.handle, if s.minify then minify compilation.output else compilation.output,
        compilation.diagnostics, false⟩

theorem AgreeOn.produce (h : AgreeOn s.handle e e') : e.produce tree s = e'.produce tree s := by
  simp only [Engine.produce, h.compile]

theorem render_of_unknown (h : e.stylesheet? handle = none) :
    e.render tree handle = (.error (.unknownStylesheet handle), e) := by
  rw [render, h]

theorem render_of_cached {body : String} (h : e.stylesheet? handle = some s) (hcache : s.cache)
    (hbody : e.cache.get? handle = some body) :
    e.render tree handle = (.ok ⟨handle, body, [], true⟩, e) := by
  have hcached : e.cachedBody? s = some body := by
    rw [cachedBody?, if_pos hcache, handle_of_stylesheet? h, hbody]
  rw [render, h]
  simp only [hcached]

theorem render_of_uncached (h : e.stylesheet? handle = some s)
    (hbody : s.cache → e.cache.get? handle = none) :
    e.render tree handle =
      match e.produce tree s with
      | .error error => (.error error, e)
      | .ok artifact => (.ok artifact, if s.cache then e.updateCache handle artifact.body else e) := by
  obtain rfl := handle_of_stylesheet? h
  have hcached : e.cachedBody? s = none := by
    by_cases hcache : s.cache
    · rw [cachedBody?, if_pos hcache, hbody hcache]
    · rw [cachedBody?, if_neg hcache]
  rw [render, h]
  simp only [hcached, produce]
  cases s.read tree with
  | error error => rfl
  | ok source =>
    dsimp only
    cases e.compile s.handle source with
    | error error => rfl
    | ok compilation => rfl

/-- The body that a render adds to the cache: that of a caching stylesheet, when there was none and
the render succeeds. -/
def kept? (e : Engine) (tree : FileTree) (handle : String) : Option String :=
  match e.stylesheet? handle, e.cache.get? handle, (e.render tree handle).1 with
  | some s, none, .ok artifact => if s.cache then some artifact.body else none
  | _, _, _ => none

theorem kept?_of_cached {body : String} (h : e.cache.get? handle = some body) (tree : FileTree) :
    e.kept? tree handle = none := by
  unfold kept?
  split
  · rename_i hnone _
    rw [h] at hnone
    exact nomatch hnone
  · rfl

/-- Keeping a body is all that a render does to an engine. -/
theorem render_snd (e : Engine) (tree : FileTree) (handle : String) :
    (e.render tree handle).2 =
      match e.kept? tree handle with
      | some body => e.updateCache handle body
      | none => e := by
  unfold kept?
  cases h : e.stylesheet? handle with
  | none => rw [render_of_unknown h]
  | some s =>
    cases hbody : e.cache.get? handle with
    | some body =>
      by_cases hcache : s.cache
      · rw [render_of_cached h hcache hbody]
      · rw [render_of_uncached h fun hc => (hcache hc).elim]
        cases e.produce tree s with
        | error error => rfl
        | ok artifact => simp only [hcache]; rfl
    | none =>
      rw [render_of_uncached h fun _ => hbody]
      cases e.produce tree s with
      | error error => rfl
      | ok artifact =>
        cases hcache : s.cache
        · simp [hcache]
        · simp [hcache]

/-- Only a render that succeeds for a caching stylesheet does anything to an engine. -/
theorem render_snd_eq_self
    (h : ∀ s, e.stylesheet? handle = some s → s.cache → ∀ artifact,
      (e.render tree handle).1 ≠ .ok artifact) : (e.render tree handle).2 = e := by
  have hkept : e.kept? tree handle = none := by
    unfold kept?
    split
    · rename_i s artifact hs _ hok
      rw [if_neg fun hcache => h s hs hcache artifact hok]
    · rfl
  rw [render_snd, hkept]

theorem get?_render {artifact : Artifact} (h : e.stylesheet? handle = some s) (hcache : s.cache)
    (hok : (e.render tree handle).1 = .ok artifact) :
    (e.render tree handle).2.cache.get? handle = some artifact.body := by
  cases hbody : e.cache.get? handle with
  | some body =>
    rw [render_of_cached h hcache hbody] at hok ⊢
    rw [← Except.ok.inj hok]
    exact hbody
  | none =>
    have hkept : e.kept? tree handle = some artifact.body := by
      simp only [kept?, h, hbody, hok, if_pos hcache]
    rw [render_snd, hkept]
    simp [updateCache]

theorem agreeOn_render (hne : handle ≠ other) (e : Engine) (tree : FileTree) :
    AgreeOn handle e (e.render tree other).2 := by
  rw [render_snd]
  split
  · exact agreeOn_updateCache hne e _
  · exact .refl handle e

/-- A render does the same on engines that hold the same for its handle. -/
theorem AgreeOn.render (h : AgreeOn handle e e') (tree : FileTree) :
    (e.render tree handle).1 = (e'.render tree handle).1 ∧
      AgreeOn handle (e.render tree handle).2 (e'.render tree handle).2 := by
  have hresult : (e.render tree handle).1 = (e'.render tree handle).1 := by
    have hstylesheet := h.stylesheet
    cases hs : e.stylesheet? handle with
    | none =>
      rw [hs] at hstylesheet
      rw [render_of_unknown hs, render_of_unknown hstylesheet.symm]
    | some s =>
      rw [hs] at hstylesheet
      by_cases hcached : s.cache ∧ (e.cache.get? handle).isSome
      · obtain ⟨hcache, hbody⟩ := hcached
        obtain ⟨body, hbody⟩ := Option.isSome_iff_exists.mp hbody
        rw [render_of_cached hs hcache hbody,
          render_of_cached hstylesheet.symm hcache (h.body ▸ hbody)]
      · have hbody : s.cache → e.cache.get? handle = none := fun hcache => by
          simpa [hcache] using hcached
        have hproduce : e.produce tree s = e'.produce tree s :=
          AgreeOn.produce (handle_of_stylesheet? hs ▸ h)
        rw [render_of_uncached hs hbody, render_of_uncached hstylesheet.symm (h.body ▸ hbody),
          hproduce]
        cases e'.produce tree s with
        | error error => rfl
        | ok artifact => rfl
  have hkept : e.kept? tree handle = e'.kept? tree handle := by
    rw [kept?, kept?, h.stylesheet, h.body, hresult]
  refine ⟨hresult, ?_⟩
  rw [render_snd, render_snd, hkept]
  split
  · exact h.updateCache handle _
  · exact h

/-! ### Rendering several handles -/

theorem renderEach_snd (e : Engine) (tree : FileTree) (handles : List String) :
    (renderEach tree e handles).2 = { e with cache := (renderEach tree e handles).2.cache } := by
  induction handles generalizing e with
  | nil => rfl
  | cons handle handles ih =>
    have hrender : (e.render tree handle).2 = { e with cache := (e.render tree handle).2.cache } := by
      rw [render_snd]
      split
      · rfl
      · rfl
    simp only [renderEach]
    rw [ih, hrender]

/-- So the enqueued stylesheets stay. -/
theorem stylesheets_renderAll (e : Engine) (tree : FileTree) (delivery : Delivery) :
    (e.renderAll tree delivery).2.stylesheets = e.stylesheets := by
  rw [renderAll, renderEach_snd]

/-- Of a run over distinct handles, a handle sees its own render. -/
theorem agreeOn_renderEach {handles : List String} (hdistinct : handles.Nodup) (handle : String)
    (e : Engine) (tree : FileTree) :
    AgreeOn handle (if handle ∈ handles then (e.render tree handle).2 else e)
      (renderEach tree e handles).2 := by
  induction handles generalizing e with
  | nil => exact .refl handle e
  | cons other handles ih =>
    obtain ⟨hother, hdistinct⟩ := List.nodup_cons.mp hdistinct
    have htail := ih hdistinct (e.render tree other).2
    -- the first render is that of `handle`, which then does not come again, or leaves it alone
    simp only [renderEach]
    by_cases h : handle = other
    · subst h
      rw [if_neg hother] at htail
      rwa [if_pos List.mem_cons_self]
    · have hrest := agreeOn_render h e tree
      simp only [List.mem_cons, h, false_or]
      refine AgreeOn.trans ?_ htail
      split
      · exact (hrest.render tree).2
      · exact hrest

theorem renderEach_fst {handles : List String} (hdistinct : handles.Nodup) (e : Engine)
    (tree : FileTree) :
    (renderEach tree e handles).1 = handles.map fun handle => (e.render tree handle).1 := by
  induction handles generalizing e with
  | nil => rfl
  | cons other handles ih =>
    obtain ⟨hother, hdistinct⟩ := List.nodup_cons.mp hdistinct
    simp only [renderEach, List.map_cons, ih hdistinct]
    congr 1
    refine List.map_congr_left fun handle hmem => ?_
    have hne : handle ≠ other := fun h => hother (h ▸ hmem)
    exact ((agreeOn_render hne e tree).render tree).1.symm

/-- The order of distinct handles makes no difference to the engine. -/
theorem renderEach_perm {handles others : List String} (hdistinct : handles.Nodup)
    (hperm : others.Perm handles) (e : Engine) (tree : FileTree) :
    (renderEach tree e others).2 = (renderEach tree e handles).2 := by
  have hcache : (renderEach tree e others).2.cache = (renderEach tree e handles).2.cache := by
    -- a table is what is found in it, so it is enough to look at one handle at a time
    have hbodies (handle : String) : (renderEach tree e others).2.cache.get? handle =
        (renderEach tree e handles).2.cache.get? handle := by
      have hother := agreeOn_renderEach (hperm.nodup_iff.mpr hdistinct) handle e tree
      simp only [hperm.mem_iff] at hother
      exact (hother.symm.trans (agreeOn_renderEach hdistinct handle e tree)).body
    exact congrArg Cache.mk (Table.ext_get? hbodies)
  rw [renderEach_snd, renderEach_snd e tree handles, hcache]

end StyleTemplate.Engine
