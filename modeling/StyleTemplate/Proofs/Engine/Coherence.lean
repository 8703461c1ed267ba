import Mathlib.Data.List.Basic
import StyleTemplate.Proofs.Engine.Session

/-! Which body is cached for a handle, over whole runs: the one stored last, by an update or by a
render that had to compile, unless it was cleared since. A cached body stands in for the stylesheet
whatever else has changed (`Session.coherent_run`). -/

namespace StyleTemplate

/-- What happens to cached bodies. -/
inductive CacheEvent where
  | stored (handle body : String)
  | cleared (handle : String)

def CacheEvent.handle : CacheEvent → String
  | stored h _ | cleared h => h

/-- The body most recently stored for a handle, not cleared since. -/
def MostRecent (handle body : String) (events : List CacheEvent) : Prop :=
  ∃ before after, events = before ++ .stored handle body :: after ∧
    ∀ event ∈ after, event.handle ≠ handle

variable {handle body : String}

/-! ### The cache after a list of events -/

/-- The last event decides, unless it is about another handle. -/
theorem mostRecent_snoc {events : List CacheEvent} {event : CacheEvent} :
    MostRecent handle body (events ++ [event]) ↔
      event = .stored handle body ∨ event.handle ≠ handle ∧ MostRecent handle body events := by
  constructor
  · rintro ⟨before, after, hevents, hafter⟩
    -- either nothing came after the body was stored, or the last event came after it
    rcases List.eq_nil_or_concat' after with rfl | ⟨after, last, rfl⟩
    · obtain ⟨-, hlast⟩ := List.append_inj' hevents rfl
      exact .inl (List.cons.inj hlast).1
    · rw [← List.cons_append, ← List.append_assoc] at hevents
      obtain ⟨rfl, hlast⟩ := List.append_inj' hevents rfl
      obtain rfl : event = last := (List.cons.inj hlast).1
      refine .inr ⟨hafter event (by simp), before, after, rfl, fun other hother => ?_⟩
      exact hafter other (List.mem_append_left _ hother)
  · rintro (rfl | ⟨hne, before, after, rfl, hafter⟩)
    · exact ⟨events, [], rfl, by simp⟩
    · refine ⟨before, after ++ [event], by simp, fun other hother => ?_⟩
      rcases List.mem_append.mp hother with hother | hother
      · exact hafter other hother
      · rwa [List.mem_singleton.mp hother]

namespace Cache

def handleEvent (c : Cache) : CacheEvent → Cache
  | .stored h body => c.update h body
  | .cleared h => (c.clear h).2

def replay (c : Cache) (events : List CacheEvent) : Cache := events.foldl handleEvent c

theorem replay_append (c : Cache) (events later : List CacheEvent) :
    c.replay (events ++ later) = (c.replay events).replay later := List.foldl_append

theorem get?_handleEvent_iff (c : Cache) (event : CacheEvent) :
    (c.handleEvent event).get? handle = some body ↔
      event = .stored handle body ∨ event.handle ≠ handle ∧ c.get? handle = some body := by
  cases event with
  | stored other stored =>
    rw [handleEvent, get?_update]
    by_cases h : handle = other
    · simp [h, CacheEvent.handle]
    · simp [h, Ne.symm h, CacheEvent.handle]
  | cleared other =>
    rw [handleEvent, get?_clear]
    by_cases h : handle = other
    · simp [h, CacheEvent.handle]
    · simp [h, Ne.symm h, CacheEvent.handle]

theorem get?_replay_iff {events : List CacheEvent} :
    (empty.replay events).get? handle = some body ↔ MostRecent handle body events := by
  induction events using List.reverseRecOn with
  | nil =>
    constructor
    · exact fun h => nomatch h
    · rintro ⟨before, after, h, -⟩
      exact nomatch (List.append_eq_nil_iff.mp h.symm).2
  | append_singleton events event ih =>
    rw [mostRecent_snoc, ← ih, replay_append]
    exact get?_handleEvent_iff (empty.replay events) event

end Cache

/-! ### The events of a run -/

namespace Engine

def renderEachStores (tree : FileTree) (e : Engine) : List String → List CacheEvent
  | [] => []
  | handle :: handles =>
    (e.kept? tree handle).toList.map (.stored handle) ++
      renderEachStores tree (e.render tree handle).2 handles

theorem cache_render (e : Engine) (tree : FileTree) (handle : String) :
    (e.render tree handle).2.cache =
      e.cache.replay ((e.kept? tree handle).toList.map (.stored handle)) := by
  rw [render_snd]
  cases e.kept? tree handle with
  | none => rfl
  | some body => rfl

theorem cache_renderEach (e : Engine) (tree : FileTree) (handles : List String) :
    (renderEach tree e handles).2.cache = e.cache.replay (renderEachStores tree e handles) := by
  induction handles generalizing e with
  | nil => rfl
  | cons handle handles ih =>
    rw [renderEachStores, Cache.replay_append, ← cache_render]
    exact ih (e.render tree handle).2

end Engine

namespace Session

/-- What an operation does to cached bodies. A render stores its body if it succeeds for a caching
stylesheet of which no body was cached. -/
def events (s : Session) : Operation → List CacheEvent
  | .updateCache h body => [.stored h body]
  | .clearCache h => [.cleared h]
  | .render h => (s.engine.kept? s.tree h).toList.map (.stored h)
  | .renderAll delivery =>
    Engine.renderEachStores s.tree s.engine ((s.engine.stylesheetsFor delivery).map (·.handle))
  | _ => []

/-- What a run does to cached bodies, from its first operation on. -/
def history (s : Session) : List Operation → List CacheEvent
  | [] => []
  | op :: ops => s.events op ++ (s.step op).history ops

theorem cache_step (s : Session) (op : Operation) :
    (s.step op).engine.cache = s.engine.cache.replay (s.events op) := by
  cases op with
  | render handle => exact s.engine.cache_render s.tree handle
  | renderAll delivery => exact s.engine.cache_renderEach s.tree _
  | _ => rfl

theorem cache_run (s : Session) (ops : List Operation) :
    (s.run ops).engine.cache = s.engine.cache.replay (s.history ops) := by
  induction ops generalizing s with
  | nil => rfl
  | cons op ops ih => rw [run_cons, ih, cache_step, history, Cache.replay_append]

end Session

/-! ### Cached bodies stay -/

/-- Whether an operation leaves the body of a handle to others: it neither updates nor clears it. -/
def Operation.Spares (handle : String) : Operation → Prop
  | updateCache h _ | clearCache h => h ≠ handle
  | _ => True

namespace Engine

theorem get?_render_of_cached {e : Engine} (h : e.cache.get? handle = some body) (tree : FileTree)
    (other : String) : (e.render tree other).2.cache.get? handle = some body := by
  by_cases hne : handle = other
  · subst hne
    rw [render_snd, kept?_of_cached h]
    exact h
  · rw [← (agreeOn_render hne e tree).body, h]

theorem get?_renderEach_of_cached {e : Engine} (h : e.cache.get? handle = some body)
    (tree : FileTree) (handles : List String) :
    (renderEach tree e handles).2.cache.get? handle = some body := by
  induction handles generalizing e with
  | nil => exact h
  | cons other handles ih => exact ih (get?_render_of_cached h tree other)

end Engine

namespace Session

variable {s : Session}

theorem get?_step_of_cached (h : s.engine.cache.get? handle = some body) {op : Operation}
    (hop : op.Spares handle) : (s.step op).engine.cache.get? handle = some body := by
  cases op with
  | render other => exact Engine.get?_render_of_cached h s.tree other
  | renderAll delivery => exact Engine.get?_renderEach_of_cached h s.tree _
  | updateCache other stored =>
    change (s.engine.cache.update other stored).get? handle = some body
    rw [Cache.get?_update, if_neg (Ne.symm hop), h]
  | clearCache other =>
    change (s.engine.cache.clear other).2.get? handle = some body
    rw [Cache.get?_clear, if_neg (Ne.symm hop), h]
  | _ => exact h

theorem get?_run_of_cached (h : s.engine.cache.get? handle = some body) {ops : List Operation}
    (hops : ∀ op ∈ ops, op.Spares handle) : (s.run ops).engine.cache.get? handle = some body := by
  induction ops generalizing s with
  | nil => exact h
  | cons op ops ih =>
    obtain ⟨hop, hops⟩ := List.forall_mem_cons.mp hops
    exact ih (get?_step_of_cached h hop) hops

/-- What can be said of the body of a handle in a session with such a history. -/
structure Coherent (s : Session) (history : List CacheEvent) (handle : String) : Prop where
  body : ∀ body, s.engine.cache.get? handle = some body ↔ MostRecent handle body history
  reused : ∀ body later stylesheet, s.engine.cache.get? handle = some body →
    (∀ op ∈ later, op.Spares handle) →
    (s.run later).engine.stylesheet? handle = some stylesheet → stylesheet.cache →
    (s.run later).engine.render (s.run later).tree handle =
      (.ok ⟨handle, body, [], true⟩, (s.run later).engine)
  untouched : ((∃ error, (s.engine.render s.tree handle).1 = .error error) ∨
      ∃ stylesheet, s.engine.stylesheet? handle = some stylesheet ∧ stylesheet.cache = false) →
    (s.engine.render s.tree handle).2 = s.engine

/-- After any run on a fresh engine. -/
theorem coherent_run (builtins : Bool) (tree : FileTree) (ops : List Operation) (handle : String) :
    ((start builtins tree).run ops).Coherent ((start builtins tree).history ops) handle := by
  have hempty : (start builtins tree).engine.cache = .empty := by
    cases builtins <;> rfl
  refine ⟨fun body => ?_, fun body later stylesheet hbody hlater hs hcache => ?_, fun h => ?_⟩
  · rw [cache_run, hempty]
    exact Cache.get?_replay_iff
  · exact Engine.render_of_cached hs hcache (get?_run_of_cached hbody hlater)
  · refine Engine.render_snd_eq_self fun stylesheet hs hcache artifact hok => ?_
    rcases h with ⟨error, herror⟩ | ⟨other, hother, hoff⟩
    · rw [hok] at herror
      exact nomatch herror
    · rw [hs] at hother
      obtain rfl := Option.some.inj hother
      rw [hoff] at hcache
      exact nomatch hcache

end Session

end StyleTemplate
