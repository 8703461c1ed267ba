import Mathlib.Data.List.Basic
import StyleTemplate.Command.Compile
import StyleTemplate.Proofs.Engine.Rendering

/-! Engines as commands make them ready: stylesheets with distinct handles, each with a resolver of its
own, and the built-in filters for all of them. Whatever else is in stock, a stylesheet is rendered from
its source and its resolver alone (`Engine.Stocks.render`), whichever deliveries were rendered before
(`Engine.Stocks.results`), and what is told meanwhile is what was found in it
(`Engine.Stocks.findings`). -/

namespace StyleTemplate

/-- Whether an event tells that a stylesheet is compiled, or of a problem in it. -/
def Event.isFinding (e : Event) : Bool :=
  e.level = .debug && e.target = "dcss_compiler::engine" ||
    e.level = .warn && e.target = "dcss_compiler::compiler"

/-- What is told about a stylesheet that was filled in: that it is compiled, and every problem in it. -/
def Artifact.findings (a : Artifact) : List Event :=
  ⟨.debug, "dcss_compiler::engine", "compiling stylesheet", [("handle", .text a.handle)]⟩ ::
    a.diagnostics.map Diagnostic.event

/-- A stylesheet, and the resolver for it. -/
structure StockItem where
  stylesheet : Stylesheet
  resolver : Resolver

namespace StockItem

def handle (item : StockItem) : String := item.stylesheet.handle

/-- The items with a delivery. -/
def ofDelivery (items : List StockItem) (delivery : Delivery) : List StockItem :=
  items.filter (·.stylesheet.delivery = delivery)

/-- What a source becomes for the item. -/
def artifact (item : StockItem) (source : String) : Artifact :=
  let filled := compile source item.resolver Filter.builtins
  ⟨item.handle, if item.stylesheet.minify then minify filled.output else filled.output,
    filled.diagnostics, false⟩

/-- What the stylesheet becomes, if it can be read. -/
def rendition (item : StockItem) (tree : FileTree) : Except RenderError Artifact :=
  match item.stylesheet.read tree with
  | .ok source => .ok (item.artifact source)
  | .error error => .error error

end StockItem

namespace Engine

/-- Puts an item into stock. -/
def supply (e : Engine) (item : StockItem) : Engine :=
  (e.setResolver item.handle item.resolver).enqueue item.stylesheet

def stocked (items : List StockItem) : Engine := items.foldl supply .withBuiltins

/-- What an engine holds when these are the items in stock, and nothing was done with it yet. -/
structure Stocks (e : Engine) (items : List StockItem) : Prop where
  stylesheets : e.stylesheets = items.map (·.stylesheet)
  resolver : ∀ item ∈ items, e.resolvers.get? item.handle = some item.resolver
  ownFilters : e.ownFilters = ∅
  globalFilters : e.globalFilters = Filter.builtins
  cache : e.cache = .empty

variable {e : Engine} {items : List StockItem} {tree : FileTree}

namespace Stocks

theorem handles (h : e.Stocks items) : e.handles = items.map (·.handle) := by
  rw [Engine.handles, h.stylesheets, List.map_map]
  rfl

private theorem putStylesheet_of_new {s : Stylesheet} {ts : List Stylesheet}
    (h : s.handle ∉ ts.map (·.handle)) : putStylesheet s ts = ts ++ [s] := by
  induction ts with
  | nil => rfl
  | cons t ts ih =>
    rw [List.map_cons, List.mem_cons, not_or] at h
    rw [putStylesheet, if_neg (Ne.symm h.1), ih h.2, List.cons_append]

/-- One more item with a handle of its own. -/
theorem supply (h : e.Stocks items) {item : StockItem} (hnew : item.handle ∉ items.map (·.handle)) :
    (e.supply item).Stocks (items ++ [item]) := by
  have hput : putStylesheet item.stylesheet e.stylesheets = e.stylesheets ++ [item.stylesheet] := by
    rw [← h.handles] at hnew
    exact putStylesheet_of_new hnew
  refine ⟨?_, fun other hother => ?_, h.ownFilters, h.globalFilters, h.cache⟩
  · rw [List.map_append, ← h.stylesheets]
    exact hput
  · simp only [Engine.supply, enqueue, setResolver, Table.get?_insert]
    rcases List.mem_append.mp hother with hother | hother
    · have hne : other.handle ≠ item.handle := fun heq => hnew (heq ▸ List.mem_map_of_mem hother)
      rw [if_neg hne]
      exact h.resolver other hother
    · rw [List.mem_singleton.mp hother, if_pos rfl]

theorem foldl_supply (h : e.Stocks items) {more : List StockItem}
    (hdistinct : ((items ++ more).map (·.handle)).Nodup) :
    (more.foldl Engine.supply e).Stocks (items ++ more) := by
  induction more generalizing e items with
  | nil => rwa [List.append_nil]
  | cons item more ih =>
    rw [List.append_cons] at hdistinct ⊢
    refine ih (h.supply fun hmem => ?_) hdistinct
    rw [List.map_append, List.map_append] at hdistinct
    have hfirst := (List.nodup_append.mp hdistinct).1
    exact (List.nodup_append.mp hfirst).2.2 _ hmem _ (List.mem_singleton_self _) rfl

end Stocks

theorem stocks_stocked (hdistinct : (items.map (·.handle)).Nodup) : (stocked items).Stocks items := by
  have hnone : withBuiltins.Stocks [] := ⟨rfl, by simp, rfl, rfl, rfl⟩
  exact hnone.foldl_supply hdistinct

namespace Stocks

variable (h : e.Stocks items)
include h

theorem compile {item : StockItem} (hitem : item ∈ items) (source : String) :
    e.compile item.handle source = .ok (StyleTemplate.compile source item.resolver Filter.builtins) := by
  have hfilters : e.filtersFor item.handle = Filter.builtins := by
    rw [filtersFor, h.ownFilters, h.globalFilters]
    rfl
  rw [Engine.compile, h.resolver item hitem, hfilters]

theorem stylesheet? (hdistinct : (items.map (·.handle)).Nodup) {item : StockItem}
    (hitem : item ∈ items) : e.stylesheet? item.handle = some item.stylesheet := by
  refine stylesheet?_of_mem (h.handles ▸ hdistinct) ?_
  rw [h.stylesheets]
  exact List.mem_map_of_mem hitem

/-- A render of one item does not depend on the others. -/
theorem render (hdistinct : (items.map (·.handle)).Nodup) {item : StockItem} (hitem : item ∈ items) :
    (e.render tree item.handle).1 = item.rendition tree := by
  have hstylesheet := h.stylesheet? hdistinct hitem
  have hproduce : e.produce tree item.stylesheet = item.rendition tree := by
    rw [Engine.produce, StockItem.rendition]
    cases item.stylesheet.read tree with
    | error error => rfl
    | ok source =>
      have hcompile := h.compile hitem source
      rw [StockItem.handle] at hcompile
      simp only [hcompile]
      rfl
  rw [render_of_uncached hstylesheet fun _ => by rw [h.cache]; rfl, hproduce]
  cases item.rendition tree with
  | error error => rfl
  | ok artifact => rfl

/-- So it is on any engine that holds the same for the handles of the delivery. -/
theorem renderAll (hdistinct : (items.map (·.handle)).Nodup) {delivery : Delivery} {e' : Engine}
    (hstylesheets : e'.stylesheets = e.stylesheets)
    (hagree : ∀ item ∈ StockItem.ofDelivery items delivery, AgreeOn item.handle e e') :
    (e'.renderAll tree delivery).1 =
      (StockItem.ofDelivery items delivery).map (·.rendition tree) := by
  have hhandles : (e'.stylesheetsFor delivery).map (·.handle) =
      (StockItem.ofDelivery items delivery).map (·.handle) := by
    rw [Engine.stylesheetsFor, hstylesheets, h.stylesheets, List.filter_map, List.map_map]
    rfl
  have hnodup : ((StockItem.ofDelivery items delivery).map (·.handle)).Nodup :=
    hdistinct.sublist (List.filter_sublist.map _)
  rw [Engine.renderAll, hhandles, renderEach_fst hnodup, List.map_map]
  refine List.map_congr_left fun item hitem => ?_
  rw [Function.comp_apply, ← ((hagree item hitem).render tree).1]
  exact h.render hdistinct ((List.mem_filter.mp hitem).1)

/-- Once the printed stylesheets were rendered, the others find what they found before. -/
theorem agreeOn_printed (hdistinct : (items.map (·.handle)).Nodup) (tree : FileTree) {item : StockItem}
    (hitem : item ∈ StockItem.ofDelivery items .external) :
    AgreeOn item.handle e (e.renderAll tree .printed).2 := by
  have hhandles : e.handles.Nodup := h.handles ▸ hdistinct
  have hprinted : ((e.stylesheetsFor .printed).map (·.handle)).Nodup := by
    rw [handles_stylesheetsFor hhandles]
    exact hhandles.filter _
  have hagree := agreeOn_renderEach hprinted item.handle e tree
  -- the handle belongs to one stylesheet, and that one is not printed
  rwa [if_neg] at hagree
  rw [mem_stylesheetsFor_iff hhandles]
  obtain ⟨hmem, hexternal⟩ := List.mem_filter.mp hitem
  rw [delivers, h.stylesheet? hdistinct hmem, Option.any_some, of_decide_eq_true hexternal]
  decide

/-- Both deliveries, one after the other: no item sees the renders before it. -/
theorem results (hdistinct : (items.map (·.handle)).Nodup) (tree : FileTree) :
    (e.renderAll tree .printed).1 = (StockItem.ofDelivery items .printed).map (·.rendition tree) ∧
      ((e.renderAll tree .printed).2.renderAll tree .external).1 =
        (StockItem.ofDelivery items .external).map (·.rendition tree) :=
  ⟨h.renderAll hdistinct rfl fun item _ => .refl item.handle e,
    h.renderAll hdistinct (stylesheets_renderAll e tree .printed) fun _ hitem =>
      h.agreeOn_printed hdistinct tree hitem⟩

/-! ### What is told -/

/-- What is told of the render of one item. -/
private theorem filter_renderEvents {item : StockItem} (hitem : item ∈ items) {e' : Engine}
    (hagree : AgreeOn item.handle e e') (tree : FileTree) :
    (e'.renderEvents tree item.stylesheet).filter (·.isFinding) =
      (item.rendition tree).toOption.toList.flatMap (·.findings) := by
  have hcached : e'.cachedBody? item.stylesheet = none := by
    have hbody : e'.cache.get? item.handle = none := by
      rw [← hagree.body, h.cache]
      rfl
    rw [cachedBody?]
    split
    · exact hbody
    · rfl
  have hlookup : (if item.stylesheet.cache then [e'.lookupEvent item.stylesheet.handle]
      else []).filter (·.isFinding) = [] := by
    split
    · rfl
    · rfl
  rw [renderEvents, hcached, StockItem.rendition]
  cases item.stylesheet.read tree with
  | error error => exact hlookup
  | ok source =>
    have hcompile := h.compile hitem source
    rw [hagree.compile] at hcompile
    have hresolver := h.resolver item hitem
    rw [hagree.resolver] at hresolver
    rw [StockItem.handle] at hcompile hresolver
    have hproblems (ds : List Diagnostic) :
        (ds.map Diagnostic.event).filter (·.isFinding) = ds.map Diagnostic.event := by
      refine List.filter_eq_self.mpr fun event hevent => ?_
      obtain ⟨d, -, rfl⟩ := List.mem_map.mp hevent
      rfl
    dsimp only
    rw [List.filter_append, hlookup, compileEvents]
    simp only [hresolver, hcompile, Compilation.events]
    rw [List.nil_append, List.filter_cons_of_pos rfl, List.filter_append, hproblems]
    simp [StockItem.artifact, Artifact.findings, Except.toOption, Event.isFinding, StockItem.handle]

/-- What is told while a delivery is rendered, by any engine that holds the same for its handles. -/
theorem findings {delivery : Delivery} {e' : Engine} (hstylesheets : e'.stylesheets = e.stylesheets)
    (hagree : ∀ item ∈ StockItem.ofDelivery items delivery, AgreeOn item.handle e e')
    (tree : FileTree) :
    (e'.renderAllEvents tree delivery).filter (·.isFinding) =
      ((StockItem.ofDelivery items delivery).filterMap fun item =>
        (item.rendition tree).toOption).flatMap (·.findings) := by
  have hitems : e'.stylesheetsFor delivery =
      (StockItem.ofDelivery items delivery).map (·.stylesheet) := by
    rw [Engine.stylesheetsFor, hstylesheets, h.stylesheets, List.filter_map]
    rfl
  have hfailure (s : Stylesheet) : (e'.failureEvents tree s).filter (·.isFinding) = [] := by
    rw [failureEvents]
    split
    · rfl
    · rfl
  rw [renderAllEvents, hitems, List.flatMap_map, List.filter_flatMap,
    List.filterMap_eq_flatMap_toList, List.flatMap_assoc]
  refine List.flatMap_congr fun item hitem => ?_
  rw [List.filter_append, hfailure, List.append_nil]
  exact h.filter_renderEvents (List.mem_filter.mp hitem).1 (hagree item hitem) tree

end Stocks

end Engine

end StyleTemplate
