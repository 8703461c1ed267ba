import StyleTemplate.Cache
import StyleTemplate.Compilation
import StyleTemplate.Event
import StyleTemplate.Filter.Builtin
import StyleTemplate.Minify
import StyleTemplate.Stylesheet

/-! An engine holds what is needed to compile stylesheets: a resolver for each handle, filters for
all handles and for single ones, the stylesheets in the order in which their handles came, and
the bodies that are cached. -/

namespace StyleTemplate

structure Engine where
  resolvers : Table Resolver
  ownFilters : Table Filters
  globalFilters : Filters
  stylesheets : List Stylesheet
  cache : Cache

namespace Engine

/-- An engine without filters. -/
def bare : Engine := ⟨∅, ∅, ∅, [], .empty⟩

/-- An engine with the built-in filters. -/
def withBuiltins : Engine := { bare with globalFilters := Filter.builtins }

def setResolver (e : Engine) (handle : String) (resolver : Resolver) : Engine :=
  { e with resolvers := e.resolvers.insert handle resolver }

/-- Registers a filter for one handle; it comes before a global one of the same name. -/
def registerFilter (e : Engine) (handle name : String) (filter : Filter) : Engine :=
  let own := (e.ownFilters.get? handle).getD ∅
  { e with ownFilters := e.ownFilters.insert handle (own.insert name filter) }

def registerGlobalFilter (e : Engine) (name : String) (filter : Filter) : Engine :=
  { e with globalFilters := e.globalFilters.insert name filter }

/-- A stylesheet in the place of the one with the same handle, or at the end. -/
def putStylesheet (s : Stylesheet) : List Stylesheet → List Stylesheet
  | [] => [s]
  | t :: ts => if t.handle = s.handle then s :: ts else t :: putStylesheet s ts

def enqueue (e : Engine) (s : Stylesheet) : Engine :=
  { e with stylesheets := putStylesheet s e.stylesheets }

def stylesheet? (e : Engine) (handle : String) : Option Stylesheet :=
  e.stylesheets.find? (·.handle = handle)

/-- The stylesheets with a delivery, in order. -/
def stylesheetsFor (e : Engine) (delivery : Delivery) : List Stylesheet :=
  e.stylesheets.filter (·.delivery = delivery)

/-- The global filters with those of the handle over them. -/
def filtersFor (e : Engine) (handle : String) : Filters :=
  e.globalFilters.overlay ((e.ownFilters.get? handle).getD ∅)

def clearCache (e : Engine) (handle : String) : Bool × Engine :=
  let (found, cache) := e.cache.clear handle
  (found, { e with cache })

def updateCache (e : Engine) (handle body : String) : Engine :=
  { e with cache := e.cache.update handle body }

/-- Compiles a source with the resolver and the filters of a handle. Without a resolver only a
source without placeholders can be compiled, to itself. -/
def compile (e : Engine) (handle source : String) : Except RenderError Compilation :=
  match e.resolvers.get? handle with
  | some resolver => .ok (StyleTemplate.compile source resolver (e.filtersFor handle))
  | none =>
    if placeholdersOf source.toList = [] then .ok ⟨source, []⟩
    else .error (.unresolvedProvider handle)

/-- The cached body that stands in for a stylesheet, if it caches. -/
def cachedBody? (e : Engine) (s : Stylesheet) : Option String :=
  if s.cache then e.cache.get? s.handle else none

/-- Compiles an enqueued stylesheet, and keeps the body if the stylesheet caches. -/
def render (e : Engine) (tree : FileTree) (handle : String) :
    Except RenderError Artifact × Engine :=
  match e.stylesheet? handle with
  | none => (.error (.unknownStylesheet handle), e)
  | some s =>
    match e.cachedBody? s with
    | some body => (.ok ⟨handle, body, [], true⟩, e)
    | none =>
      match s.read tree with
      | .error error => (.error error, e)
      | .ok source =>
        match e.compile handle source with
        | .error error => (.error error, e)
        | .ok compilation =>
          let body := if s.minify then minify compilation.output else compilation.output
          (.ok ⟨handle, body, compilation.diagnostics, false⟩,
            if s.cache then e.updateCache handle body else e)

/-- Renders handles one after the other. -/
def renderEach (tree : FileTree) (e : Engine) :
    List String → List (Except RenderError Artifact) × Engine
  | [] => ([], e)
  | handle :: handles =>
    let (result, e) := e.render tree handle
    let (results, e) := renderEach tree e handles
    (result :: results, e)

/-- Renders every stylesheet with a delivery. Each one succeeds or fails on its own. -/
def renderAll (e : Engine) (tree : FileTree) (delivery : Delivery) :
    List (Except RenderError Artifact) × Engine :=
  renderEach tree e ((e.stylesheetsFor delivery).map (·.handle))

end Engine

end StyleTemplate
