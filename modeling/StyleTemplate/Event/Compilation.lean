import StyleTemplate.Engine

/-! What is told while stylesheets are compiled. -/

namespace StyleTemplate

/-- Every problem is told when the template has been filled in. -/
def Diagnostic.event (d : Diagnostic) : Event :=
  ⟨.warn, "dcss_compiler::compiler", d.message,
    [("code", .text d.code), ("offset", .number d.span.start)]⟩

/-- The problems of a compilation, and its size. -/
def Compilation.events (c : Compilation) (source : String) : List Event :=
  c.diagnostics.map Diagnostic.event ++
    [⟨.debug, "dcss_compiler::compiler", "compiled " ++ toString source.utf8ByteSize ++ " bytes",
      [("placeholders", .number (placeholdersOf source.toList).length),
        ("diagnostics", .number c.diagnostics.length)]⟩]

namespace Engine

/-- What is told when a source is compiled for a handle that has a resolver. -/
def compileEvents (e : Engine) (handle source : String) : List Event :=
  match e.resolvers.get? handle, e.compile handle source with
  | some _, .ok compilation =>
    ⟨.debug, "dcss_compiler::engine", "compiling stylesheet", [("handle", .text handle)]⟩ ::
      compilation.events source
  | _, _ => []

/-- The look-up of a body in the cache. -/
def lookupEvent (e : Engine) (handle : String) : Event :=
  ⟨.trace, "dcss_compiler::cache", "cache lookup",
    [("handle", .text handle), ("hit", .flag (e.cache.get? handle).isSome)]⟩

/-- What is told when a stylesheet is rendered. -/
def renderEvents (e : Engine) (tree : FileTree) (s : Stylesheet) : List Event :=
  let lookup := if s.cache then [e.lookupEvent s.handle] else []
  match e.cachedBody? s, s.read tree with
  | none, .ok source => lookup ++ e.compileEvents s.handle source
  | _, _ => lookup

/-- What is told when one of several stylesheets cannot be rendered. -/
def failureEvents (e : Engine) (tree : FileTree) (s : Stylesheet) : List Event :=
  match (e.render tree s.handle).1 with
  | .ok _ => []
  | .error error =>
    [⟨.error, "dcss_compiler::engine", error.message, [("handle", .text s.handle)]⟩]

/-- What is told when all stylesheets with a delivery are rendered. -/
def renderAllEvents (e : Engine) (tree : FileTree) (delivery : Delivery) : List Event :=
  (e.stylesheetsFor delivery).flatMap fun s => e.renderEvents tree s ++ e.failureEvents tree s

end Engine

end StyleTemplate
