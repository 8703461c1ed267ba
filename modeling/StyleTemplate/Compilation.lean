import StyleTemplate.Filter.Chain
import StyleTemplate.Resolver
import StyleTemplate.Segment

/-! Filling in a template. Plain text is copied; every placeholder becomes the text of its filtered
value. -/

namespace StyleTemplate

/-- The text that takes the place of a placeholder, and what is reported about it. -/
structure Substitution where
  text : String
  diagnostics : List Diagnostic
deriving DecidableEq

/-- A filled-in template, and what was reported on the way. -/
structure Compilation where
  output : String
  diagnostics : List Diagnostic
deriving DecidableEq

/-- The name of the filter that may stand in for an undefined variable. -/
def fallbackFilter : String := "default"

namespace Placeholder

/-- Whether a call goes to a registered fallback filter. -/
def isFallback (filters : Filters) (call : FilterCall) : Bool :=
  call.name == fallbackFilter && filters.contains call.name

/-- The text of a placeholder. A variable that is undefined is reported, unless the value is still
undefined before the first fallback call and no longer at the end of the chain. -/
def evaluate (p : Placeholder) (resolver : Resolver) (filters : Filters) : Substitution :=
  let resolved := resolver p.name p.subscripts
  let initial := match resolved with
    | .ok v => v
    | .error _ => .undefined
  let unresolved := match resolved with
    | .ok _ => []
    | .error reason => [.subscriptTraversal p.path reason p.span]
  let missing := match resolved with
    | .ok v => v.isUndefined
    | .error _ => false
  let before := p.filters.takeWhile fun call => !isFallback filters call
  let after := p.filters.dropWhile fun call => !isFallback filters call
  let partway := FilterCall.applyAll filters initial before
  let result := FilterCall.applyAll filters partway.value after
  let defaulted := partway.value.isUndefined && !after.isEmpty && !result.value.isUndefined
  let undefinedVariable :=
    if missing && !defaulted then [.undefinedVariable p.path p.span] else []
  let reported :=
    unresolved ++ undefinedVariable ++ partway.diagnostics ++ result.diagnostics
  match result.value.render? with
  | some text => ⟨text, reported⟩
  | none => ⟨"", reported ++ [.nonScalarValue p.path result.value.kind p.span]⟩

end Placeholder

/-- The text of a segment. -/
def Segment.evaluate (resolver : Resolver) (filters : Filters) : Segment → Substitution
  | .text cs _ => ⟨String.ofList cs, []⟩
  | .placeholder p => p.evaluate resolver filters

/-- Fills in a template. -/
def compile (source : String) (resolver : Resolver) (filters : Filters) : Compilation :=
  let parts := (segmentsOf source.toList).map (Segment.evaluate resolver filters)
  ⟨String.join (parts.map (·.text)), parts.flatMap (·.diagnostics)⟩

end StyleTemplate
