import StyleTemplate.Literal
import StyleTemplate.Span

/-! Placeholders of a template: a variable, the subscripts that lead into it, and the filters that
its value passes through. -/

namespace StyleTemplate

/-- One filter of a placeholder, with its arguments. The span begins at the name. -/
structure FilterCall where
  name : String
  args : List Literal
  span : Span
deriving DecidableEq

/-- A placeholder; its span begins at the `$`. -/
structure Placeholder where
  name : String
  subscripts : List String
  filters : List FilterCall
  span : Span
deriving DecidableEq

/-- The variable and its subscripts, each in brackets. -/
def Placeholder.path (p : Placeholder) : String :=
  p.subscripts.foldl (fun path key => path ++ "[" ++ key ++ "]") p.name

end StyleTemplate
