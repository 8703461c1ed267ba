import StyleTemplate.Value

/-! Resolvers supply the values of variables. -/

namespace StyleTemplate

/-- A resolver answers a variable with its subscripts; an unknown variable is undefined. -/
abbrev Resolver := String → List String → Except TraversalError Value

namespace Resolver

/-- The variables are the entries of a mapping; any other value has none. -/
def ofValue (bindings : Value) : Resolver := fun name subscripts =>
  match bindings with
  | .mapping entries =>
    match entries.get? name with
    | some root => root.traverse subscripts
    | none => .ok .undefined
  | _ => .ok .undefined

/-- A function in place of variables. It cannot fail. -/
def ofFunction (f : String → List String → Value) : Resolver := fun name subscripts =>
  .ok (f name subscripts)

end Resolver

end StyleTemplate
