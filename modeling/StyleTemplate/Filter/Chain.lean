import StyleTemplate.Diagnostic
import StyleTemplate.Placeholder

/-! A value passed through a chain of filter calls, from the left. A call that is unknown or fails
leaves the value as it was and is reported. -/

namespace StyleTemplate

/-- What a chain makes of a value, and what it reports, in the order of the calls. -/
structure Filtered where
  value : Value
  diagnostics : List Diagnostic

namespace FilterCall

/-- One call on a value. -/
def apply (call : FilterCall) (filters : Filters) (v : Value) : Filtered :=
  match filters.get? call.name with
  | none => ⟨v, [.filterNotFound call.name call.span]⟩
  | some filter =>
    match filter v (call.args.map Value.ofLiteral) with
    | .ok result => ⟨result, []⟩
    | .error reason => ⟨v, [.filterFailed call.name reason call.span]⟩

/-- A chain of calls on a value. -/
def applyAll (filters : Filters) (v : Value) : List FilterCall → Filtered
  | [] => ⟨v, []⟩
  | call :: chain =>
    let first := call.apply filters v
    let rest := applyAll filters first.value chain
    ⟨rest.value, first.diagnostics ++ rest.diagnostics⟩

end FilterCall

end StyleTemplate
