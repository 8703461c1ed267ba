import StyleTemplate.Value
import StyleTemplate.Table

/-! Filters: named functions from a value and arguments to a value or an error. -/

namespace StyleTemplate

/-- What an argument was required to be. -/
inductive ArgumentNeed where
  | number | integer
deriving DecidableEq, Repr

/-- What the filtered value was required to be. -/
inductive ValueNeed where
  | numeric | scalar
deriving DecidableEq, Repr

/-- Why a filter fails. Positions of arguments count from one. -/
inductive FilterError where
  | missingArgument (position : Nat)
  | invalidArgument (position : Nat) (need : ArgumentNeed) (found : Kind)
  | invalidValue (need : ValueNeed) (found : Kind)
  | custom (message : String)
deriving DecidableEq, Repr

namespace FilterError

def message : FilterError → String
  | missingArgument position => "missing argument " ++ toString position
  | invalidArgument position need found =>
    let needed := match need with
      | .number => "a number"
      | .integer => "an integer"
    "argument " ++ toString position ++ " must be " ++ needed ++ ", found " ++ found.name
  | invalidValue need found =>
    let needed := match need with
      | .numeric => "numeric"
      | .scalar => "scalar"
    "expected a " ++ needed ++ " value, found " ++ found.name
  | custom message => message

end FilterError

/-- A filter takes the value and the arguments of the call. -/
abbrev Filter := Value → List Value → Except FilterError Value

/-- The filters known to a compilation, by name. -/
abbrev Filters := Table Filter

/-- The argument at `index`, which counts from zero. -/
def requiredArgument (args : List Value) (index : Nat) : Except FilterError Value :=
  match args[index]? with
  | some arg => .ok arg
  | none => .error (.missingArgument (index + 1))

end StyleTemplate
