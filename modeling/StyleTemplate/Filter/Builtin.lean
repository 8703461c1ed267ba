import StyleTemplate.Filter
import StyleTemplate.Text.Case
import StyleTemplate.Value.Number

/-! The filters that are always there. -/

namespace StyleTemplate.Filter

/-- The first argument in place of an undefined or empty value. -/
def default : Filter := fun v args =>
  match requiredArgument args 0 with
  | .ok fallback => .ok (if v.isEmpty then fallback else v)
  | .error e => .error e

/-- A function on the text of a scalar. The undefined value passes untouched. -/
def onText (f : List Char → List Char) : Filter := fun v _ =>
  if v.isUndefined then .ok v
  else
    match v.render? with
    | some text => .ok (.string (String.ofList (f text.toList)))
    | none => .error (.invalidValue .scalar v.kind)

def upper : Filter := onText Text.upper

def lower : Filter := onText Text.lower

def trim : Filter := onText Text.trim

private def isScalar (v : Value) : Bool := v.render?.isSome

/-- The texts of the arguments after the value. Without arguments the value stays what it is. -/
def append : Filter := fun v args =>
  if isScalar v then .ok (args.foldl Value.concat v) else .error (.invalidValue .scalar v.kind)

/-- The texts of the arguments in front of the value. -/
def prepend : Filter := fun v args =>
  if isScalar v then .ok ((args.foldl Value.concat (.string "")).concat v)
  else .error (.invalidValue .scalar v.kind)

/-- Arithmetic with the first argument. A value that is no number is blamed before an argument that
is none. -/
def arithmetic (operation : Value → Value → Option Value) : Filter := fun v args =>
  match requiredArgument args 0 with
  | .error e => .error e
  | .ok operand =>
    match operation v operand with
    | some result => .ok result
    | none =>
      if v.isNumeric then .error (.invalidArgument 1 .number operand.kind)
      else .error (.invalidValue .numeric v.kind)

def add : Filter := arithmetic Value.add?

def multiply : Filter := arithmetic Value.multiply?

/-- A float rounded to so many places after the point, halves away from zero. -/
def roundTo (places : Nat) (x : Float) : Float :=
  let factor := Decimal.toFloat false 1 places
  (x * factor).round / factor

/-- Rounds to the places that the first argument gives, none by default and fifteen at most. Whole
numbers stay as they are. -/
def round : Filter := fun v args =>
  let precision : Except FilterError Int := match args with
    | [] => .ok 0
    | arg :: _ =>
      match arg.toInteger? with
      | some n => .ok n.toInt
      | none => .error (.invalidArgument 1 .integer arg.kind)
  match precision with
  | .error e => .error e
  | .ok n =>
    match v.number? with
    | some (.integer n) => .ok (.integer n)
    | some (.float x) => .ok (.float (roundTo (min n.toNat 15) x))
    | none => .error (.invalidValue .numeric v.kind)

/-- The built-in filters. -/
def builtins : Filters :=
  .ofList [("default", default), ("upper", upper), ("lower", lower), ("trim", trim),
    ("append", append), ("prepend", prepend), ("add", add), ("multiply", multiply),
    ("round", round)]

end StyleTemplate.Filter
