import StyleTemplate.Value
import StyleTemplate.Text.Blank

/-! The numbers that values stand for, and their arithmetic. Whole numbers stay whole as long as
the exact result fits in 64 bits. -/

namespace StyleTemplate

/-- A whole number or a float. -/
inductive Number where
  | integer (n : Int64)
  | float (x : Float)
deriving DecidableEq

namespace Number

def toFloat : Number → Float
  | integer n => n.toFloat
  | float x => x

/-- The number that a numeral denotes: digits, at most one point between digits, an optional minus
sign, and blanks around it. A whole number out of range is a float. -/
def ofText? (raw : List Char) : Option Number :=
  let (negative, numeral) := Decimal.splitSign (Text.trim raw)
  match Decimal.splitPoint? numeral with
  | none =>
    if Decimal.isDigits numeral then
      match Decimal.toInt64? (Decimal.signed negative numeral) with
      | some n => some (integer n)
      | none => some (float (Decimal.floatOf negative numeral []))
    else none
  | some (whole, fraction) =>
    if Decimal.isDigits whole && Decimal.isDigits fraction then
      some (float (Decimal.floatOf negative whole fraction))
    else none

end Number

namespace Value

def ofNumber : Number → Value
  | .integer n => integer n
  | .float x => float x

/-- The number that a value stands for: numbers, and strings that are numerals. -/
def number? : Value → Option Number
  | integer n => some (.integer n)
  | float x => some (.float x)
  | string s => Number.ofText? s.toList
  | _ => none

def isNumeric (v : Value) : Bool := v.number?.isSome

def toInteger? (v : Value) : Option Int64 :=
  match v.number? with
  | some (.integer n) => some n
  | _ => none

def toFloat? (v : Value) : Option Float := v.number?.map Number.toFloat

/-- Two numbers combined: exactly when both are whole and the result fits, and otherwise as
floats. -/
def combine (exact : Int → Int → Int) (approximate : Float → Float → Float) (a b : Number) :
    Value :=
  let inexact := float (approximate a.toFloat b.toFloat)
  match a, b with
  | .integer m, .integer n =>
    match Decimal.toInt64? (exact m.toInt n.toInt) with
    | some result => integer result
    | none => inexact
  | _, _ => inexact

/-- Two values combined as numbers, if both stand for one. -/
def arithmetic? (exact : Int → Int → Int) (approximate : Float → Float → Float) (v w : Value) :
    Option Value :=
  match v.number?, w.number? with
  | some a, some b => some (combine exact approximate a b)
  | _, _ => none

def add? : Value → Value → Option Value := arithmetic? (· + ·) (· + ·)

def multiply? : Value → Value → Option Value := arithmetic? (· * ·) (· * ·)

end Value

end StyleTemplate
