import StyleTemplate.Decimal.Numeral
import StyleTemplate.Decimal.Shortest

/-! Literals written as filter arguments. Every raw text is a literal of some kind; the text of a
literal is what it prints as. -/

namespace StyleTemplate

/-- The value of a filter argument. -/
inductive Literal where
  | string (s : String)
  | boolean (b : Bool)
  | integer (n : Int64)
  | float (x : Float)
deriving DecidableEq, Inhabited

namespace Literal

/-- What stands between a leading and a trailing single quote, these being two characters. -/
def unquote? : List Char → Option (List Char)
  | '\'' :: cs => if cs.getLast? = some '\'' then some cs.dropLast else none
  | _ => none

/-- A whole number with an optional minus sign, if it fits in 64 bits. -/
def integer? (raw : List Char) : Option Int64 :=
  let (negative, digits) := Decimal.splitSign raw
  if Decimal.isDigits digits then Decimal.toInt64? (Decimal.signed negative digits) else none

/-- Digits, a point and digits. -/
def float? (raw : List Char) : Option Float :=
  match Decimal.splitPoint? raw with
  | some (whole, fraction) =>
    if Decimal.isDigits whole && Decimal.isDigits fraction then
      some (Decimal.floatOf false whole fraction)
    else none
  | none => none

/-- The literal that a raw text denotes: text in single quotes, a truth value, a whole number or a
decimal, and otherwise the text itself. -/
def ofText (raw : String) : Literal :=
  let cs := raw.toList
  match unquote? cs with
  | some inner => string (String.ofList inner)
  | none =>
    if raw = "true" then boolean true
    else if raw = "false" then boolean false
    else
      match integer? cs with
      | some n => integer n
      | none =>
        match float? cs with
        | some x => float x
        | none => string raw

/-- The text of a literal. -/
def text : Literal → String
  | string s => s
  | boolean b => if b then "true" else "false"
  | integer n => toString n.toInt
  | float x => Decimal.ofFloat x

end Literal

end StyleTemplate
