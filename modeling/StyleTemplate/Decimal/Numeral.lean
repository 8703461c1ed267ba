import StyleTemplate.Decimal.Nearest

/-! Numerals made of decimal digits: whole numbers in the range of 64 bits, and decimals with a
point. -/

namespace StyleTemplate.Decimal

/-- A run of one or more decimal digits. -/
def isDigits (cs : List Char) : Bool := !cs.isEmpty && cs.all Char.isDigit

/-- The number that a run of digits denotes. -/
def valueOf (cs : List Char) : Nat := cs.foldl (fun n c => 10 * n + (c.toNat - '0'.toNat)) 0

/-- A leading minus sign taken off. -/
def splitSign : List Char → Bool × List Char
  | '-' :: cs => (true, cs)
  | cs => (false, cs)

/-- The two sides of the first point, if there is one. -/
def splitPoint? : List Char → Option (List Char × List Char)
  | [] => none
  | c :: cs =>
    if c = '.' then some ([], cs)
    else (splitPoint? cs).map fun (whole, fraction) => (c :: whole, fraction)

/-- The largest unsigned word of 64 bits. -/
def maxWord : Nat := 0xFFFFFFFFFFFFFFFF

/-- `n` as a word of 64 bits, when it is in range. -/
def toInt64? (n : Int) : Option Int64 :=
  if -0x8000000000000000 ≤ n ∧ n < 0x8000000000000000 then some (Int64.ofInt n) else none

/-- The number that a sign and a run of digits denote. -/
def signed (negative : Bool) (digits : List Char) : Int :=
  if negative then -(valueOf digits : Int) else valueOf digits

/-- The float nearest to a decimal, from the digits on both sides of its point. -/
def floatOf (negative : Bool) (whole fraction : List Char) : Float :=
  toFloat negative (valueOf (whole ++ fraction)) (-(fraction.length : Int))

end StyleTemplate.Decimal
