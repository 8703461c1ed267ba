/-! The float nearest to a decimal. The quotient is formed exactly and rounded once, a tie going
to the even neighbour. -/

namespace StyleTemplate.Decimal

/-- The whole number nearest to `num / den`, a tie going to the even one. -/
def divideToEven (num den : Nat) : Nat :=
  let q := num / den
  let r := num % den
  if den < 2 * r ∨ (den = 2 * r ∧ q % 2 = 1) then q + 1 else q

/-- The largest `e` with `2 ^ e ≤ num / den`, both positive. -/
def binaryExponent (num den : Nat) : Int :=
  let e : Int := (num.log2 : Int) - den.log2
  let reaches := if 0 ≤ e then den * Nat.pow 2 e.toNat ≤ num else den ≤ num * Nat.pow 2 (-e).toNat
  if reaches then e else e - 1

/-- The bits of the float nearest to `num / den`. A significand that rounds up to the next power
of two carries into the exponent by itself. -/
def nearestBits (num den : Nat) : UInt64 :=
  if num = 0 then 0
  else
    let unit := max (binaryExponent num den - 52) (-1074)
    let significand :=
      if 0 ≤ unit then divideToEven num (den * Nat.pow 2 unit.toNat)
      else divideToEven (num * Nat.pow 2 (-unit).toNat) den
    let bits := (unit + 1074).toNat * 0x10000000000000 + significand
    UInt64.ofNat (min bits 0x7FF0000000000000)

/-- The float nearest to `digits · 10 ^ exponent`. Numbers far out of range are settled by their
magnitude alone. -/
def toFloat (negative : Bool) (digits : Nat) (exponent : Int) : Float :=
  let magnitude : Int := (Nat.toDigits 10 digits).length + exponent
  let bits : UInt64 :=
    if digits = 0 ∨ magnitude < -400 then 0
    else if 400 < magnitude then 0x7FF0000000000000
    else if 0 ≤ exponent then nearestBits (digits * Nat.pow 10 exponent.toNat) 1
    else nearestBits digits (Nat.pow 10 (-exponent).toNat)
  Float.ofBits (if negative then bits ||| 0x8000000000000000 else bits)

end StyleTemplate.Decimal
