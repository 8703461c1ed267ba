/-! Binary floating-point numbers as the shortest decimals that read back to them. The search is
in exact arithmetic: of the decimals with as few digits as possible that lie in the rounding
interval of a number, the nearest one is taken. -/

namespace StyleTemplate.Decimal

/-- The number `digits · 10 ^ exponent`. -/
structure Scaled where
  digits : Nat
  exponent : Int
deriving DecidableEq, Repr

/-- A positive number `center / scale` and the ends `low / scale`, `high / scale` of the interval
that rounds to it; `closed` tells whether the ends belong to the interval. -/
structure Rounding where
  center : Nat
  low : Nat
  high : Nat
  scale : Nat
  closed : Bool

namespace Rounding

/-- The interval of `significand · 2 ^ exponent`. Below a power of two the gap to the next smaller
number is half as wide, unless that number has the same exponent. -/
def ofBinary (significand : Nat) (exponent : Int) (narrow : Bool) : Rounding :=
  let down := if narrow then 1 else 2
  let e := exponent - 2
  let (up, scale) := if 0 ≤ e then (Nat.pow 2 e.toNat, 1) else (1, Nat.pow 2 (-e).toNat)
  { center := 4 * significand * up
    low := (4 * significand - down) * up
    high := (4 * significand + 2) * up
    scale
    closed := significand % 2 == 0 }

/-- Whether `digits · 10 ^ exponent` lies in the interval. -/
def contains (r : Rounding) (d : Scaled) : Bool :=
  let (point, grid) :=
    if 0 ≤ d.exponent then (d.digits * Nat.pow 10 d.exponent.toNat * r.scale, 1)
    else (d.digits * r.scale, Nat.pow 10 (-d.exponent).toNat)
  if r.closed then r.low * grid ≤ point && point ≤ r.high * grid
  else r.low * grid < point && point < r.high * grid

/-- How many times `num` has to be multiplied by ten to reach `den`; `fuel` bounds the answer. -/
def shortfall (den : Nat) : Nat → Nat → Nat
  | 0, _ => 0
  | fuel + 1, num => if den ≤ num then 0 else shortfall den fuel (10 * num) + 1

/-- The `e` with `10 ^ (e - 1) ≤ center / scale < 10 ^ e`. -/
def magnitude (r : Rounding) : Int :=
  if r.scale ≤ r.center then (Nat.toDigits 10 (r.center / r.scale)).length
  else 1 - (shortfall r.scale (r.scale.log2 + 1) r.center : Nat)

/-- The decimals next to the center among the multiples of `10 ^ exponent`, the nearer one first,
and the upper one when both are as near. -/
def neighbours (r : Rounding) (exponent : Int) : List Scaled :=
  let (num, den) :=
    if 0 ≤ exponent then (r.center, r.scale * Nat.pow 10 exponent.toNat)
    else (r.center * Nat.pow 10 (-exponent).toNat, r.scale)
  let below : Scaled := ⟨num / den, exponent⟩
  let above : Scaled := ⟨num / den + 1, exponent⟩
  if 2 * (num % den) < den then [below, above] else [above, below]

/-- Seventeen digits always suffice. -/
def shortest (r : Rounding) : Scaled :=
  let top := r.magnitude
  let candidates := (List.range 17).flatMap fun (n : Nat) => r.neighbours (top - 1 - n)
  ((candidates.find? r.contains).getD ⟨0, 0⟩)

end Rounding

/-- Zeros at the end of the digits moved into the exponent. -/
def Scaled.normalise (d : Scaled) : Scaled :=
  if h : d.digits ≠ 0 ∧ d.digits % 10 = 0 then
    normalise ⟨d.digits / 10, d.exponent + 1⟩
  else d
termination_by d.digits
decreasing_by exact Nat.div_lt_self (Nat.pos_of_ne_zero h.1) (by decide)

/-- The digits with the point in its place and no exponent. -/
def Scaled.positional (d : Scaled) : String :=
  let digits := Nat.toDigits 10 d.digits
  if 0 ≤ d.exponent then String.ofList (digits ++ List.replicate d.exponent.toNat '0')
  else
    let places := (-d.exponent).toNat
    let padded := List.replicate (places + 1 - digits.length) '0' ++ digits
    let whole := padded.length - places
    String.ofList (padded.take whole ++ '.' :: padded.drop whole)

/-- The text of a float: its shortest decimal written without an exponent, whole numbers without
a point. -/
def ofFloat (x : Float) : String :=
  let bits := x.toBits.toNat
  let sign := if bits / 0x8000000000000000 = 1 then "-" else ""
  let field : Nat := bits / 0x10000000000000 % 0x800
  let fraction : Nat := bits % 0x10000000000000
  if field = 2047 then
    if fraction = 0 then sign ++ "inf" else "NaN"
  else if field = 0 ∧ fraction = 0 then sign ++ "0"
  else
    let rounding :=
      if field = 0 then Rounding.ofBinary fraction (-1074) false
      else
        Rounding.ofBinary (0x10000000000000 + fraction) ((field : Int) - 1075)
          (fraction == 0 && field != 1)
    sign ++ rounding.shortest.normalise.positional

end StyleTemplate.Decimal
