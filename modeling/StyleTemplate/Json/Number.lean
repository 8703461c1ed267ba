import StyleTemplate.Value
import StyleTemplate.Decimal.Nearest
import StyleTemplate.Decimal.Numeral

/-! Numbers in JSON. Whole numbers within 64 bits stay whole. Any other number is a float: its
digits are gathered as long as they fit in an unsigned word of 64 bits, and the result is scaled by
a power of ten in floating-point arithmetic. -/

namespace StyleTemplate.Json

/-- Digits gathered into a word: the word, how many digits it took, and the digits that no longer
fit. -/
def gather (word : Nat) (taken : Nat) : List Char → Nat × Nat × List Char
  | [] => (word, taken, [])
  | c :: cs =>
    let next := 10 * word + (c.toNat - '0'.toNat)
    if next ≤ Decimal.maxWord then gather next (taken + 1) cs else (word, taken, c :: cs)

/-- A positive float times `10 ^ exponent`, in steps of at most 308; `none` when it is too large. -/
def scale? : Nat → Float → Int → Option Float
  | 0, x, _ => some x
  | steps + 1, x, exponent =>
    if exponent.natAbs ≤ 308 then
      let power := Decimal.toFloat false 1 exponent.natAbs
      if exponent < 0 then some (x / power)
      else if (x * power).isInf then none
      else some (x * power)
    else if x == 0 then some x
    else if 0 < exponent then none
    else scale? steps (x / Decimal.toFloat false 1 308) (exponent + 308)

private def signedFloat (negative : Bool) (x : Float) : Value := .float (if negative then -x else x)

/-- The parts of a number as it is written. -/
structure NumberText where
  negative : Bool
  whole : List Char
  fraction : Option (List Char)
  exponent : Option (Bool × List Char)

/-- The number that is written, unless it is too large for a float. -/
def NumberText.value? (t : NumberText) : Option Value :=
  let (word, _, unfit) := gather 0 0 t.whole
  match t.fraction, t.exponent with
  | none, none =>
    if unfit = [] then
      let n : Int := if t.negative then -(word : Int) else word
      match Decimal.toInt64? n with
      | some i =>
        if t.negative && word == 0 then some (.float (-0.0)) else some (.integer i)
      | none => some (signedFloat t.negative (UInt64.ofNat word).toFloat)
    else
      (scale? 8 (UInt64.ofNat word).toFloat unfit.length).map (signedFloat t.negative)
  | _, _ =>
    let (word, taken, _) := gather word 0 (t.fraction.getD [])
    let point : Int := (unfit.length : Int) - taken
    match t.exponent with
    | none => (scale? 8 (UInt64.ofNat word).toFloat point).map (signedFloat t.negative)
    | some (down, digits) =>
      let size : Int := Decimal.valueOf digits
      if size < 0x80000000 then
        let exponent := if down then point - size else point + size
        (scale? 8 (UInt64.ofNat word).toFloat exponent).map (signedFloat t.negative)
      else if word ≠ 0 ∧ !down then none
      else some (signedFloat t.negative 0)

/-- The number at the start of a text: no needless zeros in front, and a digit on both sides of the
point and in the exponent. -/
def NumberText.read? (cs : List Char) : Option (NumberText × List Char) :=
  let (negative, cs) := Decimal.splitSign cs
  let whole := cs.takeWhile Char.isDigit
  let rest := cs.dropWhile Char.isDigit
  if whole = [] ∨ (whole.head? = some '0' ∧ 1 < whole.length) then none
  else
    let fraction? : Option (Option (List Char) × List Char) :=
      match rest with
      | '.' :: cs =>
        let fraction := cs.takeWhile Char.isDigit
        if fraction = [] then none else some (some fraction, cs.dropWhile Char.isDigit)
      | cs => some (none, cs)
    match fraction? with
    | none => none
    | some (fraction, rest) =>
      let scaled (down : Bool) (cs : List Char) : Option (NumberText × List Char) :=
        let digits := cs.takeWhile Char.isDigit
        if digits = [] then none
        else some (⟨negative, whole, fraction, some (down, digits)⟩, cs.dropWhile Char.isDigit)
      match rest with
      | e :: cs =>
        if e = 'e' ∨ e = 'E' then
          match cs with
          | '-' :: cs => scaled true cs
          | '+' :: cs => scaled false cs
          | cs => scaled false cs
        else some (⟨negative, whole, fraction, none⟩, rest)
      | [] => some (⟨negative, whole, fraction, none⟩, [])

end StyleTemplate.Json
