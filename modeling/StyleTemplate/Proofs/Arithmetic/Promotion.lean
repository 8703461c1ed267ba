import StyleTemplate.Proofs.Literals.Numerals

/-! Sums and products of values. Two values that stand for numbers have one: the exact whole number where
both are whole and it fits in 64 bits, and otherwise a float (`ArithmeticOperation.compute_promotes`). -/

namespace StyleTemplate

open Decimal (Fits)
open Number (Reads)

namespace Value

/-- The number that a value stands for: itself, or what its numeral says. -/
inductive CountsAs : Value → Number → Prop
  | integer (n : Int64) : CountsAs (.integer n) (.integer n)
  | float (x : Float) : CountsAs (.float x) (.float x)
  | numeral {s : String} {number : Number} (h : Reads (Text.trim s.toList) number) :
    CountsAs (.string s) number

variable {v : Value} {number : Number}

theorem number?_eq_some_iff : v.number? = some number ↔ v.CountsAs number := by
  constructor
  · intro h
    cases v with
    | integer n =>
      obtain rfl := Option.some.inj h
      exact .integer n
    | float x =>
      obtain rfl := Option.some.inj h
      exact .float x
    | string s => exact .numeral (Number.reads_of_ofText? h)
    | undefined | boolean | sequence | mapping => exact nomatch h
  · rintro (n | x | h)
    · rfl
    · rfl
    · exact Number.ofText?_of_reads h

theorem number?_eq_none_iff : v.number? = none ↔ ∀ number, ¬v.CountsAs number := by
  simp only [Option.eq_none_iff_forall_ne_some, ne_eq, number?_eq_some_iff]

end Value

namespace ArithmeticOperation

open Value (CountsAs)

/-- The operation on values. -/
def compute? : ArithmeticOperation → Value → Value → Option Value
  | add => Value.add?
  | multiply => Value.multiply?

/-- What two numbers come to. Only whole numbers with a result in range stay whole. -/
inductive Combines (o : ArithmeticOperation) : Number → Number → Value → Prop
  | exact {m n r : Int64} (h : r.toInt = o.exact m.toInt n.toInt) :
    Combines o (.integer m) (.integer n) (.integer r)
  | large {m n : Int64} (h : ¬Fits (o.exact m.toInt n.toInt)) :
    Combines o (.integer m) (.integer n) (.float (o.approximate m.toFloat n.toFloat))
  | left (x : Float) (b : Number) : Combines o (.float x) b (.float (o.approximate x b.toFloat))
  | right (a : Number) (y : Float) : Combines o a (.float y) (.float (o.approximate a.toFloat y))

variable {o : ArithmeticOperation} {a b : Number} {v w result : Value} {r : Int64}

theorem combine_eq_iff : Value.combine o.exact o.approximate a b = result ↔ Combines o a b result := by
  constructor
  · rintro rfl
    unfold Value.combine
    split
    · split
      · rename_i hfits
        exact .exact (Decimal.toInt64?_eq_some_iff.mp hfits).symm
      · rename_i hlarge
        exact .large (Decimal.toInt64?_eq_none_iff.mp hlarge)
    · rename_i hfloat
      cases a with
      | float x => exact .left x b
      | integer m =>
        cases b with
        | float y => exact .right _ y
        | integer n => exact (hfloat m n rfl rfl).elim
  · rintro (h | h | _ | _)
    · simp only [Value.combine, Decimal.toInt64?_eq_some_iff.mpr h.symm]
    · simp only [Value.combine, Decimal.toInt64?_eq_none_iff.mpr h, Number.toFloat]
    · rfl
    · cases a <;> rfl

theorem compute?_eq (o : ArithmeticOperation) (v w : Value) :
    o.compute? v w = Value.arithmetic? o.exact o.approximate v w := by
  cases o with
  | add => rfl
  | multiply => rfl

theorem compute?_eq_none_iff :
    o.compute? v w = none ↔ (∀ a, ¬v.CountsAs a) ∨ ∀ b, ¬w.CountsAs b := by
  rw [compute?_eq, Value.arithmetic?, ← Value.number?_eq_none_iff, ← Value.number?_eq_none_iff]
  cases v.number? <;> cases w.number? <;> simp

theorem compute?_eq_some_iff : o.compute? v w = some result ↔
    ∃ a b, v.CountsAs a ∧ w.CountsAs b ∧ Combines o a b result := by
  simp only [compute?_eq, Value.arithmetic?, ← Value.number?_eq_some_iff, ← combine_eq_iff]
  cases v.number? <;> cases w.number? <;> simp

theorem Combines.swap (h : Combines o a b (.integer r)) : Combines o b a (.integer r) := by
  cases h with
  | exact h =>
    refine .exact (h.trans ?_)
    cases o with
    | add => exact Int.add_comm ..
    | multiply => exact Int.mul_comm ..

theorem compute?_swap (h : o.compute? v w = some (.integer r)) :
    o.compute? w v = some (.integer r) := by
  obtain ⟨a, b, ha, hb, hcombines⟩ := compute?_eq_some_iff.mp h
  exact compute?_eq_some_iff.mpr ⟨b, a, hb, ha, hcombines.swap⟩

/-- The text of a whole number stands for that number. -/
theorem number?_text (n : Int64) :
    (Value.string (Value.integer n).text).number? = (Value.integer n).number? :=
  Number.ofText?_text n

/-- Two values have a sum and a product exactly where both stand for numbers: the exact whole number if both
are whole and it fits in 64 bits, and otherwise a float. A whole result stays what it is when the operands
are exchanged, and any result when a whole operand is replaced by its text. -/
theorem compute_promotes (o : ArithmeticOperation) (v w : Value) :
    (o.compute? v w = none ↔ (∀ a, ¬v.CountsAs a) ∨ ∀ b, ¬w.CountsAs b) ∧
    (∀ result, o.compute? v w = some result ↔
      ∃ a b, v.CountsAs a ∧ w.CountsAs b ∧ Combines o a b result) ∧
    (∀ r : Int64, o.compute? v w = some (.integer r) ↔ o.compute? w v = some (.integer r)) ∧
    ∀ n : Int64,
      o.compute? (.string (Value.integer n).text) w = o.compute? (.integer n) w ∧
      o.compute? v (.string (Value.integer n).text) = o.compute? v (.integer n) := by
  refine ⟨compute?_eq_none_iff, fun result => compute?_eq_some_iff, fun r => ?_, fun n => ?_⟩
  · exact ⟨compute?_swap, compute?_swap⟩
  · simp only [compute?_eq, Value.arithmetic?, number?_text]
    trivial

end ArithmeticOperation

end StyleTemplate
