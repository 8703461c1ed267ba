import StyleTemplate.Proofs.Arithmetic
import StyleTemplate.Proofs.Literals.Denotation

/-! Numerals as literals and as text. A literal that is a number has the number that its text stands for,
and a text that stands for a number is the same number as a literal, apart from the numerals that stay
text (`Literal.number_agrees`). So an operand counts the same with quotes and without. -/

namespace StyleTemplate

open Decimal (Whole Pointed Fits Digits NumeralChar)
open Text (isBlank trim)

variable {cs : List Char} {number : Number}

/-! ### Numerals have no blanks -/

theorem Decimal.not_isBlank_of_numeralChar {c : Char} (h : NumeralChar c) : ¬isBlank c := by
  rcases h with rfl | rfl | h
  · decide
  · decide
  · refine Literal.not_isBlank_of_isNameChar ?_
    simp [isNameChar, Char.isAlphanum, h]

theorem Text.trim_of_numeral (h : ∀ c ∈ cs, NumeralChar c) : trim cs = cs :=
  Text.trim_eq_self
    (fun c hc => Decimal.not_isBlank_of_numeralChar (h c (List.mem_of_mem_head? hc)))
    (fun c hc => Decimal.not_isBlank_of_numeralChar (h c (List.mem_of_mem_getLast? hc)))

/-! ### What numerals stand for -/

namespace Decimal

theorem pointed_iff {negative : Bool} {x : Float} :
    Pointed negative cs x ↔ (splitSign cs).1 = negative ∧ ∃ whole fraction,
      splitPoint? (splitSign cs).2 = some (whole, fraction) ∧ Digits whole ∧ Digits fraction ∧
        floatOf negative whole fraction = x := by
  constructor
  · rintro (⟨hwhole, hfraction⟩ | ⟨hwhole, hfraction⟩)
    · rw [splitSign_append (digits_iff.mp hwhole)]
      exact ⟨rfl, _, _, splitPoint?_append (isDigit_of_isDigits (digits_iff.mp hwhole)) _, hwhole,
        hfraction, rfl⟩
    · exact ⟨rfl, _, _, splitPoint?_append (isDigit_of_isDigits (digits_iff.mp hwhole)) _, hwhole,
        hfraction, rfl⟩
  · unfold splitSign
    split
    · rintro ⟨rfl, whole, fraction, hpoint, hwhole, hfraction, rfl⟩
      obtain rfl := eq_of_splitPoint? hpoint
      exact .negative hwhole hfraction
    · rintro ⟨rfl, whole, fraction, hpoint, hwhole, hfraction, rfl⟩
      obtain rfl := eq_of_splitPoint? hpoint
      exact .unsigned hwhole hfraction

theorem Whole.unique {m n : Int} (h : Whole cs m) (h' : Whole cs n) : m = n :=
  (whole_iff.mp h).2.symm.trans (whole_iff.mp h').2

theorem Pointed.sign_unique {sign sign' : Bool} {x y : Float} (h : Pointed sign cs x)
    (h' : Pointed sign' cs y) : sign = sign' :=
  (pointed_iff.mp h).1.symm.trans (pointed_iff.mp h').1

/-- A whole number out of range is not zero, so it has the sign that is written. -/
theorem floatOf_of_not_fits {negative : Bool} {digits : List Char} (h : ¬Fits (signed negative digits)) :
    floatOf negative digits [] =
      toFloat (signed negative digits < 0) (signed negative digits).natAbs 0 := by
  have hamount : (signed negative digits).natAbs = valueOf digits := by
    unfold signed
    split <;> omega
  have hsign : decide (signed negative digits < 0) = negative := by
    unfold Fits signed at *
    cases negative
    · simp
    · simp at *
      omega
  rw [floatOf, hamount, hsign, List.append_nil]
  rfl

end Decimal

namespace Number

/-- The number that a numeral stands for: a whole number, as a float if it is out of range, or the float
of a decimal. -/
inductive Reads : List Char → Number → Prop
  | whole {cs : List Char} {n : Int64} (h : Whole cs n.toInt) : Reads cs (.integer n)
  | large {cs : List Char} {n : Int} (h : Whole cs n) (hn : ¬Fits n) :
    Reads cs (.float (Decimal.toFloat (n < 0) n.natAbs 0))
  | pointed {cs : List Char} {negative : Bool} {x : Float} (h : Pointed negative cs x) :
    Reads cs (.float x)

theorem reads_of_ofText? (h : ofText? cs = some number) : Reads (trim cs) number := by
  rw [ofText?] at h
  generalize trim cs = numeral at h ⊢
  rcases hs : Decimal.splitSign numeral with ⟨negative, digits⟩
  simp only [hs] at h
  split at h
  · split at h
    · rename_i hdigits
      have hwhole : Whole numeral (Decimal.signed negative digits) :=
        Decimal.whole_iff.mpr (by rw [hs]; exact ⟨hdigits, rfl⟩)
      split at h
      · rename_i n hn
        rw [Decimal.toInt64?_eq_some_iff.mp hn] at hwhole
        rw [← Option.some.inj h]
        exact .whole hwhole
      · rename_i hnone
        have hlarge := Decimal.toInt64?_eq_none_iff.mp hnone
        rw [← Option.some.inj h, Decimal.floatOf_of_not_fits hlarge]
        exact .large hwhole hlarge
    · cases h
  · rename_i whole fraction hpoint
    split at h
    · rename_i hdigits
      obtain ⟨hwhole, hfraction⟩ := Bool.and_eq_true_iff.mp hdigits
      have hpointed : Pointed negative numeral (Decimal.floatOf negative whole fraction) := by
        rw [Decimal.pointed_iff, hs]
        exact ⟨rfl, whole, fraction, hpoint, Decimal.digits_iff.mpr hwhole,
          Decimal.digits_iff.mpr hfraction, rfl⟩
      rw [← Option.some.inj h]
      exact .pointed hpointed
    · cases h

theorem ofText?_of_reads (h : Reads (trim cs) number) : ofText? cs = some number := by
  rw [ofText?]
  generalize trim cs = numeral at h ⊢
  rcases hs : Decimal.splitSign numeral with ⟨negative, digits⟩
  have hwhole {n : Int} (h : Whole numeral n) :
      Decimal.isDigits digits ∧ Decimal.signed negative digits = n := by
    rwa [Decimal.whole_iff, hs] at h
  cases h with
  | whole h =>
    obtain ⟨hdigits, hvalue⟩ := hwhole h
    simp only [Decimal.splitPoint?_of_isDigits hdigits, hdigits, if_true, hvalue,
      Decimal.toInt64?_toInt]
  | large h hn =>
    obtain ⟨hdigits, rfl⟩ := hwhole h
    simp only [Decimal.splitPoint?_of_isDigits hdigits, hdigits, if_true,
      Decimal.toInt64?_eq_none_iff.mpr hn, Decimal.floatOf_of_not_fits hn]
  | pointed h =>
    rw [Decimal.pointed_iff, hs] at h
    obtain ⟨rfl, whole, fraction, hpoint, hw, hf, rfl⟩ := h
    rw [Decimal.digits_iff] at hw hf
    simp only [hpoint, hw, hf, Bool.and_self, if_true]

theorem ofText?_eq_some_iff : ofText? cs = some number ↔ Reads (trim cs) number :=
  ⟨reads_of_ofText?, ofText?_of_reads⟩

/-- A number as a literal. -/
def literal : Number → Literal
  | integer n => .integer n
  | float x => .float x

theorem Reads.chars (h : Reads cs number) : ∀ c ∈ cs, NumeralChar c := by
  cases h with
  | whole h => exact h.chars
  | large h => exact h.chars
  | pointed h => exact h.chars

end Number

/-! ### Numerals as literals -/

namespace Literal

open Number (Reads)

/-- Numerals that are text as literals: with a blank at one of their ends, with both a minus sign and a
point, or whole and out of range. -/
inductive StaysText (cs : List Char) : Prop
  | padded {c : Char} (h : cs.head? = some c ∨ cs.getLast? = some c) (hblank : isBlank c)
  | negative {x : Float} (h : Pointed true cs x)
  | large {n : Int} (h : Whole cs n) (hn : ¬Fits n)

variable {raw : String}

theorem StaysText.eq_of_numeral (h : StaysText cs) (hchars : ∀ c ∈ cs, NumeralChar c) :
    (∃ x, Pointed true cs x) ∨ ∃ n, Whole cs n ∧ ¬Fits n := by
  cases h with
  | padded h hblank =>
    have hmem := h.elim List.mem_of_head? List.mem_of_getLast?
    exact (Decimal.not_isBlank_of_numeralChar (hchars _ hmem) hblank).elim
  | negative h => exact .inl ⟨_, h⟩
  | large h hn => exact .inr ⟨_, h, hn⟩

theorem not_staysText_of_whole {n : Int64} (h : Whole cs n.toInt) : ¬StaysText cs := fun hstays => by
  rcases hstays.eq_of_numeral h.chars with ⟨x, hpoint⟩ | ⟨m, hm, hlarge⟩
  · exact h.not_pointed hpoint
  · rw [← h.unique hm] at hlarge
    exact hlarge ⟨n.le_toInt, n.toInt_lt⟩

theorem not_staysText_of_pointed {x : Float} (h : Pointed false cs x) : ¬StaysText cs := fun hstays => by
  rcases hstays.eq_of_numeral h.chars with ⟨y, hpoint⟩ | ⟨m, hm, -⟩
  · exact Bool.false_ne_true (h.sign_unique hpoint)
  · exact hm.not_pointed h

theorem trim_of_not_staysText (h : ¬StaysText cs) : trim cs = cs :=
  Text.trim_eq_self (fun _ hc hblank => h (.padded (.inl hc) hblank))
    fun _ hc hblank => h (.padded (.inr hc) hblank)

/-- A numeral that does not stay text is the number that it stands for. -/
theorem ofText_of_reads (h : Reads (trim raw.toList) number) (hstays : ¬StaysText raw.toList) :
    ofText raw = number.literal := by
  rw [trim_of_not_staysText hstays] at h
  cases h with
  | whole h => exact ofText_eq_integer_iff.mpr h
  | large h hn => exact (hstays (.large h hn)).elim
  | @pointed negative _ h =>
    cases negative
    · exact ofText_eq_float_iff.mpr h
    · exact (hstays (.negative h)).elim

theorem ofText_eq_literal_iff :
    ofText raw = number.literal ↔
      (Value.string raw).number? = some number ∧ ¬StaysText raw.toList := by
  change _ ↔ Number.ofText? raw.toList = some number ∧ _
  rw [Number.ofText?_eq_some_iff]
  refine ⟨fun h => ?_, fun h => ofText_of_reads h.1 h.2⟩
  cases number with
  | integer n =>
    have hwhole := ofText_eq_integer_iff.mp h
    rw [Text.trim_of_numeral hwhole.chars]
    exact ⟨.whole hwhole, not_staysText_of_whole hwhole⟩
  | float x =>
    have hpoint := ofText_eq_float_iff.mp h
    rw [Text.trim_of_numeral hpoint.chars]
    exact ⟨.pointed hpoint, not_staysText_of_pointed hpoint⟩

theorem ofText_of_staysText (h : Reads (trim raw.toList) number) (hstays : StaysText raw.toList) :
    ofText raw = .string raw := by
  -- apart from the blanks around a numeral there is no room for quotes or letters
  have hchar {c : Char} (hmem : c ∈ raw.toList) (hblank : ¬isBlank c) : NumeralChar c :=
    h.chars c (Text.mem_trim hmem hblank)
  refine ofText_eq_string_iff.mpr (.inr ⟨⟨?_, ?_, ?_, ?_⟩, rfl⟩)
  · rintro inner rfl
    exact absurd (hchar (c := '\'') (by simp) (by decide)) (by decide)
  · rintro b rfl
    cases b
    · exact absurd (hchar (c := 'f') (by decide) (by decide)) (by decide)
    · exact absurd (hchar (c := 't') (by decide) (by decide)) (by decide)
  · exact fun n hwhole => not_staysText_of_whole hwhole hstays
  · exact fun x hpoint => not_staysText_of_pointed hpoint hstays

end Literal

/-! ### Operands with quotes and without -/

namespace Value

/-- An operand as it is written. -/
def ofBare (raw : String) : Value := ofLiteral (Literal.ofText raw)

/-- An operand that is written in single quotes. -/
def ofQuoted (raw : String) : Value := ofLiteral (Literal.ofText ("'" ++ raw ++ "'"))

variable {raw : String}

theorem ofQuoted_eq (raw : String) : ofQuoted raw = string raw :=
  congrArg ofLiteral (Literal.ofText_eq_string_iff.mpr (.inl rfl))

/-- Without quotes a numeral is the number that it stands for, or else the same as with them. -/
theorem ofBare_of_number? (h : (string raw).number? = some number) :
    ofBare raw = ofNumber number ∨ ofBare raw = ofQuoted raw := by
  rw [ofQuoted_eq, ofBare]
  by_cases hstays : Literal.StaysText raw.toList
  · rw [Literal.ofText_of_staysText (Number.reads_of_ofText? h) hstays]
    exact .inr rfl
  · rw [Literal.ofText_eq_literal_iff.mpr ⟨h, hstays⟩]
    cases number
    · exact .inl rfl
    · exact .inl rfl

theorem number?_ofBare (h : (string raw).isNumeric) : (ofBare raw).number? = (ofQuoted raw).number? := by
  obtain ⟨number, hnumber⟩ := Option.isSome_iff_exists.mp h
  rcases ofBare_of_number? hnumber with hbare | hbare
  · rw [hbare, ofQuoted_eq, hnumber]
    cases number
    · rfl
    · rfl
  · rw [hbare]

end Value

namespace Filter

variable {a b : Value}

theorem arithmetic_congr (exact : Int → Int → Int) (approximate : Float → Float → Float)
    (h : a.number? = b.number?) (hb : b.isNumeric) (v : Value) (rest : List Value) :
    arithmetic (Value.arithmetic? exact approximate) v (a :: rest) =
      arithmetic (Value.arithmetic? exact approximate) v (b :: rest) := by
  obtain ⟨number, hnumber⟩ := Option.isSome_iff_exists.mp hb
  rw [hnumber] at h
  cases hv : v.number? with
  | none =>
    simp only [arithmetic, requiredArgument, List.getElem?_cons_zero, Value.arithmetic?,
      Value.isNumeric, hv, Option.isSome_none, Bool.false_eq_true, if_false]
  | some other =>
    simp only [arithmetic, requiredArgument, List.getElem?_cons_zero, Value.arithmetic?, hv, h,
      hnumber]

theorem round_congr {n : Int64} (ha : a.toInteger? = some n) (hb : b.toInteger? = some n) (v : Value)
    (rest : List Value) : round v (a :: rest) = round v (b :: rest) := by
  simp only [round, ha, hb]

/-- A whole number gives the same precision with quotes and without. -/
theorem round_ofBare {raw : String} {n : Int} (h : Whole (Text.trim raw.toList) n) (v : Value)
    (rest : List Value) :
    round v (Value.ofBare raw :: rest) = round v (Value.ofQuoted raw :: rest) := by
  by_cases hfits : Fits n
  · obtain ⟨m, -, rfl⟩ := Decimal.toInt64?_of_fits hfits
    have hnumber : (Value.string raw).number? = some (.integer m) := Number.ofText?_of_reads (.whole h)
    have hnumeric : (Value.string raw).isNumeric := by
      rw [Value.isNumeric, hnumber]
      rfl
    have hbare := Value.number?_ofBare hnumeric
    rw [Value.ofQuoted_eq] at hbare ⊢
    have hquoted : (Value.string raw).toInteger? = some m := by rw [Value.toInteger?, hnumber]
    exact round_congr (by rw [Value.toInteger?, hbare, hnumber]) hquoted v rest
  · have hstays : Literal.StaysText raw.toList := by
      by_contra hstays
      rw [Literal.trim_of_not_staysText hstays] at h
      exact hstays (.large h hfits)
    rw [Value.ofQuoted_eq, Value.ofBare, Literal.ofText_of_staysText (.large h hfits) hstays]
    rfl

end Filter

/-- A literal is a number exactly where its text stands for that number, the numerals that stay text
apart. So additions, multiplications and roundings come to the same with a numeral in quotes and
without. -/
theorem Literal.number_agrees (raw : String) :
    (∀ number : Number, ofText raw = number.literal ↔
      (Value.string raw).number? = some number ∧ ¬StaysText raw.toList) ∧
    ((Value.string raw).isNumeric → ∀ v rest,
      Filter.add v (.ofBare raw :: rest) = Filter.add v (.ofQuoted raw :: rest) ∧
      Filter.multiply v (.ofBare raw :: rest) = Filter.multiply v (.ofQuoted raw :: rest)) ∧
    ((∃ n, Whole (trim raw.toList) n) → ∀ v rest,
      Filter.round v (.ofBare raw :: rest) = Filter.round v (.ofQuoted raw :: rest)) := by
  refine ⟨fun _ => ofText_eq_literal_iff, fun h v rest => ?_, fun ⟨n, h⟩ => Filter.round_ofBare h⟩
  have hnumber := Value.number?_ofBare h
  rw [← Value.ofQuoted_eq] at h
  exact ⟨Filter.arithmetic_congr _ _ hnumber h v rest, Filter.arithmetic_congr _ _ hnumber h v rest⟩

/-- A numeral with a sign and zeros in front. -/
theorem Literal.number_agrees_zeros :
    (ofText "-007" = (Number.integer (-7)).literal ∧
      (Value.string "-007").number? = some (.integer (-7)) ∧ ¬StaysText "-007".toList) ∧
    ((Value.string "-007").isNumeric ∧ ∀ v,
      Filter.add v [.ofBare "-007"] = Filter.add v [.ofQuoted "-007"] ∧
      Filter.multiply v [.ofBare "-007"] = Filter.multiply v [.ofQuoted "-007"]) ∧
    (Whole (trim "-007".toList) (-7) ∧ ∀ v,
      Filter.round v [.ofBare "-007"] = Filter.round v [.ofQuoted "-007"]) := by
  obtain ⟨hliteral, harithmetic, hround⟩ := number_agrees "-007"
  have hread : ofText "-007" = (Number.integer (-7)).literal := by rfl
  have hnumeric : (Value.string "-007").isNumeric := by decide
  have hwhole : Whole (trim "-007".toList) (-7) := Decimal.whole_iff.mpr (by decide)
  exact ⟨⟨hread, (hliteral (.integer (-7))).mp hread⟩,
    ⟨hnumeric, fun v => harithmetic hnumeric v []⟩, ⟨hwhole, fun v => hround ⟨-7, hwhole⟩ v []⟩⟩

end StyleTemplate
