import StyleTemplate.Proofs.Literals
import StyleTemplate.Proofs.Traversal

/-! What raw texts denote as literals: whole numbers in range, truth values, decimals and text in single
quotes are told by their form, and everything else is text (`Literal.ofText_by_form`). -/

namespace StyleTemplate

/-! ### Numerals -/

namespace Decimal

/-- One or more decimal digits. -/
def Digits (cs : List Char) : Prop := ∃ n, Numeral cs n

/-- Digits with a minus sign or without, and the number that they denote. -/
inductive Whole : List Char → Int → Prop
  | unsigned {cs : List Char} {n : Nat} (h : Numeral cs n) : Whole cs n
  | negative {cs : List Char} {n : Nat} (h : Numeral cs n) : Whole ('-' :: cs) (-n)

/-- Digits on both sides of a point, with a minus sign or without, and the float nearest to what they
denote. -/
inductive Pointed : Bool → List Char → Float → Prop
  | unsigned {whole fraction : List Char} (hwhole : Digits whole) (hfraction : Digits fraction) :
    Pointed false (whole ++ '.' :: fraction) (floatOf false whole fraction)
  | negative {whole fraction : List Char} (hwhole : Digits whole) (hfraction : Digits fraction) :
    Pointed true ('-' :: (whole ++ '.' :: fraction)) (floatOf true whole fraction)

variable {cs whole fraction : List Char} {n : Int} {x : Float}

theorem digits_iff : Digits cs ↔ isDigits cs :=
  ⟨fun ⟨_, h⟩ => (Value.numeral_iff.mp h).1, fun h => ⟨_, Value.numeral_iff.mpr ⟨h, rfl⟩⟩⟩

theorem whole_iff :
    Whole cs n ↔ isDigits (splitSign cs).2 ∧ signed (splitSign cs).1 (splitSign cs).2 = n := by
  constructor
  · rintro (h | h)
    · obtain ⟨hdigits, hvalue⟩ := Value.numeral_iff.mp h
      rw [splitSign_of_isDigits hdigits]
      exact ⟨hdigits, congrArg Int.ofNat hvalue⟩
    · obtain ⟨hdigits, hvalue⟩ := Value.numeral_iff.mp h
      exact ⟨hdigits, congrArg (fun n : Nat => -(n : Int)) hvalue⟩
  · unfold splitSign
    split
    · rintro ⟨hdigits, rfl⟩
      exact .negative (Value.numeral_iff.mpr ⟨hdigits, rfl⟩)
    · rintro ⟨hdigits, rfl⟩
      exact .unsigned (Value.numeral_iff.mpr ⟨hdigits, rfl⟩)

theorem toInt64?_eq_some_iff {m : Int64} : toInt64? n = some m ↔ n = m.toInt := by
  constructor
  · intro h
    unfold toInt64? at h
    split at h
    · rename_i hfits
      rw [← Option.some.inj h, Int64.toInt_ofInt_of_le hfits.1 hfits.2]
    · exact nomatch h
  · rintro rfl
    exact toInt64?_toInt m

theorem eq_of_splitPoint? (h : splitPoint? cs = some (whole, fraction)) :
    cs = whole ++ '.' :: fraction := by
  induction cs generalizing whole with
  | nil => exact nomatch h
  | cons c cs ih =>
    rw [splitPoint?] at h
    split at h
    · rename_i hc
      simp only [Option.some.injEq, Prod.mk.injEq] at h
      obtain ⟨rfl, rfl⟩ := h
      rw [hc, List.nil_append]
    · obtain ⟨⟨before, after⟩, hrest, hpair⟩ := Option.map_eq_some_iff.mp h
      simp only [Prod.mk.injEq] at hpair
      obtain ⟨rfl, rfl⟩ := hpair
      rw [ih hrest, List.cons_append]

/-- Behind digits the first point is found. -/
theorem splitPoint?_append (h : ∀ c ∈ whole, c.isDigit) (fraction : List Char) :
    splitPoint? (whole ++ '.' :: fraction) = some (whole, fraction) := by
  induction whole with
  | nil => rfl
  | cons c whole ih =>
    obtain ⟨hc, hwhole⟩ := List.forall_mem_cons.mp h
    rw [List.cons_append, splitPoint?, if_neg (ne_point_of_isDigit hc), ih hwhole, Option.map_some]

/-- The characters of numerals. -/
def NumeralChar (c : Char) : Prop := c = '-' ∨ c = '.' ∨ c.isDigit

instance (c : Char) : Decidable (NumeralChar c) := inferInstanceAs (Decidable (_ ∨ _ ∨ _))

theorem Digits.chars (h : Digits cs) : ∀ c ∈ cs, NumeralChar c := fun c hc =>
  .inr (.inr (isDigit_of_isDigits (digits_iff.mp h) c hc))

theorem Whole.chars (h : Whole cs n) : ∀ c ∈ cs, NumeralChar c := by
  rcases h with h | h
  · exact Digits.chars ⟨_, h⟩
  · exact List.forall_mem_cons.mpr ⟨.inl rfl, Digits.chars ⟨_, h⟩⟩

theorem Pointed.chars {negative : Bool} (h : Pointed negative cs x) : ∀ c ∈ cs, NumeralChar c := by
  have hparts {whole fraction : List Char} (hwhole : Digits whole) (hfraction : Digits fraction) :
      ∀ c ∈ whole ++ '.' :: fraction, NumeralChar c :=
    List.forall_mem_append.mpr
      ⟨hwhole.chars, List.forall_mem_cons.mpr ⟨.inr (.inl rfl), hfraction.chars⟩⟩
  rcases h with ⟨hwhole, hfraction⟩ | ⟨hwhole, hfraction⟩
  · exact hparts hwhole hfraction
  · exact List.forall_mem_cons.mpr ⟨.inl rfl, hparts hwhole hfraction⟩

/-- A whole number has no point. -/
theorem Whole.not_pointed (h : Whole cs n) {negative : Bool} : ¬Pointed negative cs x := by
  have hdigits {cs : List Char} {n : Nat} (h : Numeral cs n) : '.' ∉ cs := fun hpoint =>
    absurd (h.digits '.' hpoint) (by decide)
  have hnone : '.' ∉ cs := by
    rcases h with h | h
    · exact hdigits h
    · simpa using hdigits h
  rintro (_ | _)
  · exact hnone (by simp)
  · exact hnone (by simp)

end Decimal

/-! ### Literals by their form -/

namespace Literal

open Decimal (Whole Pointed)

variable {cs inner : List Char} {raw : String} {l : Literal} {n : Int64} {x : Float}

theorem unquote?_eq_some_iff : unquote? cs = some inner ↔ cs = '\'' :: (inner ++ ['\'']) := by
  constructor
  · intro h
    unfold unquote? at h
    split at h
    · split at h
      · rename_i hlast
        obtain ⟨front, rfl⟩ := List.getLast?_eq_some_iff.mp hlast
        rw [← Option.some.inj h, List.dropLast_concat]
      · exact nomatch h
    · exact nomatch h
  · rintro rfl
    exact unquote?_quoted inner

theorem integer?_eq_some_iff : integer? cs = some n ↔ Whole cs n.toInt := by
  rw [Decimal.whole_iff, integer?]
  obtain ⟨negative, digits⟩ := Decimal.splitSign cs
  by_cases hdigits : Decimal.isDigits digits
  · simp only [hdigits, if_true, true_and]
    exact Decimal.toInt64?_eq_some_iff
  · simp only [hdigits, Bool.false_eq_true, if_false, false_and, reduceCtorEq]

theorem float?_eq_some_iff : float? cs = some x ↔ Pointed false cs x := by
  constructor
  · intro h
    unfold float? at h
    split at h
    · rename_i whole fraction hpoint
      split at h
      · rename_i hdigits
        obtain ⟨hwhole, hfraction⟩ := Bool.and_eq_true_iff.mp hdigits
        rw [Decimal.eq_of_splitPoint? hpoint, ← Option.some.inj h]
        exact .unsigned (Decimal.digits_iff.mpr hwhole) (Decimal.digits_iff.mpr hfraction)
      · exact nomatch h
    · exact nomatch h
  · rintro ⟨hwhole, hfraction⟩
    rw [Decimal.digits_iff] at hwhole hfraction
    rw [float?, Decimal.splitPoint?_append (Decimal.isDigit_of_isDigits hwhole)]
    simp only [hwhole, hfraction, Bool.and_self, if_true]

/-- Nothing tells that a text is anything but text. -/
structure Bare (raw : String) : Prop where
  unquoted : ∀ inner, raw ≠ "'" ++ inner ++ "'"
  noWord : ∀ b, raw ≠ (boolean b).text
  noWhole : ∀ n : Int64, ¬Whole raw.toList n.toInt
  noPoint : ∀ x, ¬Pointed false raw.toList x

/-- What a raw text denotes. A whole number has to be in range; one that is not is text. -/
inductive Denotes (raw : String) : Literal → Prop
  | quoted {inner : String} (h : raw = "'" ++ inner ++ "'") : Denotes raw (.string inner)
  | word {b : Bool} (h : raw = (boolean b).text) : Denotes raw (.boolean b)
  | whole {n : Int64} (h : Whole raw.toList n.toInt) : Denotes raw (.integer n)
  | pointed {x : Float} (h : Pointed false raw.toList x) : Denotes raw (.float x)
  | bare (h : Bare raw) : Denotes raw (.string raw)

theorem exists_denotes (raw : String) : ∃ l, Denotes raw l := by
  by_cases hquoted : ∃ inner, raw = "'" ++ inner ++ "'"
  · obtain ⟨inner, h⟩ := hquoted
    exact ⟨_, .quoted h⟩
  by_cases hword : ∃ b, raw = (boolean b).text
  · obtain ⟨b, h⟩ := hword
    exact ⟨_, .word h⟩
  by_cases hwhole : ∃ n : Int64, Whole raw.toList n.toInt
  · obtain ⟨n, h⟩ := hwhole
    exact ⟨_, .whole h⟩
  by_cases hpoint : ∃ x, Pointed false raw.toList x
  · obtain ⟨x, h⟩ := hpoint
    exact ⟨_, .pointed h⟩
  · exact ⟨_, .bare ⟨not_exists.mp hquoted, not_exists.mp hword, not_exists.mp hwhole,
      not_exists.mp hpoint⟩⟩

/-- Text without quotes around it that is no truth value is looked at as a number. -/
theorem ofText_of_unquoted (hquote : unquote? raw.toList = none) (hword : ∀ b, raw ≠ (boolean b).text) :
    ofText raw = match integer? raw.toList, float? raw.toList with
      | some n, _ => integer n
      | none, some x => float x
      | none, none => string raw := by
  have htrue : raw ≠ "true" := hword true
  have hfalse : raw ≠ "false" := hword false
  simp only [ofText, hquote, htrue, hfalse, if_false]
  cases integer? raw.toList with
  | some n => rfl
  | none => cases float? raw.toList <;> rfl

theorem unquote?_of_numeral (h : ∀ c ∈ cs, Decimal.NumeralChar c) : unquote? cs = none := by
  refine Option.eq_none_iff_forall_not_mem.mpr fun inner hinner => ?_
  rw [unquote?_eq_some_iff.mp hinner] at h
  exact absurd (h '\'' List.mem_cons_self) (by decide)

theorem noWord_of_numeral (h : ∀ c ∈ raw.toList, Decimal.NumeralChar c) (b : Bool) :
    raw ≠ (boolean b).text := by
  rintro rfl
  cases b
  · exact absurd (h 'f' (by decide)) (by decide)
  · exact absurd (h 't' (by decide)) (by decide)

theorem Denotes.ofText_eq (h : Denotes raw l) : ofText raw = l := by
  cases h with
  | @quoted inner h =>
    have hraw : raw = String.ofList ('\'' :: (inner.toList ++ ['\''])) := by
      rw [h, ← String.toList_inj]
      simp
    rw [hraw, ofText_quoted]
  | @word b h =>
    rw [h]
    cases b <;> rfl
  | whole h => exact ofText_of_integer? (integer?_eq_some_iff.mpr h)
  | pointed h =>
    have hinteger : integer? raw.toList = none :=
      Option.eq_none_iff_forall_not_mem.mpr fun n hn => (integer?_eq_some_iff.mp hn).not_pointed h
    rw [ofText_of_unquoted (unquote?_of_numeral h.chars) (noWord_of_numeral h.chars),
      float?_eq_some_iff.mpr h, hinteger]
  | bare h =>
    have hquote : unquote? raw.toList = none := by
      refine Option.eq_none_iff_forall_not_mem.mpr fun inner hinner => ?_
      refine h.unquoted (String.ofList inner) (String.toList_inj.mp ?_)
      simpa using unquote?_eq_some_iff.mp hinner
    have hinteger : integer? raw.toList = none :=
      Option.eq_none_iff_forall_not_mem.mpr fun n hn => h.noWhole n (integer?_eq_some_iff.mp hn)
    have hfloat : float? raw.toList = none :=
      Option.eq_none_iff_forall_not_mem.mpr fun x hx => h.noPoint x (float?_eq_some_iff.mp hx)
    rw [ofText_of_unquoted hquote h.noWord, hinteger, hfloat]

theorem ofText_eq_iff : ofText raw = l ↔ Denotes raw l := by
  refine ⟨fun h => ?_, Denotes.ofText_eq⟩
  obtain ⟨l', h'⟩ := exists_denotes raw
  rwa [← h, h'.ofText_eq]

theorem ofText_eq_integer_iff : ofText raw = .integer n ↔ Whole raw.toList n.toInt := by
  rw [ofText_eq_iff]
  refine ⟨fun h => ?_, .whole⟩
  cases h with
  | whole h => exact h

theorem ofText_eq_boolean_iff {b : Bool} : ofText raw = .boolean b ↔ raw = (boolean b).text := by
  rw [ofText_eq_iff]
  refine ⟨fun h => ?_, .word⟩
  cases h with
  | word h => exact h

theorem ofText_eq_float_iff : ofText raw = .float x ↔ Pointed false raw.toList x := by
  rw [ofText_eq_iff]
  refine ⟨fun h => ?_, .pointed⟩
  cases h with
  | pointed h => exact h

theorem ofText_eq_string_iff {s : String} :
    ofText raw = .string s ↔ raw = "'" ++ s ++ "'" ∨ Bare raw ∧ s = raw := by
  rw [ofText_eq_iff]
  constructor
  · intro h
    cases h with
    | quoted h => exact .inl h
    | bare h => exact .inr ⟨h, rfl⟩
  · rintro (h | ⟨h, rfl⟩)
    · exact .quoted h
    · exact .bare h

/-- What a raw text denotes is told by its form: it is a whole number exactly where it is one in range, a
truth value exactly where it is such a word, a decimal exactly where it is digits on both sides of a
point, and otherwise text, without the outer quotes if there is a pair. Whole numbers are read back from
their text, and any text from quotes around it. -/
theorem ofText_by_form (raw : String) :
    (∀ n, ofText raw = .integer n ↔ Whole raw.toList n.toInt) ∧
    (∀ b, ofText raw = .boolean b ↔ raw = if b then "true" else "false") ∧
    (∀ x, ofText raw = .float x ↔ Pointed false raw.toList x) ∧
    (∀ s, ofText raw = .string s ↔ raw = "'" ++ s ++ "'" ∨ Bare raw ∧ s = raw) ∧
    (∀ n : Int64, ofText (integer n).text = .integer n) ∧
    ∀ s, ofText ("'" ++ s ++ "'") = .string s :=
  ⟨fun _ => ofText_eq_integer_iff, fun _ => ofText_eq_boolean_iff, fun _ => ofText_eq_float_iff,
    fun _ => ofText_eq_string_iff,
    fun n => ofText_eq_integer_iff.mpr (integer?_eq_some_iff.mp (integer?_text n)),
    fun _ => ofText_eq_string_iff.mpr (.inl rfl)⟩

end Literal

end StyleTemplate
