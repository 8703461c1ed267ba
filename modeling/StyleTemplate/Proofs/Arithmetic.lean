import StyleTemplate.Filter.Builtin
import StyleTemplate.Proofs.Printing

/-! Chains of additions and multiplications on a whole number. As long as what they come to on the way
fits in 64 bits, the chain is computed exactly, whether the number and the operands are numbers or
numerals (`compile_arithmetic`). Past the limit of spans something follows the result
(`compile_arithmetic_at_limit`). -/

namespace StyleTemplate

open Text (byteSize trim)
open Grammar (NameChar)

/-! ### Whole numbers and their numerals -/

namespace Decimal

/-- The whole numbers that there are words of 64 bits for. -/
def Fits (n : Int) : Prop := -0x8000000000000000 ≤ n ∧ n < 0x8000000000000000

instance (n : Int) : Decidable (Fits n) := inferInstanceAs (Decidable (_ ∧ _))

theorem toInt64?_of_fits {n : Int} (h : Fits n) : ∃ m, toInt64? n = some m ∧ m.toInt = n :=
  ⟨Int64.ofInt n, if_pos h, Int64.toInt_ofInt_of_le h.1 h.2⟩

theorem toInt64?_eq_none_iff {n : Int} : toInt64? n = none ↔ ¬Fits n := by
  constructor
  · intro h hfits
    obtain ⟨m, hm, -⟩ := toInt64?_of_fits hfits
    rw [h] at hm
    exact nomatch hm
  · exact fun h => if_neg h

theorem splitPoint?_of_isDigits {cs : List Char} (h : isDigits cs) : splitPoint? cs = none := by
  replace h := isDigit_of_isDigits h
  induction cs with
  | nil => rfl
  | cons c cs ih =>
    obtain ⟨hc, hcs⟩ := List.forall_mem_cons.mp h
    rw [splitPoint?, if_neg (ne_point_of_isDigit hc), ih hcs, Option.map_none]

end Decimal

/-- The numeral of a whole number stands for that number. -/
theorem Number.ofText?_text (n : Int64) :
    Number.ofText? (toString n.toInt).toList = some (.integer n) := by
  have htrim : trim (toString n.toInt).toList = (toString n.toInt).toList := by
    have hnone : ∀ c ∈ ([] : List Char), Text.isBlank c := fun c hc => nomatch hc
    simpa [Literal.spelled, Literal.text] using Literal.trim_spelled (.integer n) hnone hnone
  rw [Number.ofText?, htrim, Decimal.splitSign_text]
  simp only [Decimal.splitPoint?_of_isDigits (Decimal.isDigits_toDigits _),
    Decimal.isDigits_toDigits, Decimal.signed_text, if_true, Decimal.toInt64?_toInt]

namespace Value

/-- A whole number as a value: itself, or its numeral. -/
def StandsFor (v : Value) (n : Int64) : Prop := v = .integer n ∨ v = .string (toString n.toInt)

variable {v w : Value} {m n : Int64}

theorem StandsFor.number? (h : v.StandsFor n) : v.number? = some (.integer n) := by
  rcases h with rfl | rfl
  · rfl
  · exact Number.ofText?_text n

theorem StandsFor.render? (h : v.StandsFor n) : v.render? = some (toString n.toInt) := by
  rcases h with rfl | rfl
  · rfl
  · rfl

theorem StandsFor.not_undefined (h : v.StandsFor n) : v.isUndefined = false := by
  rcases h with rfl | rfl
  · rfl
  · rfl

/-- Two whole numbers are combined exactly when the result fits. -/
theorem StandsFor.arithmetic? {exact : Int → Int → Int} (approximate : Float → Float → Float)
    (hv : v.StandsFor m) (hw : w.StandsFor n) (hfits : Decimal.Fits (exact m.toInt n.toInt)) :
    ∃ r, Value.arithmetic? exact approximate v w = some (.integer r) ∧
      r.toInt = exact m.toInt n.toInt := by
  obtain ⟨r, hr, hexact⟩ := Decimal.toInt64?_of_fits hfits
  refine ⟨r, ?_, hexact⟩
  simp only [Value.arithmetic?, hv.number?, hw.number?, combine, hr]

end Value

/-! ### Chains of operations -/

inductive ArithmeticOperation where
  | add | multiply
deriving DecidableEq, Repr

namespace ArithmeticOperation

/-- The filter that carries out the operation. -/
def name : ArithmeticOperation → String
  | add => "add"
  | multiply => "multiply"

/-- The operation on whole numbers without bounds. -/
def exact : ArithmeticOperation → Int → Int → Int
  | add => (· + ·)
  | multiply => (· * ·)

/-- The operation on floats. -/
def approximate : ArithmeticOperation → Float → Float → Float
  | add => (· + ·)
  | multiply => (· * ·)

theorem get?_builtins (o : ArithmeticOperation) :
    Filter.builtins.get? o.name =
      some (Filter.arithmetic (Value.arithmetic? o.exact o.approximate)) := by
  cases o with
  | add => rfl
  | multiply => rfl

end ArithmeticOperation

/-- An operation with its operand, which may stand in quotes. -/
structure ArithmeticStep where
  operation : ArithmeticOperation
  operand : Int64
  quoted : Bool
deriving DecidableEq

namespace ArithmeticStep

def numeral (s : ArithmeticStep) : String := toString s.operand.toInt

/-- The step as a filter call. -/
def text (s : ArithmeticStep) : String :=
  "|" ++ s.operation.name ++ "(" ++
    (if s.quoted then "'" ++ s.numeral ++ "'" else s.numeral) ++ ")"

def exact (s : ArithmeticStep) (n : Int) : Int := s.operation.exact n s.operand.toInt

/-- What steps make of a number when nothing is out of range. -/
def total (n : Int) (steps : List ArithmeticStep) : Int := steps.foldl (fun n s => s.exact n) n

/-- The operand as it is read. -/
def literal (s : ArithmeticStep) : Literal :=
  if s.quoted then .string s.numeral else .integer s.operand

theorem literal_spellable (s : ArithmeticStep) : s.literal.Spellable := by
  unfold literal
  split
  · have hname (c : Char) (hc : c ∈ s.numeral.toList) : isNameChar c :=
      Decimal.isNameChar_of_mem_text hc
    refine .string (fun hquote => absurd (hname _ hquote) (by decide)) fun c hc => ?_
    rintro (rfl | rfl)
    · exact absurd (hname _ hc) (by decide)
    · exact absurd (hname _ hc) (by decide)
  · exact .integer _

theorem ofLiteral_standsFor (s : ArithmeticStep) :
    (Value.ofLiteral s.literal).StandsFor s.operand := by
  unfold literal
  split
  · exact .inr rfl
  · exact .inl rfl

theorem name_chars (s : ArithmeticStep) : ∀ c ∈ s.operation.name.toList, NameChar c := by
  cases s.operation with
  | add => simp [ArithmeticOperation.name, NameChar]
  | multiply => simp [ArithmeticOperation.name, NameChar]

theorem name_ne_nil (s : ArithmeticStep) : s.operation.name.toList ≠ [] := by
  cases s.operation with
  | add => decide
  | multiply => decide

theorem unpadded : ∀ c ∈ ([] ++ [] : List Char), c = ' ' ∨ c = '\t' := by simp

def spelling (s : ArithmeticStep) : CallSpelling where
  name := s.operation.name.toList
  args := some [⟨[], s.literal, [], unpadded, s.literal_spellable⟩]
  nonempty := s.name_ne_nil
  chars := s.name_chars

theorem written_spelling (s : ArithmeticStep) : s.spelling.text.written = s.text.toList := by
  simp only [spelling, CallSpelling.text, CallText.written, Option.map_some,
    CallSpelling.writtenArgs, List.map_cons, List.map_nil, List.intercalate_singleton,
    ArgumentSpelling.written, List.nil_append, List.append_nil, literal, text]
  split
  · simp [Literal.spelled]
  · simp [Literal.spelled, Literal.text, numeral]

/-- A step is written in ASCII without a `$`. -/
theorem ascii_text (s : ArithmeticStep) : ∀ c ∈ s.text.toList, c.toNat < 0x80 ∧ c ≠ '$' := by
  have hoperation : ∀ c ∈ s.operation.name.toList, c.toNat < 0x80 ∧ c ≠ '$' :=
    fun c hc => (s.name_chars c hc).ascii
  have hnumeral : ∀ c ∈ s.numeral.toList, c.toNat < 0x80 ∧ c ≠ '$' := fun c hc =>
    (Grammar.isNameChar_iff.mp (Decimal.isNameChar_of_mem_text hc)).ascii
  have hoperand : ∀ c ∈ (if s.quoted then "'" ++ s.numeral ++ "'" else s.numeral).toList,
      c.toNat < 0x80 ∧ c ≠ '$' := by
    intro c hc
    split at hc
    · simp only [String.toList_append, List.mem_append] at hc
      rcases hc with (hc | hc) | hc
      · obtain rfl := List.mem_singleton.mp hc
        decide
      · exact hnumeral c hc
      · obtain rfl := List.mem_singleton.mp hc
        decide
    · exact hnumeral c hc
  intro c hc
  simp only [text, String.toList_append, List.mem_append] at hc
  rcases hc with (((hc | hc) | hc) | hc) | hc
  · obtain rfl := List.mem_singleton.mp hc
    decide
  · exact hoperation c hc
  · obtain rfl := List.mem_singleton.mp hc
    decide
  · exact hoperand c hc
  · obtain rfl := List.mem_singleton.mp hc
    decide

/-- One step on a value: the exact number, as long as it fits, and nothing reported. -/
theorem apply {s : ArithmeticStep} {call : FilterCall} (hname : call.name = s.operation.name)
    (hargs : call.args = [s.literal]) {v : Value} {n : Int64} (hv : v.StandsFor n)
    (hfits : Decimal.Fits (s.exact n.toInt)) :
    ∃ r : Int64, call.apply Filter.builtins v = ⟨.integer r, []⟩ ∧ r.toInt = s.exact n.toInt := by
  obtain ⟨r, hr, hexact⟩ :=
    hv.arithmetic? s.operation.approximate s.ofLiteral_standsFor hfits
  refine ⟨r, ?_, hexact⟩
  unfold FilterCall.apply
  rw [hname, hargs, s.operation.get?_builtins]
  simp only [Filter.arithmetic, requiredArgument, List.map_cons, List.map_nil,
    List.getElem?_cons_zero, hr]

/-- A whole chain, wherever its calls stand. -/
theorem applyAll {steps : List ArithmeticStep} (start : Nat) {v : Value} {n : Int64}
    (hv : v.StandsFor n)
    (hfits : ∀ front, front <+: steps → Decimal.Fits (total n.toInt front)) :
    ∃ (w : Value) (r : Int64), FilterCall.applyAll Filter.builtins v
        (CallText.locateAll start (steps.map fun s => s.spelling.text)) = ⟨w, []⟩ ∧
      w.StandsFor r ∧ r.toInt = total n.toInt steps := by
  induction steps generalizing start v n with
  | nil => exact ⟨v, n, rfl, hv, rfl⟩
  | cons s steps ih =>
    obtain ⟨hname, hargs⟩ := s.spelling.locate_text start
    rw [show String.ofList s.spelling.name = s.operation.name from String.ofList_toList] at hname
    obtain ⟨r, hr, hexact⟩ := apply hname hargs hv (hfits [s] (List.prefix_append [s] steps))
    -- what comes after the first step begins where that step has led to
    obtain ⟨w, q, hq, hw, htotal⟩ :=
      ih (start + byteSize s.spelling.text.written) (v := .integer r) (n := r) (.inl rfl)
        fun front hfront => by
          have := hfits (s :: front) (List.cons_prefix_cons.mpr ⟨rfl, hfront⟩)
          rwa [total, List.foldl_cons, ← hexact] at this
    refine ⟨w, q, ?_, hw, by rw [htotal, hexact]; rfl⟩
    rw [List.map_cons, CallText.locateAll, FilterCall.applyAll, hr, hq]
    rfl

end ArithmeticStep

/-! ### Placeholders with such chains -/

open ArithmeticStep (total)

/-- The source that is one placeholder: a variable, and steps as its filter calls. -/
def arithmeticSource (name : String) (steps : List ArithmeticStep) : String :=
  "$" ++ name ++ String.join (steps.map (·.text))

private def arithmeticSpelling (name : String) (hne : name ≠ "")
    (hname : ∀ c ∈ name.toList, NameChar c) (steps : List ArithmeticStep) : PlaceholderSpelling where
  name := name.toList
  subscripts := []
  calls := steps.map (·.spelling)
  nonempty := by simpa using hne
  chars := hname
  admissible := by simp

private theorem toList_arithmeticSource (name : String) (steps : List ArithmeticStep) :
    (arithmeticSource name steps).toList =
      '$' :: (name.toList ++ steps.flatMap (·.text.toList)) := by
  have hcalls : (String.join (steps.map (·.text))).toList = steps.flatMap (·.text.toList) := by
    induction steps with
    | nil => rfl
    | cons s steps ih =>
      rw [List.map_cons, String.join_cons, String.toList_append, ih, List.flatMap_cons]
  simp [arithmeticSource, hcalls]

private theorem written_arithmeticSpelling {name : String} (hne : name ≠ "")
    (hname : ∀ c ∈ name.toList, NameChar c) (steps : List ArithmeticStep) :
    (arithmeticSpelling name hne hname steps).written = (arithmeticSource name steps).toList := by
  rw [toList_arithmeticSource]
  simp [arithmeticSpelling, PlaceholderSpelling.written, PlaceholderSpelling.text,
    PlaceholderText.written, PlaceholderText.writtenPath, List.flatMap_map,
    ArithmeticStep.written_spelling]

/-- A placeholder with such a chain is filled in with the exact number, and nothing is reported. -/
private theorem evaluate_arithmetic {p : Placeholder} {resolver : Resolver} {v w : Value}
    {start r : Int64} (hresolver : resolver p.name p.subscripts = .ok v) (hv : v.StandsFor start)
    (hchain : FilterCall.applyAll Filter.builtins v p.filters = ⟨w, []⟩) (hw : w.StandsFor r) :
    p.evaluate resolver Filter.builtins = ⟨toString r.toInt, []⟩ := by
  have hinitial : p.initial resolver = v := by rw [Placeholder.initial, hresolver]
  have hvariable : p.variableProblems resolver Filter.builtins = [] := by
    simp [Placeholder.variableProblems, Placeholder.missing, hresolver, hv.not_undefined]
  rw [Placeholder.evaluate_eq, Placeholder.chain, hinitial, hchain, hvariable]
  simp [Value.text, Placeholder.valueProblems, hw.render?]

/-- A placeholder with such a chain is the first thing a scan finds, and is filled in with the exact
number. -/
private theorem evaluate_arithmeticSpelling {name : String} (hne : name ≠ "")
    (hname : ∀ c ∈ name.toList, NameChar c) {v : Value} {start : Int64} (hv : v.StandsFor start)
    {steps : List ArithmeticStep}
    (hfits : ∀ front, front <+: steps → Decimal.Fits (total start.toInt front))
    {resolver : Resolver} (hresolver : resolver name [] = .ok v) :
    ((arithmeticSpelling name hne hname steps).text.locate 0).evaluate resolver Filter.builtins =
      ⟨toString (total start.toInt steps), []⟩ := by
  obtain ⟨w, r, hchain, hw, hr⟩ := ArithmeticStep.applyAll
    (0 + 1 + byteSize (arithmeticSpelling name hne hname steps).text.writtenPath) hv hfits
  rw [← hr]
  refine evaluate_arithmetic (v := v) (w := w) ?_ hv ?_ hw
  · exact (congrArg (resolver · []) String.ofList_toList).trans hresolver
  · rw [← hchain, PlaceholderText.locate, PlaceholderSpelling.text]
    simp only [arithmeticSpelling, List.map_map, Function.comp_def]

/-- Such a placeholder is written in ASCII, with no `$` but the first. -/
private theorem ascii_arithmeticSpelling {name : String} (hne : name ≠ "")
    (hname : ∀ c ∈ name.toList, NameChar c) (steps : List ArithmeticStep) :
    (∀ c ∈ (arithmeticSpelling name hne hname steps).written, c.toNat < 0x80) ∧
      ∀ c ∈ (arithmeticSpelling name hne hname steps).written.tail, c ≠ '$' := by
  have htail : ∀ c ∈ name.toList ++ steps.flatMap (·.text.toList), c.toNat < 0x80 ∧ c ≠ '$' := by
    intro c hc
    rcases List.mem_append.mp hc with hc | hc
    · exact (hname c hc).ascii
    · obtain ⟨s, -, hc⟩ := List.mem_flatMap.mp hc
      exact s.ascii_text c hc
  rw [written_arithmeticSpelling, toList_arithmeticSource]
  refine ⟨List.forall_mem_cons.mpr ⟨by decide, fun c hc => ?_⟩, fun c hc => ?_⟩
  · exact (htail c hc).1
  · exact (htail c hc).2

/-- A variable with a whole number, or with its numeral, that passes through additions and
multiplications: the placeholder is the first thing a scan finds, and the exact result takes its
place, as long as every result on the way fits in 64 bits. The source compiles to that result and what is
behind the limit of spans, so to the result alone exactly when it ends by the limit. -/
theorem compile_arithmetic {name : String} (hne : name ≠ "")
    (hname : ∀ c ∈ name.toList, NameChar c) {v : Value} {start : Int64} (hv : v.StandsFor start)
    {steps : List ArithmeticStep}
    (hfits : ∀ front, front <+: steps → Decimal.Fits (total start.toInt front))
    {resolver : Resolver} (hresolver : resolver name [] = .ok v) :
    (∃ p, (segmentsOf (arithmeticSource name steps).toList).head? = some (.placeholder p) ∧
        p.evaluate resolver Filter.builtins = ⟨toString (total start.toInt steps), []⟩) ∧
      compile (arithmeticSource name steps) resolver Filter.builtins =
        ⟨toString (total start.toInt steps) ++
          String.ofList ((arithmeticSource name steps).toList.drop Span.limit), []⟩ ∧
      (compile (arithmeticSource name steps) resolver Filter.builtins =
          ⟨toString (total start.toInt steps), []⟩ ↔
        byteSize (arithmeticSource name steps).toList ≤ Span.limit) := by
  let spelling := arithmeticSpelling name hne hname steps
  have hwritten : spelling.written = (arithmeticSource name steps).toList :=
    written_arithmeticSpelling hne hname steps
  have hevaluate := evaluate_arithmeticSpelling hne hname hv hfits hresolver
  obtain ⟨hascii, hsigil⟩ := ascii_arithmeticSpelling hne hname steps
  have hcompile := spelling.compile_written hascii hsigil resolver Filter.builtins
  rw [hevaluate, hwritten, String.ofList_toList] at hcompile
  refine ⟨⟨spelling.text.locate 0, ?_, hevaluate⟩, hcompile, ?_⟩
  · have hends : Grammar.Ends [] := fun c hc => nomatch hc
    rw [← hwritten, ← List.append_nil spelling.written]
    exact spelling.head?_segmentsOf_written hends
  · have hlength : byteSize (arithmeticSource name steps).toList =
        (arithmeticSource name steps).toList.length :=
      hwritten ▸ Text.byteSize_eq_length hascii
    rw [hcompile, hlength]
    simp

private def extremeSteps : List ArithmeticStep :=
  [⟨.add, 9223372036854775807, false⟩, ⟨.multiply, -9223372036854775807, true⟩,
    ⟨.add, -9223372036854775807, true⟩]

/-- From one end of the range to the other and back to zero, the variable being a numeral. -/
theorem compile_arithmetic_extremes :
    (Value.string "-9223372036854775808").StandsFor (-9223372036854775808) ∧
      (∀ front, front <+: extremeSteps →
        Decimal.Fits (total (-9223372036854775808 : Int64).toInt front)) ∧
      compile ("$x-1|add(9223372036854775807)|multiply('-9223372036854775807')" ++
          "|add('-9223372036854775807')")
        (.ofValue (.ofPairs [("x-1", .string "-9223372036854775808")])) Filter.builtins =
          ⟨"0", []⟩ := by
  have hstart : (Value.string "-9223372036854775808").StandsFor (-9223372036854775808) :=
    .inr (congrArg Value.string (by decide))
  have hfits : ∀ front ∈ extremeSteps.inits,
      Decimal.Fits (total (-9223372036854775808 : Int64).toInt front) := by decide
  have hprefix (front : List ArithmeticStep) (h : front <+: extremeSteps) :=
    hfits front ((List.mem_inits _ _).mpr h)
  have hname : ∀ c ∈ "x-1".toList, NameChar c := by simp [NameChar]
  have hresolver : Resolver.ofValue (.ofPairs [("x-1", .string "-9223372036854775808")]) "x-1" [] =
      .ok (.string "-9223372036854775808") := rfl
  obtain ⟨-, -, hexact⟩ := compile_arithmetic (by decide) hname hstart hprefix hresolver
  exact ⟨hstart, hprefix, hexact.mpr (by decide)⟩

/-- A name of as many letters as spans have bytes, in front of which the `$` is one byte too much. -/
private def longestName : String := String.ofList (List.replicate Span.limit 'a')

private theorem longestName_chars : ∀ c ∈ longestName.toList, NameChar c := by
  intro c hc
  rw [longestName, String.toList_ofList] at hc
  rw [List.eq_of_mem_replicate hc]
  simp [NameChar]

private theorem longestName_ne : longestName ≠ "" := by
  intro hempty
  have hlength := congrArg (·.toList.length) hempty
  simp only [longestName, String.toList_ofList, List.length_replicate] at hlength
  exact absurd hlength (by decide)

private theorem drop_replicate_self {n : Nat} (h : 0 < n) :
    ('$' :: List.replicate n 'a').drop n = ['a'] := by
  obtain ⟨n, rfl⟩ := Nat.exists_eq_succ_of_ne_zero (Nat.ne_of_gt h)
  rw [List.drop_succ_cons, List.drop_replicate, Nat.succ_eq_add_one, Nat.add_sub_cancel_left]
  rfl

private theorem drop_longestName : ('$' :: longestName.toList).drop Span.limit = ['a'] := by
  rw [longestName, String.toList_ofList]
  exact drop_replicate_self (by decide)

private theorem ofValue_ofPairs (name : String) (v : Value) :
    Resolver.ofValue (.ofPairs [(name, v)]) name [] = .ok v := by
  simp [Resolver.ofValue, Value.ofPairs, Entries.ofList, Entries.insert, Entries.update,
    Entries.get?, Value.traverse]

/-- The last letter of such a name is read again as text behind the result. -/
theorem compile_arithmetic_at_limit :
    longestName ≠ "" ∧ (∀ c ∈ longestName.toList, NameChar c) ∧ (Value.integer 5).StandsFor 5 ∧
      compile (arithmeticSource longestName [])
        (.ofValue (.ofPairs [(longestName, .integer 5)])) Filter.builtins = ⟨"5a", []⟩ := by
  have hfive : (Value.integer 5).StandsFor 5 := .inl rfl
  have hfits : ∀ front, front <+: [] → Decimal.Fits (total (5 : Int64).toInt front) := by
    intro front hfront
    rw [List.prefix_nil.mp hfront]
    decide
  obtain ⟨hascii, hsigil⟩ := ascii_arithmeticSpelling longestName_ne longestName_chars []
  have hcompile := PlaceholderSpelling.compile_written _ hascii hsigil
    (.ofValue (.ofPairs [(longestName, .integer 5)])) Filter.builtins
  rw [evaluate_arithmeticSpelling longestName_ne longestName_chars hfive hfits
      (ofValue_ofPairs longestName (.integer 5)),
    written_arithmeticSpelling, String.ofList_toList, toList_arithmeticSource, List.flatMap_nil,
    List.append_nil, drop_longestName] at hcompile
  exact ⟨longestName_ne, longestName_chars, hfive, hcompile⟩

end StyleTemplate
