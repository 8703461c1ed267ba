import Mathlib.Data.List.TakeWhile
import StyleTemplate.Proofs.Grammar.Readers

/-! Literals as they are spelled: whole numbers in decimal digits, truth values as words, text in
single quotes. A spelled literal is read back (`Literal.ofText_spelled`), also with blanks around
it (`Literal.trim_spelled`). -/

namespace StyleTemplate

namespace Text

private theorem dropWhile_before {p : Char → Bool} {before cs : List Char}
    (hbefore : ∀ c ∈ before, p c) (hcs : ∀ c ∈ cs.head?, ¬p c) :
    (before ++ cs).dropWhile p = cs := by
  rw [List.dropWhile_append_of_pos hbefore]
  cases cs with
  | nil => rfl
  | cons c cs => rw [List.dropWhile_cons_of_neg (hcs c rfl)]

/-- From blanks around text without blanks at its ends the text is left. -/
theorem trim_surrounded {before cs after : List Char} (hbefore : ∀ c ∈ before, isBlank c)
    (hafter : ∀ c ∈ after, isBlank c) (hne : cs ≠ []) (hfirst : ∀ c ∈ cs.head?, ¬isBlank c)
    (hlast : ∀ c ∈ cs.getLast?, ¬isBlank c) : trim (before ++ cs ++ after) = cs := by
  have hhead : ∀ c ∈ (cs ++ after).head?, ¬isBlank c := by
    cases cs with
    | nil => exact (hne rfl).elim
    | cons c cs => exact hfirst
  have hend : (after.reverse ++ cs.reverse).dropWhile isBlank = cs.reverse :=
    dropWhile_before (fun c hc => hafter c (List.mem_reverse.mp hc)) (by simpa using hlast)
  rw [List.append_assoc, trim, dropWhile_before hbefore hhead, trimEnd, List.reverse_append, hend,
    List.reverse_reverse]

theorem trim_eq_self {cs : List Char} (hfirst : ∀ c ∈ cs.head?, ¬isBlank c)
    (hlast : ∀ c ∈ cs.getLast?, ¬isBlank c) : trim cs = cs := by
  by_cases hne : cs = []
  · rw [hne, trim_nil]
  · have hnone : ∀ c ∈ ([] : List Char), isBlank c := fun c hc => nomatch hc
    simpa using trim_surrounded hnone hnone hne hfirst hlast

/-- What is not blank stays. -/
theorem mem_trim {cs : List Char} {c : Char} (h : c ∈ cs) (hc : ¬isBlank c) : c ∈ trim cs := by
  have hdrop {cs : List Char} (h : c ∈ cs) : c ∈ cs.dropWhile isBlank := by
    rw [← List.takeWhile_append_dropWhile (p := isBlank) (l := cs)] at h
    exact (List.mem_append.mp h).resolve_left fun h => hc (List.mem_takeWhile_imp h)
  rw [trim, trimEnd, List.mem_reverse]
  exact hdrop (List.mem_reverse.mpr (hdrop h))

theorem trim_eq_nil_iff {cs : List Char} : trim cs = [] ↔ ∀ c ∈ cs, isBlank c := by
  constructor
  · intro h c hc
    by_contra hblank
    exact List.ne_nil_of_mem (mem_trim hc hblank) h
  · intro h
    rw [trim, trimEnd, List.reverse_eq_nil_iff, List.dropWhile_eq_nil_iff]
    intro c hc
    exact h c ((List.dropWhile_suffix _).subset (List.mem_reverse.mp hc))

end Text

/-! ### Decimal digits -/

namespace Decimal

theorem valueOf_toDigits (n : Nat) : valueOf (Nat.toDigits 10 n) = n :=
  Nat.ofDigitChars_toDigits (by decide) (by decide)

theorem isDigit_of_mem_toDigits {n : Nat} {c : Char} (h : c ∈ Nat.toDigits 10 n) : c.isDigit :=
  Nat.isDigit_of_mem_toDigits (by decide) (by decide) h

theorem isDigits_toDigits (n : Nat) : isDigits (Nat.toDigits 10 n) := by
  have hne : Nat.toDigits 10 n ≠ [] := Nat.toDigits_ne_nil
  simp only [isDigits, Bool.and_eq_true, List.all_eq_true]
  exact ⟨by simp [hne], fun c hc => isDigit_of_mem_toDigits hc⟩

theorem isDigit_of_isDigits {cs : List Char} (h : isDigits cs) : ∀ c ∈ cs, c.isDigit := by
  simp only [isDigits, Bool.and_eq_true, List.all_eq_true] at h
  exact h.2

theorem ne_point_of_isDigit {c : Char} (h : c.isDigit) : c ≠ '.' := by
  rintro rfl
  exact absurd h (by decide)

/-- Digits have no sign in front of them. -/
theorem splitSign_append {cs : List Char} (h : isDigits cs) (rest : List Char) :
    splitSign (cs ++ rest) = (false, cs ++ rest) := by
  cases cs with
  | nil => exact nomatch h
  | cons c cs =>
    rw [List.cons_append]
    unfold splitSign
    split
    · rename_i hminus
      obtain ⟨rfl, -⟩ := List.cons.inj hminus
      exact absurd (isDigit_of_isDigits h '-' List.mem_cons_self) (by decide)
    · rfl

theorem splitSign_of_isDigits {cs : List Char} (h : isDigits cs) : splitSign cs = (false, cs) := by
  simpa using splitSign_append h []

/-- The text of a whole number is its sign and the digits of its amount. -/
theorem splitSign_text (n : Int) :
    splitSign (toString n).toList = (decide (n < 0), Nat.toDigits 10 n.natAbs) := by
  rw [Int.toString_eq_repr, Int.repr_eq_if]
  split
  · have hamount : n.toNat = n.natAbs := by omega
    rw [Nat.toList_repr, splitSign_of_isDigits (isDigits_toDigits _), hamount,
      decide_eq_false (by omega)]
  · have hamount : (-n).toNat = n.natAbs := by omega
    rw [String.toList_append, Nat.toList_repr, hamount, decide_eq_true (by omega)]
    rfl

theorem signed_text (n : Int) : signed (decide (n < 0)) (Nat.toDigits 10 n.natAbs) = n := by
  rw [signed, valueOf_toDigits]
  split
  · rename_i h
    have := of_decide_eq_true h
    omega
  · rename_i h
    have : ¬n < 0 := by simpa using h
    omega

theorem toInt64?_toInt (n : Int64) : toInt64? n.toInt = some n := by
  have hlower := n.le_toInt
  have hupper := n.toInt_lt
  rw [toInt64?, if_pos (by omega), Int64.ofInt_toInt]

theorem isNameChar_of_mem_text {n : Int} {c : Char} (h : c ∈ (toString n).toList) :
    isNameChar c := by
  have hdigit : ∀ m : Nat, c ∈ Nat.toDigits 10 m → isNameChar c := fun m hc => by
    simp [isNameChar, Char.isAlphanum, isDigit_of_mem_toDigits hc]
  rw [Int.toString_eq_repr, Int.repr_eq_if] at h
  split at h
  · rw [Nat.toList_repr] at h
    exact hdigit _ h
  · rw [String.toList_append, Nat.toList_repr] at h
    rcases List.mem_append.mp h with h | h
    · obtain rfl : c = '-' := List.mem_singleton.mp h
      rfl
    · exact hdigit _ h

end Decimal

/-! ### Spelled literals -/

namespace Literal

open Text (isBlank trim)

/-- The literals that can be spelled: every whole number and truth value, and text of one line
without single quotes. -/
inductive Spellable : Literal → Prop where
  | integer (n : Int64) : Spellable (.integer n)
  | boolean (b : Bool) : Spellable (.boolean b)
  | string {s : String} (quote : '\'' ∉ s.toList) (line : ∀ c ∈ s.toList, ¬Grammar.LineBreak c) :
      Spellable (.string s)

/-- Text in single quotes, and any other literal as it prints. -/
def spelled : Literal → List Char
  | string s => '\'' :: (s.toList ++ ['\''])
  | l => l.text.toList

theorem integer?_text (n : Int64) : integer? (toString n.toInt).toList = some n := by
  rw [integer?, Decimal.splitSign_text]
  simp only [Decimal.isDigits_toDigits, Decimal.signed_text, if_true, Decimal.toInt64?_toInt]

theorem unquote?_quoted (cs : List Char) : unquote? ('\'' :: (cs ++ ['\''])) = some cs := by
  simp [unquote?]

theorem ofText_quoted (s : String) :
    ofText (String.ofList ('\'' :: (s.toList ++ ['\'']))) = .string s := by
  simp only [ofText, String.toList_ofList, unquote?_quoted, String.ofList_toList]

/-- A text that is a whole number is neither quoted nor a truth value. -/
theorem ofText_of_integer? {raw : String} {n : Int64} (h : integer? raw.toList = some n) :
    ofText raw = .integer n := by
  have hquote : unquote? raw.toList = none := by
    unfold unquote?
    split
    · rename_i hraw
      rw [hraw] at h
      exact nomatch h
    · rfl
  have htrue : raw ≠ "true" := by
    rintro rfl
    exact nomatch h
  have hfalse : raw ≠ "false" := by
    rintro rfl
    exact nomatch h
  simp only [ofText, hquote, htrue, hfalse, if_false, h]

theorem ofText_spelled {l : Literal} (h : l.Spellable) : ofText (String.ofList l.spelled) = l := by
  cases h with
  | integer n =>
    refine ofText_of_integer? ?_
    rw [String.toList_ofList]
    exact integer?_text n
  | boolean b => cases b <;> rfl
  | string => exact ofText_quoted _

theorem spelled_ne_nil {l : Literal} (h : l.Spellable) : l.spelled ≠ [] := by
  intro hnil
  cases h with
  | integer n =>
    have := integer?_text n
    simp only [spelled, text] at hnil
    rw [hnil] at this
    exact nomatch this
  | boolean b => cases b <;> exact nomatch hnil
  | string => exact nomatch hnil

/-- Apart from quoted text a spelled literal is a word. -/
theorem isNameChar_of_mem_spelled {l : Literal} (h : l.Spellable) (hstring : ∀ s, l ≠ .string s) :
    ∀ c ∈ l.spelled, isNameChar c := by
  intro c hc
  cases h with
  | integer n => exact Decimal.isNameChar_of_mem_text hc
  | boolean b =>
    have hall : (spelled (.boolean b)).all isNameChar := by cases b <;> rfl
    exact List.all_eq_true.mp hall c hc
  | string => exact (hstring _ rfl).elim

theorem not_isBlank_of_isNameChar {c : Char} (h : isNameChar c) : ¬isBlank c := by
  have hname : (65 ≤ c.toNat ∧ c.toNat ≤ 90) ∨ (97 ≤ c.toNat ∧ c.toNat ≤ 122) ∨
      (48 ≤ c.toNat ∧ c.toNat ≤ 57) ∨ c.toNat = 95 ∨ c.toNat = 45 := by
    rcases Grammar.isNameChar_iff.mp h with h | h | h | rfl | rfl
    · exact .inl h
    · exact .inr (.inl h)
    · exact .inr (.inr (.inl h))
    · simp
    · simp
  simp only [isBlank, Bool.or_eq_true, Bool.and_eq_true, decide_eq_true_eq, beq_iff_eq]
  omega

theorem not_isBlank_of_spelled {l : Literal} (h : l.Spellable) :
    (∀ c ∈ l.spelled.head?, ¬isBlank c) ∧ ∀ c ∈ l.spelled.getLast?, ¬isBlank c := by
  by_cases hstring : ∃ s, l = .string s
  · obtain ⟨s, rfl⟩ := hstring
    have hquote : ¬isBlank '\'' := by decide
    refine ⟨by simpa [spelled] using hquote, ?_⟩
    rw [spelled, ← List.cons_append, List.getLast?_concat]
    simpa using hquote
  · have hword := isNameChar_of_mem_spelled h fun s hs => hstring ⟨s, hs⟩
    exact ⟨fun c hc => not_isBlank_of_isNameChar (hword c (List.mem_of_mem_head? hc)),
      fun c hc => not_isBlank_of_isNameChar (hword c (List.mem_of_mem_getLast? hc))⟩

theorem trim_spelled {l : Literal} (h : l.Spellable) {before after : List Char}
    (hbefore : ∀ c ∈ before, isBlank c) (hafter : ∀ c ∈ after, isBlank c) :
    trim (before ++ l.spelled ++ after) = l.spelled :=
  have hends := not_isBlank_of_spelled h
  Text.trim_surrounded hbefore hafter (spelled_ne_nil h) hends.1 hends.2

end Literal

end StyleTemplate
