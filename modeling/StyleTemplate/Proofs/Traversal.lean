import StyleTemplate.Value

/-! Subscripts followed into a value. The rules are said for any reading of keys as positions
(`Value.Traverses`): by them a path has one outcome. What is computed follows them for the keys that
are read as words of 64 bits, which may have a plus sign; and so it follows them for decimal numerals of
any size exactly where no sequence on the way meets a key that the two readings take differently
(`Value.traverse_agrees_iff`). -/

namespace StyleTemplate

/-- Decimal digits, one or more, and the number that they denote. -/
structure Decimal.Numeral (cs : List Char) (n : Nat) : Prop where
  nonempty : cs ≠ []
  digits : ∀ c ∈ cs, '0' ≤ c ∧ c ≤ '9'
  value : Decimal.valueOf cs = n

namespace Value

/-- A key that is a decimal numeral, and its number. -/
def NumeralPosition (key : String) (n : Nat) : Prop := Decimal.Numeral key.toList n

/-- A key that is a decimal numeral, with a plus sign or without, and its number, if that is a word of
64 bits. -/
def WordPosition (key : String) (n : Nat) : Prop :=
  n ≤ Decimal.maxWord ∧ (Decimal.Numeral key.toList n ∨
    ∃ digits, key.toList = '+' :: digits ∧ Decimal.Numeral digits n)

/-- A key that denotes a position in one of these readings only: a number that is no word, or a word
with a plus sign. -/
inductive Misread (key : String) : Prop
  | large {n : Nat} (h : Decimal.Numeral key.toList n) (hn : Decimal.maxWord < n)
  | signed {digits : List Char} {n : Nat} (hkey : key.toList = '+' :: digits)
    (h : Decimal.Numeral digits n) (hn : n ≤ Decimal.maxWord)

section Rules

variable (position : String → Nat → Prop)

/-- What a subscript leads to. What is missing is undefined, and so is everything below the undefined
value. -/
inductive Below : Value → String → Value → Prop
  | undefined (key : String) : Below .undefined key .undefined
  | entry {entries : Entries none} {key : String} {v : Value} (h : entries.get? key = some v) :
    Below (.mapping entries) key v
  | noEntry {entries : Entries none} {key : String} (h : entries.get? key = none) :
    Below (.mapping entries) key .undefined
  | item {items : List Value} {key : String} {n : Nat} {v : Value} (hkey : position key n)
    (h : items[n]? = some v) : Below (.sequence items) key v
  | pastEnd {items : List Value} {key : String} {n : Nat} (hkey : position key n)
    (h : items.length ≤ n) : Below (.sequence items) key .undefined

/-- A subscript that leads nowhere: on a scalar, or on a sequence with a key that is no position. -/
inductive Refuses : Value → String → Prop
  | scalar {v : Value} {key : String} (h : v.kind ∉ [.undefined, .sequence, .mapping]) :
    Refuses v key
  | noPosition {items : List Value} {key : String} (h : ∀ n, ¬position key n) :
    Refuses (.sequence items) key

/-- The outcome of a path: the value at its end, or the first key that leads nowhere with the kind of
the value that it was applied to. -/
inductive Traverses : Value → List String → Except TraversalError Value → Prop
  | done (v : Value) : Traverses v [] (.ok v)
  | step {v w : Value} {key : String} {path : List String}
    {outcome : Except TraversalError Value} (h : Below position v key w)
    (rest : Traverses w path outcome) : Traverses v (key :: path) outcome
  | refused {v : Value} {key : String} {path : List String} (h : Refuses position v key) :
    Traverses v (key :: path) (.error ⟨key, v.kind⟩)

end Rules

variable {position other : String → Nat → Prop} {v w : Value} {key : String} {path : List String}
  {outcome : Except TraversalError Value}

theorem below_mapping_iff {entries : Entries none} :
    Below position (.mapping entries) key w ↔ w = (entries.get? key).getD .undefined := by
  constructor
  · rintro (_ | h | h)
    · rw [h, Option.getD_some]
    · rw [h, Option.getD_none]
  · rintro rfl
    cases h : entries.get? key with
    | none => exact .noEntry h
    | some v => exact .entry h

theorem below_sequence_iff {items : List Value} :
    Below position (.sequence items) key w ↔
      ∃ n, position key n ∧ w = items[n]?.getD .undefined := by
  constructor
  · rintro (_ | _ | _ | ⟨hkey, h⟩ | ⟨hkey, h⟩)
    · exact ⟨_, hkey, by rw [h, Option.getD_some]⟩
    · exact ⟨_, hkey, by rw [List.getElem?_eq_none h, Option.getD_none]⟩
  · rintro ⟨n, hkey, rfl⟩
    cases h : items[n]? with
    | none => exact .pastEnd hkey (List.getElem?_eq_none_iff.mp h)
    | some v => exact .item hkey h

theorem refuses_sequence_iff {items : List Value} :
    Refuses position (.sequence items) key ↔ ∀ n, ¬position key n := by
  refine ⟨fun h => ?_, .noPosition⟩
  cases h with
  | scalar h => exact absurd h (by simp [kind])
  | noPosition h => exact h

theorem Below.not_refuses (h : Below position v key w) : ¬Refuses position v key := by
  rintro (hkind | hnone)
  · cases h <;> exact hkind (by simp [kind])
  · obtain ⟨n, hkey, -⟩ := below_sequence_iff.mp h
    exact hnone n hkey

/-- A subscript leads to one value, by any two readings that agree on the keys that both of them
read. -/
theorem Below.unique (hposition : ∀ key m n, position key m → other key n → m = n)
    (h : Below position v key w) {w' : Value} (h' : Below other v key w') : w = w' := by
  cases v with
  | undefined =>
    cases h
    cases h'
    rfl
  | mapping entries => rw [below_mapping_iff.mp h, below_mapping_iff.mp h']
  | sequence items =>
    obtain ⟨m, hm, rfl⟩ := below_sequence_iff.mp h
    obtain ⟨n, hn, rfl⟩ := below_sequence_iff.mp h'
    rw [hposition key m n hm hn]
  | _ => exact nomatch h

/-- A sequence refuses only keys that are no positions. -/
theorem Traverses.not_position {e : TraversalError} (h : Traverses position v path (.error e))
    (hkind : e.kind = .sequence) (n : Nat) : ¬position e.key n := by
  generalize houtcome : Except.error e = outcome at h
  induction h with
  | done v => exact nomatch houtcome
  | step _ _ ih => exact ih houtcome
  | @refused v _ _ h =>
    obtain rfl := Except.error.inj houtcome
    cases h with
    | scalar h =>
      have hsequence : v.kind = .sequence := hkind
      exact absurd (by simp [hsequence]) h
    | noPosition h => exact h n

/-- A sequence that leads on to an error about a key does not refuse that key in another reading. -/
theorem Below.not_refuses_other (h : Below position v key w)
    (hrest : Traverses position w path (.error ⟨key, v.kind⟩)) : ¬Refuses other v key := by
  rintro (hkind | _)
  · exact h.not_refuses (.scalar hkind)
  · obtain ⟨n, hkey, -⟩ := below_sequence_iff.mp h
    exact hrest.not_position rfl n hkey

/-- Readings that come to the same outcome take the first subscript alike. -/
theorem Traverses.cons (hposition : ∀ key m n, position key m → other key n → m = n)
    (h : Traverses position v (key :: path) outcome) (h' : Traverses other v (key :: path) outcome) :
    (∃ w, Below position v key w ∧ Below other v key w ∧ Traverses position w path outcome ∧
        Traverses other w path outcome) ∨
      Refuses position v key ∧ Refuses other v key := by
  cases h with
  | step hbelow hrest =>
    cases h' with
    | step hbelow' hrest' =>
      obtain rfl := hbelow.unique hposition hbelow'
      exact .inl ⟨_, hbelow, hbelow', hrest, hrest'⟩
    | refused hrefuses => exact (hbelow.not_refuses_other hrest hrefuses).elim
  | refused hrefuses =>
    cases h' with
    | step hbelow' hrest' => exact (hbelow'.not_refuses_other hrest' hrefuses).elim
    | refused hrefuses' => exact .inr ⟨hrefuses, hrefuses'⟩

/-- By the rules a path has one outcome. -/
theorem Traverses.unique (hposition : ∀ key m n, position key m → position key n → m = n)
    (h : Traverses position v path outcome) {outcome' : Except TraversalError Value}
    (h' : Traverses position v path outcome') : outcome = outcome' := by
  induction h with
  | done v =>
    cases h'
    rfl
  | step hbelow _ ih =>
    cases h' with
    | step hbelow' hrest => exact ih ((hbelow'.unique hposition hbelow) ▸ hrest)
    | refused hrefuses => exact (hbelow.not_refuses hrefuses).elim
  | refused hrefuses =>
    cases h' with
    | step hbelow' => exact (hbelow'.not_refuses hrefuses).elim
    | refused => rfl

theorem Below.congr (h : Below position v key w)
    (hagree : ∀ items, v = .sequence items → ∀ n, position key n ↔ other key n) :
    Below other v key w := by
  cases h with
  | undefined => exact .undefined key
  | entry h => exact .entry h
  | noEntry h => exact .noEntry h
  | item hkey h => exact .item ((hagree _ rfl _).mp hkey) h
  | pastEnd hkey h => exact .pastEnd ((hagree _ rfl _).mp hkey) h

theorem Refuses.congr (h : Refuses position v key)
    (hagree : ∀ items, v = .sequence items → ∀ n, position key n ↔ other key n) :
    Refuses other v key := by
  cases h with
  | scalar h => exact .scalar h
  | noPosition h => exact .noPosition fun n hn => h n ((hagree _ rfl n).mpr hn)

/-- Readings that agree on every key that meets a sequence on the way come to the same outcome. -/
theorem Traverses.congr (h : Traverses position v path outcome)
    (hagree : ∀ front key back items, path = front ++ key :: back →
      Traverses position v front (.ok (.sequence items)) → ∀ n, position key n ↔ other key n) :
    Traverses other v path outcome := by
  induction h with
  | done v => exact .done v
  | @step v w key path outcome hbelow _ ih =>
    have hfirst : ∀ items, v = .sequence items → ∀ n, position key n ↔ other key n := by
      rintro items rfl
      exact hagree [] key path items rfl (.done _)
    refine .step (hbelow.congr hfirst) (ih fun front later back items hpath hfront => ?_)
    exact hagree (key :: front) later back items (congrArg (key :: ·) hpath) (.step hbelow hfront)
  | @refused v key path hrefuses =>
    refine .refused (hrefuses.congr ?_)
    rintro items rfl
    exact hagree [] key path items rfl (.done _)

/-- Readings that come to the same outcome agree on every key that meets a sequence on the way. -/
theorem Traverses.agree (hposition : ∀ key m n, position key m → other key n → m = n)
    {front back : List String} {items : List Value}
    (h : Traverses position v (front ++ key :: back) outcome)
    (h' : Traverses other v (front ++ key :: back) outcome)
    (hfront : Traverses position v front (.ok (.sequence items))) :
    (∃ n, position key n) ↔ ∃ n, other key n := by
  induction front generalizing v with
  | nil =>
    cases hfront
    rcases h.cons hposition h' with ⟨w, hbelow, hbelow', -, -⟩ | ⟨hrefuses, hrefuses'⟩
    · obtain ⟨m, hm, -⟩ := below_sequence_iff.mp hbelow
      obtain ⟨n, hn, -⟩ := below_sequence_iff.mp hbelow'
      exact iff_of_true ⟨m, hm⟩ ⟨n, hn⟩
    · rw [refuses_sequence_iff, ← not_exists] at hrefuses hrefuses'
      exact iff_of_false hrefuses hrefuses'
  | cons first front ih =>
    cases hfront with
    | step hbelow hfront =>
      rcases h.cons hposition h' with ⟨w, -, hbelow', hrest, hrest'⟩ | ⟨hrefuses, -⟩
      · obtain rfl := hbelow.unique hposition hbelow'
        exact ih hrest hrest' hfront
      · exact (hbelow.not_refuses hrefuses).elim

/-! ### The keys that are read -/

theorem numeral_iff {cs : List Char} {n : Nat} :
    Decimal.Numeral cs n ↔ Decimal.isDigits cs ∧ Decimal.valueOf cs = n := by
  have hdigit (c : Char) : c.isDigit ↔ '0' ≤ c ∧ c ≤ '9' := by
    simp [Char.isDigit, Char.le_def]
  simp only [Decimal.isDigits, Bool.and_eq_true, List.all_eq_true, hdigit, Bool.not_eq_true',
    List.isEmpty_eq_false_iff]
  exact ⟨fun h => ⟨⟨h.nonempty, h.digits⟩, h.value⟩, fun h => ⟨h.1.1, h.1.2, h.2⟩⟩

theorem not_numeral_signed {digits : List Char} {n : Nat} : ¬Decimal.Numeral ('+' :: digits) n :=
  fun h => absurd (h.digits '+' List.mem_cons_self) (by decide)

theorem positionOf?_eq_some_iff {n : Nat} : positionOf? key = some n ↔ WordPosition key n := by
  have hword (digits : List Char) :
      (if Decimal.isDigits digits && Decimal.valueOf digits ≤ Decimal.maxWord then
        some (Decimal.valueOf digits) else none) = some n ↔
      n ≤ Decimal.maxWord ∧ Decimal.Numeral digits n := by
    rw [numeral_iff]
    split
    · rename_i h
      simp only [Bool.and_eq_true, decide_eq_true_eq] at h
      simp only [Option.some.injEq, h.1, true_and]
      exact ⟨fun hn => ⟨hn ▸ h.2, hn⟩, fun hn => hn.2⟩
    · rename_i h
      simp only [Bool.and_eq_true, decide_eq_true_eq, not_and] at h
      simp only [reduceCtorEq, false_iff, not_and]
      rintro hn hdigits rfl
      exact h hdigits hn
  unfold positionOf? WordPosition
  split
  · rename_i digits hkey
    rw [hword, hkey]
    simp [not_numeral_signed]
  · rename_i hunsigned
    rw [hword]
    refine and_congr_right fun _ => (or_iff_left ?_).symm
    rintro ⟨digits, hkey, -⟩
    exact hunsigned digits hkey

theorem below_of_get (h : v.get key = .ok w) : Below WordPosition v key w := by
  cases v with
  | undefined =>
    obtain rfl := Except.ok.inj h
    exact .undefined key
  | mapping entries =>
    obtain rfl := Except.ok.inj h
    exact below_mapping_iff.mpr rfl
  | sequence items =>
    rw [get] at h
    split at h
    · rename_i n hn
      obtain rfl := Except.ok.inj h
      exact below_sequence_iff.mpr ⟨n, positionOf?_eq_some_iff.mp hn, rfl⟩
    · exact nomatch h
  | _ => exact nomatch h

theorem refuses_of_get {e : TraversalError} (h : v.get key = .error e) :
    e = ⟨key, v.kind⟩ ∧ Refuses WordPosition v key := by
  cases v with
  | undefined => exact nomatch h
  | mapping entries => exact nomatch h
  | sequence items =>
    rw [get] at h
    split at h
    · exact nomatch h
    · rename_i hnone
      refine ⟨(Except.error.inj h).symm, .noPosition fun n hn => ?_⟩
      rw [positionOf?_eq_some_iff.mpr hn] at hnone
      exact nomatch hnone
  | _ => exact ⟨(Except.error.inj h).symm, .scalar (by simp [kind])⟩

/-- A path is followed by the rules, with the keys that are words for positions. -/
theorem traverses_traverse (v : Value) (path : List String) :
    Traverses WordPosition v path (v.traverse path) := by
  induction path generalizing v with
  | nil => exact .done v
  | cons key path ih =>
    rw [traverse]
    cases h : v.get key with
    | ok w => exact .step (below_of_get h) (ih w)
    | error e =>
      obtain ⟨rfl, hrefuses⟩ := refuses_of_get h
      exact .refused hrefuses

theorem wordPosition_unique (key : String) (m n : Nat) (hm : WordPosition key m)
    (hn : WordPosition key n) : m = n :=
  Option.some.inj ((positionOf?_eq_some_iff.mpr hm).symm.trans (positionOf?_eq_some_iff.mpr hn))

theorem traverse_eq_iff : v.traverse path = outcome ↔ Traverses WordPosition v path outcome :=
  ⟨fun h => h ▸ traverses_traverse v path,
    fun h => (traverses_traverse v path).unique wordPosition_unique h⟩

theorem numeralPosition_unique (key : String) (m n : Nat) (hm : NumeralPosition key m)
    (hn : NumeralPosition key n) : m = n := hm.value.symm.trans hn.value

/-- A word without a sign is the number of its digits. -/
theorem word_eq_numeral (key : String) (m n : Nat) (hm : WordPosition key m)
    (hn : NumeralPosition key n) : m = n := by
  obtain ⟨-, hm | ⟨digits, hkey, -⟩⟩ := hm
  · exact hm.value.symm.trans hn.value
  · rw [NumeralPosition, hkey] at hn
    exact (not_numeral_signed hn).elim

theorem not_misread_iff :
    ¬Misread key ↔ ∀ n, WordPosition key n ↔ NumeralPosition key n := by
  constructor
  · intro h n
    constructor
    · rintro ⟨hn, hnumeral | ⟨digits, hkey, hnumeral⟩⟩
      · exact hnumeral
      · exact (h (.signed hkey hnumeral hn)).elim
    · intro hnumeral
      exact ⟨Nat.not_lt.mp fun hn => h (.large hnumeral hn), .inl hnumeral⟩
  · rintro h (⟨hnumeral, hn⟩ | ⟨hkey, hnumeral, hn⟩)
    · exact Nat.not_le_of_lt hn ((h _).mpr hnumeral).1
    · have := (h _).mp ⟨hn, .inr ⟨_, hkey, hnumeral⟩⟩
      rw [NumeralPosition, hkey] at this
      exact not_numeral_signed this

/-- What a path comes to is what the rules say of it for words as positions. It is what they say for
numerals of any size exactly where no sequence on the way meets a key that is a numeral too large for a
word, or a word with a plus sign. -/
theorem traverse_agrees_iff (v : Value) (path : List String) :
    (∀ outcome, v.traverse path = outcome ↔ Traverses WordPosition v path outcome) ∧
    ((∀ outcome, v.traverse path = outcome ↔ Traverses NumeralPosition v path outcome) ↔
      ∀ front key back items, path = front ++ key :: back →
        v.traverse front = .ok (.sequence items) → ¬Misread key) := by
  refine ⟨fun outcome => traverse_eq_iff, fun hagree => ?_, fun hread outcome => ?_⟩
  · rintro front key back items rfl hfront
    -- both readings come to the same outcome, so both of them or neither take the key
    have hboth := (traverses_traverse v (front ++ key :: back)).agree word_eq_numeral
      ((hagree _).mp rfl) (traverse_eq_iff.mp hfront)
    refine not_misread_iff.mpr fun n => ⟨fun hword => ?_, fun hnumeral => ?_⟩
    · obtain ⟨m, hm⟩ := hboth.mp ⟨n, hword⟩
      rwa [word_eq_numeral key n m hword hm]
    · obtain ⟨m, hm⟩ := hboth.mpr ⟨n, hnumeral⟩
      rwa [← word_eq_numeral key m n hm hnumeral]
  · have hnumeral : Traverses NumeralPosition v path (v.traverse path) :=
      (traverses_traverse v path).congr fun front key back items hpath hfront =>
        not_misread_iff.mp (hread front key back items hpath (traverse_eq_iff.mpr hfront))
    exact ⟨fun h => h ▸ hnumeral, fun h => hnumeral.unique numeralPosition_unique h⟩

/-- The least number that is no word is past the end of any sequence, and is an error in place of
undefined; zero with a plus sign is no numeral, and is read in place of an error. -/
theorem traverse_disagrees :
    (Traverses NumeralPosition (.sequence [.string "a"]) ["18446744073709551616"] (.ok .undefined) ∧
      (sequence [.string "a"]).traverse ["18446744073709551616"] =
        .error ⟨"18446744073709551616", .sequence⟩) ∧
    (Traverses NumeralPosition (.sequence [.string "a"]) ["+0"] (.error ⟨"+0", .sequence⟩) ∧
      (sequence [.string "a"]).traverse ["+0"] = .ok (.string "a")) ∧
    ¬∀ v path outcome, traverse v path = outcome ↔ Traverses NumeralPosition v path outcome := by
  have hnumeral : NumeralPosition "18446744073709551616" 18446744073709551616 :=
    numeral_iff.mpr ⟨rfl, rfl⟩
  have hlarge : Traverses NumeralPosition (.sequence [.string "a"]) ["18446744073709551616"]
      (.ok .undefined) :=
    .step (.pastEnd hnumeral (by decide : 1 ≤ 18446744073709551616)) (.done _)
  have hsigned : Traverses NumeralPosition (.sequence [.string "a"]) ["+0"]
      (.error ⟨"+0", .sequence⟩) :=
    .refused (.noPosition fun n hn => absurd (hn.digits '+' (by decide)) (by decide))
  refine ⟨⟨hlarge, by rfl⟩, ⟨hsigned, by rfl⟩, fun hrules => ?_⟩
  exact nomatch (hrules _ _ _).mpr hlarge

end Value

end StyleTemplate
