import Mathlib
import StyleTemplate.Proofs.Grammar

/-! The readers of placeholders follow the grammar: each of them answers with a part and a rest
exactly where the grammar has that part and that rest. -/

namespace StyleTemplate.Grammar

open Text (isQuote cutUnquoted? Quoting)

theorem isQuote_iff {c : Char} : isQuote c ↔ Quote c := by
  simp [isQuote, Quote, or_comm]

theorem isNameChar_iff {c : Char} : isNameChar c ↔ NameChar c := by
  simp only [isNameChar, NameChar, Char.isAlphanum, Char.isAlpha, Char.isUpper, Char.isLower,
    Char.isDigit, Char.le_def, Bool.or_eq_true, Bool.and_eq_true, decide_eq_true_eq, beq_iff_eq,
    ge_iff_le]
  simp only [or_assoc]

private theorem not_linebreak_iff {c : Char} :
    (decide (c ≠ '\n') && decide (c ≠ '\r')) = true ↔ ¬LineBreak c := by
  simp [LineBreak]

section Runs

variable {p : Char → Bool} {as : List Char} (bs : List Char)

private theorem takeWhile_run (ha : ∀ c ∈ as, p c) (hb : ∀ c ∈ bs.head?, ¬p c) :
    (as ++ bs).takeWhile p = as := by
  rw [List.takeWhile_append_of_pos ha]
  cases bs with
  | nil => simp
  | cons b bs => rw [List.takeWhile_cons_of_neg (hb b rfl), List.append_nil]

private theorem dropWhile_run (ha : ∀ c ∈ as, p c) (hb : ∀ c ∈ bs.head?, ¬p c) :
    (as ++ bs).dropWhile p = bs := by
  rw [List.dropWhile_append_of_pos ha]
  cases bs with
  | nil => rfl
  | cons b bs => rw [List.dropWhile_cons_of_neg (hb b rfl)]

end Runs

/-! ### Names -/

theorem readName?_eq_some_iff {cs name rest : List Char} :
    readName? cs = some (name, rest) ↔ cs = name ++ rest ∧ IsName name rest := by
  constructor
  · intro h
    refine ⟨eq_of_readName? h, ?_⟩
    unfold readName? at h
    split at h
    · exact nomatch h
    · rename_i c cs' hn
      obtain ⟨rfl, rfl⟩ := Prod.mk.inj (Option.some.inj h)
      refine ⟨List.cons_ne_nil _ _, fun d hd => ?_, fun d hd hc => ?_⟩
      · rw [← hn] at hd
        exact isNameChar_iff.mp (List.mem_takeWhile_imp hd)
      · have := List.head?_dropWhile_not isNameChar cs
        rw [Option.mem_def.mp hd] at this
        simp [isNameChar_iff.mpr hc] at this
  · rintro ⟨rfl, hname⟩
    have hin : ∀ c ∈ name, isNameChar c := fun c hc => isNameChar_iff.mpr (hname.chars c hc)
    have hout : ∀ c ∈ rest.head?, ¬isNameChar c := fun c hc h =>
      hname.stops c hc (isNameChar_iff.mp h)
    unfold readName?
    rw [takeWhile_run _ hin hout, dropWhile_run _ hin hout]
    cases name with
    | nil => exact (hname.nonempty rfl).elim
    | cons c name => rfl

theorem readName?_eq_none_iff {cs : List Char} :
    readName? cs = none ↔ ∀ c ∈ cs.head?, ¬NameChar c := by
  unfold readName?
  cases cs with
  | nil => simp
  | cons c cs =>
    by_cases hc : isNameChar c
    · simp [hc, isNameChar_iff.mp hc]
    · simpa [hc] using fun h => hc (isNameChar_iff.mpr h)

/-! ### Subscripts -/

private theorem not_isQuote_of_isBareKeyChar {c : Char} (h : isBareKeyChar c) : ¬isQuote c := by
  rw [isQuote_iff]
  rintro (rfl | rfl)
  · exact absurd h (by decide)
  · exact absurd h (by decide)

theorem readSubscript?_eq_some_iff {cs rest : List Char} {s : SubscriptText} :
    readSubscript? cs = some (s, rest) ↔ Subscript cs s rest := by
  constructor
  · intro h
    refine ⟨?_, eq_of_readSubscript? h⟩
    unfold readSubscript? at h
    split at h
    · rename_i c cs
      split at h
      · rename_i hq
        split at h
        · obtain ⟨rfl, rfl⟩ := Prod.mk.inj (Option.some.inj h)
          refine .quoted (isQuote_iff.mp hq) fun hmem => ?_
          simpa using List.mem_takeWhile_imp hmem
        · exact nomatch h
      · split at h
        · rename_i k key _ hk _
          obtain ⟨rfl, rfl⟩ := Prod.mk.inj (Option.some.inj h)
          refine .bare (List.cons_ne_nil _ _) fun d hd => ?_
          rw [← hk] at hd
          exact List.mem_takeWhile_imp hd
        · exact nomatch h
    · exact nomatch h
  · rintro ⟨hform, rfl⟩
    cases hform with
    | @bare key nonempty chars =>
      have hin := takeWhile_run (']' :: rest) chars (by simp [isBareKeyChar])
      have hout := dropWhile_run (']' :: rest) chars (by simp [isBareKeyChar])
      cases key with
      | nil => exact (nonempty rfl).elim
      | cons k key =>
        have hk := not_isQuote_of_isBareKeyChar (chars k List.mem_cons_self)
        simp only [List.cons_append] at hin hout
        simp [SubscriptText.written, readSubscript?, hk, hin, hout]
    | @quoted key q quote inside =>
      have hkey : ∀ c ∈ key, decide (c ≠ q) = true := fun c hc => by
        simpa using fun h : c = q => inside (h ▸ hc)
      have hin := takeWhile_run (q :: ']' :: rest) hkey (by simp)
      have hout := dropWhile_run (q :: ']' :: rest) hkey (by simp)
      have htext : (SubscriptText.written ⟨key, some q⟩) ++ rest =
          '[' :: q :: (key ++ q :: ']' :: rest) := by simp [SubscriptText.written]
      rw [htext, readSubscript?, if_pos (isQuote_iff.mpr quote), hin, hout]
      rfl

/-! ### Calls -/

/-- What may come before the closing parenthesis when the quotes before it are at `q`. -/
private def Closes : Quoting → List Char → Prop
  | .outside, cs => Inner cs
  | .inside q, cs => ∃ body tail, cs = body ++ q :: tail ∧ q ∉ body ∧
      (∀ c ∈ body, ¬LineBreak c) ∧ Inner tail

private theorem closes_nil {q : Quoting} : Closes q [] ↔ q = .outside := by
  cases q with
  | outside => simp [Closes, Inner.nil]
  | inside q => simp [Closes]

private theorem closes_cons {q : Quoting} (hq : ∀ c, q = .inside c → Quote c) {c : Char}
    {cs : List Char} :
    Closes q (c :: cs) ↔ ¬LineBreak c ∧ ¬q.delimits ')' c ∧ Closes (q.step c) cs := by
  cases q with
  | outside =>
    constructor
    · intro h
      cases h with
      | plain quote close line h =>
        have : ¬isQuote c := fun h => quote (isQuote_iff.mp h)
        exact ⟨line, by simp [Quoting.delimits, close], by simpa [Quoting.step, this, Closes] using h⟩
      | @quoted q body cs quote inside line h =>
        have hline : ¬LineBreak c := by rcases quote with rfl | rfl <;> simp [LineBreak]
        have := isQuote_iff.mpr quote
        refine ⟨hline, by simp [Quoting.delimits, this], ?_⟩
        rw [Quoting.step, if_pos this]
        exact ⟨body, cs, rfl, inside, line, h⟩
    · rintro ⟨line, close, h⟩
      by_cases hc : isQuote c
      · rw [Quoting.step, if_pos hc] at h
        obtain ⟨body, tail, rfl, inside, hbody, h⟩ := h
        exact .quoted (isQuote_iff.mp hc) inside hbody h
      · rw [Quoting.step, if_neg hc] at h
        refine .plain (fun h => hc (isQuote_iff.mpr h)) ?_ line h
        simpa [Quoting.delimits, hc] using close
  | inside q =>
    by_cases hc : c = q
    · subst hc
      have hline : ¬LineBreak c := by rcases hq c rfl with rfl | rfl <;> simp [LineBreak]
      simp only [Quoting.step, Quoting.delimits, hline, not_false_eq_true, true_and]
      constructor
      · rintro ⟨body, tail, h, inside, -, htail⟩
        cases body with
        | nil => obtain ⟨-, rfl⟩ := List.cons.inj h; simpa [Closes] using htail
        | cons b body => exact (inside (by rw [← (List.cons.inj h).1]; simp)).elim
      · intro h
        exact ⟨[], cs, rfl, by simp, by simp, by simpa [Closes] using h⟩
    · rw [Quoting.step, if_neg hc]
      simp only [Quoting.delimits, reduceCtorEq, decide_false, Bool.false_and, Bool.false_eq_true,
        not_false_eq_true, true_and]
      constructor
      · rintro ⟨body, tail, h, inside, line, htail⟩
        cases body with
        | nil => exact (hc (List.cons.inj h).1).elim
        | cons b body =>
          obtain ⟨rfl, rfl⟩ := List.cons.inj h
          rw [List.mem_cons, not_or] at inside
          rw [List.forall_mem_cons] at line
          exact ⟨line.1, body, tail, rfl, inside.2, line.2, htail⟩
      · rintro ⟨hline, body, tail, rfl, inside, line, htail⟩
        refine ⟨c :: body, tail, rfl, ?_, List.forall_mem_cons.mpr ⟨hline, line⟩, htail⟩
        simpa [Ne.symm hc] using inside

private theorem quote_of_step {q : Quoting} (hq : ∀ c, q = .inside c → Quote c) (d c : Char)
    (h : q.step d = .inside c) : Quote c := by
  cases q with
  | outside =>
    by_cases hd : isQuote d
    · rw [Quoting.step, if_pos hd, Quoting.inside.injEq] at h
      exact h ▸ isQuote_iff.mp hd
    · rw [Quoting.step, if_neg hd] at h
      exact nomatch h
  | inside q =>
    by_cases hd : d = q
    · rw [Quoting.step, if_pos hd] at h
      exact nomatch h
    · rw [Quoting.step, if_neg hd, Quoting.inside.injEq] at h
      exact hq c (h ▸ rfl)

private theorem closes_iff {q : Quoting} (hq : ∀ c, q = .inside c → Quote c)
    {inner : List Char} (rest : List Char) :
    Closes q inner ↔ (∀ c ∈ inner, ¬LineBreak c) ∧
      cutUnquoted? ')' q (inner ++ ')' :: rest) = some (inner, rest) := by
  -- the text may begin in quotes, since after an opening quote its tail does
  induction inner generalizing q with
  | nil =>
    rw [closes_nil, List.nil_append, cutUnquoted?]
    constructor
    · rintro rfl
      exact ⟨by simp, by simp [Quoting.delimits, isQuote]⟩
    · rintro ⟨-, h⟩
      by_contra hne
      rw [if_neg (by simp [Quoting.delimits, hne])] at h
      obtain ⟨⟨before, after⟩, -, h⟩ := Option.map_eq_some_iff.mp h
      cases (Prod.mk.inj h).1
  | cons c cs ih =>
    rw [closes_cons hq, ih (quote_of_step hq c), List.cons_append, cutUnquoted?,
      List.forall_mem_cons]
    by_cases hd : q.delimits ')' c
    · simp [hd]
    · simp [hd, and_assoc]

/-- The first closing parenthesis outside quotes is where the text between the parentheses ends. -/
theorem inner_iff {inner : List Char} (rest : List Char) :
    Inner inner ↔ (∀ c ∈ inner, ¬LineBreak c) ∧
      cutUnquoted? ')' .outside (inner ++ ')' :: rest) = some (inner, rest) :=
  closes_iff (q := .outside) (fun _ h => nomatch h) rest

theorem readInner?_eq_some_iff {cs inner rest : List Char} :
    readInner? cs = some (inner, rest) ↔ cs = inner ++ ')' :: rest ∧ Inner inner := by
  constructor
  · intro h
    refine ⟨eq_of_readInner? h, ?_⟩
    simp only [readInner?] at h
    split at h
    · rename_i inner' after hcut
      obtain ⟨rfl, -⟩ := Prod.mk.inj (Option.some.inj h)
      have hline := Text.eq_of_cutUnquoted? hcut
      refine (inner_iff after).mpr ⟨fun c hc => ?_, hline ▸ hcut⟩
      have hmem := List.mem_append_left (')' :: after) hc
      rw [← hline] at hmem
      have hin := List.mem_takeWhile_imp hmem
      exact not_linebreak_iff.mp hin
    · cases h
  · rintro ⟨rfl, h⟩
    have hline : ∀ c ∈ inner, (decide (c ≠ '\n') && decide (c ≠ '\r')) = true := fun c hc =>
      not_linebreak_iff.mpr (((inner_iff rest).mp h).1 c hc)
    simp only [readInner?]
    rw [List.takeWhile_append_of_pos hline, List.takeWhile_cons_of_pos (by decide),
      ((inner_iff _).mp h).2]
    simp

theorem readCall?_eq_some_iff {cs rest : List Char} {c : CallText} :
    readCall? cs = some (c, rest) ↔ Call cs c rest := by
  constructor
  · intro h
    refine ⟨?_, eq_of_readCall? h⟩
    unfold readCall? at h
    split at h
    · split at h
      · rename_i name after hname
        split at h
        · rename_i inner rest hinner
          obtain ⟨rfl, rfl⟩ := Prod.mk.inj (Option.some.inj h)
          obtain ⟨-, nonempty, chars, stops⟩ := readName?_eq_some_iff.mp hname
          exact .applied ⟨nonempty, chars, by simpa using stops⟩ (readInner?_eq_some_iff.mp hinner).2
        · cases h
      · rename_i hopen hname
        obtain ⟨rfl, rfl⟩ := Prod.mk.inj (Option.some.inj h)
        refine .plain (readName?_eq_some_iff.mp hname).2 fun hmem => ?_
        obtain ⟨tail, rfl⟩ := List.head?_eq_some_iff.mp hmem
        exact hopen _ rfl
      · cases h
    · cases h
  · rintro ⟨hform, rfl⟩
    cases hform with
    | @plain name rest name_ends no_args =>
      have hname := readName?_eq_some_iff.mpr ⟨rfl, name_ends⟩
      simp only [CallText.written, List.cons_append, List.append_nil, readCall?, hname]
      split
      · rename_i hn
        obtain ⟨-, rfl⟩ := Prod.mk.inj (Option.some.inj hn)
        exact (no_args rfl).elim
      · rename_i hn
        obtain ⟨rfl, rfl⟩ := Prod.mk.inj (Option.some.inj hn)
        rfl
      · rename_i hn
        cases hn
    | @applied name inner rest name_ends inner_ends =>
      obtain ⟨nonempty, chars, stops⟩ := name_ends
      have hname := readName?_eq_some_iff.mpr
        ⟨rfl, nonempty, chars, fun c (hc : c ∈ ('(' :: inner ++ ')' :: rest).head?) => stops c hc⟩
      have hinner : readInner? (inner ++ ')' :: rest) = some (inner, rest) :=
        readInner?_eq_some_iff.mpr ⟨rfl, inner_ends⟩
      have htext : CallText.written ⟨name, some inner⟩ ++ rest =
          '|' :: (name ++ ('(' :: inner ++ ')' :: rest)) := by simp [CallText.written]
      simp only [htext, readCall?, hname]
      simp only [List.cons_append, hinner]

/-! ### Chains -/

section Chains

variable {α : Type} {part : List Char → α → List Char → Prop}
  {read? : List Char → Option (α × List Char)}

private theorem functional_of_reader
    (hread : ∀ text x rest, read? text = some (x, rest) ↔ part text x rest) :
    Functional part := by
  intro text x y rest other hx hy
  rw [← hread] at hx hy
  rw [hx] at hy
  exact Prod.mk.inj (Option.some.inj hy)

/-- A loop that reads parts until none is left takes the longest chain. -/
private theorem longest_of_loop {loop : List Char → List α × List Char}
    (hread : ∀ text x rest, read? text = some (x, rest) ↔ part text x rest)
    (hshorter : ∀ text x rest, read? text = some (x, rest) → rest.length < text.length)
    (hnone : ∀ text, read? text = none → loop text = ([], text))
    (hsome : ∀ text x rest, read? text = some (x, rest) →
      loop text = (x :: (loop rest).1, (loop rest).2)) (text : List Char) :
    Longest part text (loop text).1 (loop text).2 := by
  suffices h : Chain part text (loop text).1 (loop text).2 ∧
      ∀ x other, ¬part (loop text).2 x other from
    .of_stops (functional_of_reader hread) h.1 h.2
  induction hn : text.length using Nat.strongRecOn generalizing text with
  | _ n ih =>
    subst hn
    cases h : read? text with
    | none =>
      rw [hnone _ h]
      refine ⟨.nil, fun x other hx => ?_⟩
      rw [← hread, h] at hx
      exact nomatch hx
    | some found =>
      obtain ⟨x, rest⟩ := found
      obtain ⟨hchain, hstops⟩ := ih _ (hshorter _ _ _ h) rest rfl
      rw [hsome _ _ _ h]
      exact ⟨.cons ((hread _ _ _).mp h) hchain, hstops⟩

end Chains

theorem subscript_functional : Functional Subscript :=
  functional_of_reader fun _ _ _ => readSubscript?_eq_some_iff

theorem call_functional : Functional Call :=
  functional_of_reader fun _ _ _ => readCall?_eq_some_iff

theorem readSubscripts_longest (cs : List Char) :
    Longest Subscript cs (readSubscripts cs).1 (readSubscripts cs).2 := by
  refine longest_of_loop (fun _ _ _ => readSubscript?_eq_some_iff)
    (fun _ _ _ => length_lt_of_readSubscript?) (fun text h => ?_) (fun text x rest h => ?_) cs
  · rw [readSubscripts]; split <;> simp_all
  · rw [readSubscripts]; split <;> simp_all

theorem readCalls_longest (cs : List Char) :
    Longest Call cs (readCalls cs).1 (readCalls cs).2 := by
  refine longest_of_loop (fun _ _ _ => readCall?_eq_some_iff)
    (fun _ _ _ => length_lt_of_readCall?) (fun text h => ?_) (fun text x rest h => ?_) cs
  · rw [readCalls]; split <;> simp_all
  · rw [readCalls]; split <;> simp_all

/-! ### Placeholders -/

theorem readPlaceholder?_eq_some_iff {cs rest : List Char} {p : PlaceholderText} :
    readPlaceholder? cs = some (p, rest) ↔ Begins ('$' :: cs) p rest := by
  constructor
  · intro h
    unfold readPlaceholder? at h
    split at h
    · exact nomatch h
    · rename_i name afterName hname
      obtain ⟨rfl, rfl⟩ := Prod.mk.inj (Option.some.inj h)
      obtain ⟨rfl, name_ends⟩ := readName?_eq_some_iff.mp hname
      exact .intro name_ends (readSubscripts_longest _) (readCalls_longest _)
  · intro h
    generalize htext : '$' :: cs = text at h
    cases h with
    | @intro name afterName afterPath rest subscripts calls name_ends path_ends chain_ends =>
      obtain ⟨-, rfl⟩ := List.cons.inj htext
      obtain ⟨hsubscripts, hpath⟩ :=
        (readSubscripts_longest afterName).unique subscript_functional path_ends
      rw [← hpath] at chain_ends
      obtain ⟨hcalls, hrest⟩ := (readCalls_longest _).unique call_functional chain_ends
      rw [readPlaceholder?, readName?_eq_some_iff.mpr ⟨rfl, name_ends⟩]
      simp only [hsubscripts, hcalls, hrest]

theorem readPlaceholder?_eq_none_iff {cs : List Char} :
    readPlaceholder? cs = none ↔ ¬Sigil ('$' :: cs) := by
  have hname : readPlaceholder? cs = none ↔ readName? cs = none := by
    unfold readPlaceholder?
    split <;> simp_all
  rw [hname, readName?_eq_none_iff]
  cases cs with
  | nil => simp [Sigil]
  | cons c cs => simp [Sigil]

theorem begins_functional : Functional Begins := by
  intro text p q rest other hp hq
  cases hp with
  | intro hname hpath hcalls =>
    have hp := readPlaceholder?_eq_some_iff.mpr (.intro hname hpath hcalls)
    rw [readPlaceholder?_eq_some_iff.mpr hq] at hp
    exact (Prod.mk.inj (Option.some.inj hp)).imp Eq.symm Eq.symm

end StyleTemplate.Grammar
