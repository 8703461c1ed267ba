import StyleTemplate.Text.Quoting

/-! Text that hides a delimiter, and what becomes of it when delimiters are looked for: it is not cut
(`cutUnquoted?_append`), and pieces of such text are what their join falls into
(`splitUnquoted_intercalate`). -/

namespace StyleTemplate.Text

namespace Quoting

/-- No character of a text that is read from state `q` on is a delimiter equal to `target`. -/
def Hides (target : Char) : Quoting → List Char → Prop
  | _, [] => True
  | q, c :: cs => ¬q.delimits target c ∧ Hides target (q.step c) cs

variable {target c : Char} {q : Quoting} {as bs : List Char}

theorem hides_append : q.Hides target (as ++ bs) ↔ q.Hides target as ∧ (q.run as).Hides target bs := by
  induction as generalizing q with
  | nil => simp [Hides]
  | cons a as ih => rw [List.cons_append, Hides, Hides, ih, run_cons, and_assoc]

theorem not_delimits_inside (quote : Char) : ¬(inside quote).delimits target c := by
  simp [delimits]

theorem delimits_self (h : ¬isQuote target) : outside.delimits target target := by
  simp [delimits, h]

end Quoting

/-- Text that is read as no delimiter equal to `target`, with all its quotes closed. -/
structure Sealed (target : Char) (cs : List Char) : Prop where
  hides : Quoting.outside.Hides target cs
  closed : Quoting.outside.run cs = .outside

namespace Sealed

variable {target : Char} {as bs : List Char}

theorem nil : Sealed target [] := ⟨trivial, rfl⟩

theorem append (ha : Sealed target as) (hb : Sealed target bs) : Sealed target (as ++ bs) := by
  refine ⟨Quoting.hides_append.mpr ⟨ha.hides, ?_⟩, ?_⟩
  · rw [ha.closed]
    exact hb.hides
  · rw [Quoting.run_append, ha.closed, hb.closed]

theorem of_plain (h : ∀ c ∈ as, c ≠ target ∧ ¬isQuote c) : Sealed target as := by
  induction as with
  | nil => exact .nil
  | cons c as ih =>
    obtain ⟨⟨hc, hq⟩, htail⟩ := List.forall_mem_cons.mp h
    obtain ⟨hides, closed⟩ := ih htail
    have hstep : Quoting.outside.step c = .outside := by rw [Quoting.step, if_neg hq]
    refine ⟨⟨by simp [Quoting.delimits, hc], ?_⟩, ?_⟩
    · rw [hstep]
      exact hides
    · rw [Quoting.run_cons, hstep, closed]

/-- From inside a quote on, text without that quote and the quote itself. -/
private theorem inside_of_not_mem {q : Char} (h : q ∉ as) :
    (Quoting.inside q).Hides target (as ++ [q]) ∧ (Quoting.inside q).run (as ++ [q]) = .outside := by
  induction as with
  | nil => simp [Quoting.Hides, Quoting.not_delimits_inside, Quoting.step]
  | cons c as ih =>
    rw [List.mem_cons, not_or] at h
    have hstep : (Quoting.inside q).step c = .inside q := by
      rw [Quoting.step, if_neg (Ne.symm h.1)]
    rw [List.cons_append, Quoting.Hides, Quoting.run_cons, hstep]
    exact ⟨⟨Quoting.not_delimits_inside q, (ih h.2).1⟩, (ih h.2).2⟩

theorem quoted {q : Char} (hq : isQuote q) (h : q ∉ as) : Sealed target (q :: (as ++ [q])) := by
  obtain ⟨hides, closed⟩ : (Quoting.inside q).Hides target (as ++ [q]) ∧ _ := inside_of_not_mem h
  have hstep : Quoting.outside.step q = .inside q := by rw [Quoting.step, if_pos hq]
  refine ⟨⟨by simp [Quoting.delimits, hq], ?_⟩, ?_⟩
  · rw [hstep]
    exact hides
  · rw [Quoting.run_cons, hstep, closed]

/-- A join is sealed if its pieces are and the separator is another plain character. -/
theorem intercalate {separator : Char} {pieces : List (List Char)} (hs : separator ≠ target)
    (hq : ¬isQuote separator) (h : ∀ piece ∈ pieces, Sealed target piece) :
    Sealed target ([separator].intercalate pieces) := by
  induction pieces with
  | nil => exact .nil
  | cons piece pieces ih =>
    obtain ⟨hpiece, htail⟩ := List.forall_mem_cons.mp h
    cases pieces with
    | nil => simpa using hpiece
    | cons next pieces =>
      have hsep : Sealed target [separator] := .of_plain (by simp [hs, hq])
      rw [List.intercalate_cons_cons]
      exact (hpiece.append hsep).append (ih htail)

end Sealed

variable {target separator : Char} {q : Quoting} {as : List Char}

/-- The first delimiter behind text that hides it is where a cut is made. -/
theorem cutUnquoted?_append (htarget : ¬isQuote target) (hides : q.Hides target as)
    (closed : q.run as = .outside) (bs : List Char) :
    cutUnquoted? target q (as ++ target :: bs) = some (as, bs) := by
  induction as generalizing q with
  | nil =>
    obtain rfl : q = .outside := closed
    rw [List.nil_append, cutUnquoted?, if_pos (Quoting.delimits_self htarget)]
  | cons c as ih =>
    rw [List.cons_append, cutUnquoted?, if_neg hides.1, ih hides.2 closed]
    rfl

theorem splitUnquoted_of_hides (h : q.Hides separator as) : splitUnquoted separator q as = [as] := by
  induction as generalizing q with
  | nil => rfl
  | cons c as ih =>
    rw [splitUnquoted, if_neg h.1, ih h.2]
    rfl

/-- The first separator behind text that hides it ends the first piece. -/
theorem splitUnquoted_append (hseparator : ¬isQuote separator) (hides : q.Hides separator as)
    (closed : q.run as = .outside) (bs : List Char) :
    splitUnquoted separator q (as ++ separator :: bs) =
      as :: splitUnquoted separator .outside bs := by
  induction as generalizing q with
  | nil =>
    obtain rfl : q = .outside := closed
    rw [List.nil_append, splitUnquoted, if_pos (Quoting.delimits_self hseparator)]
  | cons c as ih =>
    rw [List.cons_append, splitUnquoted, if_neg hides.1, ih hides.2 closed]
    rfl

/-- A join falls into its pieces if they hide the separator; in the last one a quote may be open. -/
theorem splitUnquoted_intercalate {pieces : List (List Char)} (hseparator : ¬isQuote separator)
    (hne : pieces ≠ []) (hides : ∀ piece ∈ pieces, Quoting.outside.Hides separator piece)
    (closed : ∀ piece ∈ pieces.dropLast, Quoting.outside.run piece = .outside) :
    splitUnquoted separator .outside ([separator].intercalate pieces) = pieces := by
  induction pieces with
  | nil => exact (hne rfl).elim
  | cons piece pieces ih =>
    obtain ⟨hpiece, htail⟩ := List.forall_mem_cons.mp hides
    cases pieces with
    | nil => simpa using splitUnquoted_of_hides hpiece
    | cons next pieces =>
      rw [List.dropLast_cons_cons] at closed
      obtain ⟨hclosed, hclosedTail⟩ := List.forall_mem_cons.mp closed
      rw [List.intercalate_cons_cons, List.append_assoc, List.singleton_append,
        splitUnquoted_append hseparator hpiece hclosed,
        ih (List.cons_ne_nil _ _) htail hclosedTail]

end StyleTemplate.Text
