import StyleTemplate.Proofs.Minify.Rereading

/-! A stylesheet minified twice. The second pass finds no comment and no blank that it could drop,
but it finds a `;` in front of a `}` where the first pass dropped one of two. So it changes nothing
exactly where no `}` has two semicolons directly in front of it (`minify_again`). -/

namespace StyleTemplate.Minify

variable {css : String} {trailing : List Char} {placed : List Placed} {p q : Placed}

/-- Somewhere a `;` stands directly in front of a `}`. -/
def Closing (placed : List Placed) : Prop := [[';'], ['}']] <:+: units placed

/-- Somewhere two of them do. -/
def DoubleClosing (placed : List Placed) : Prop := [[';'], [';'], ['}']] <:+: units placed

theorem prefix_units_cons {unit : List Char} {more : List (List Char)} :
    unit :: more <+: units (p :: placed) ↔ p.unit = unit ∧ more <+: units placed := by
  rw [units, List.map_cons, List.cons_prefix_cons, eq_comm]
  rfl

theorem closing_cons : Closing (p :: placed) ↔
    (p.unit = [';'] ∧ [['}']] <+: units placed) ∨ Closing placed := by
  rw [← prefix_units_cons]
  exact List.infix_cons_iff

theorem doubleClosing_cons : DoubleClosing (p :: placed) ↔
    (p.unit = [';'] ∧ [[';'], ['}']] <+: units placed) ∨ DoubleClosing placed := by
  rw [← prefix_units_cons]
  exact List.infix_cons_iff

private theorem length_le_one {α : Type} {xs : List α} (h : ∀ a b rest, xs = a :: b :: rest → False) :
    xs.length ≤ 1 := by
  match xs, h with
  | [], _ => exact Nat.zero_le _
  | [_], _ => exact Nat.le_refl _
  | a :: b :: rest, h => exact (h a b rest rfl).elim

private theorem not_closing_of_length (h : placed.length ≤ 1) : ¬Closing placed := by
  intro hclosing
  have := hclosing.length_le
  simp only [units, List.length_map, List.length_cons, List.length_nil] at this
  omega

theorem Closing.of_double (h : DoubleClosing placed) : Closing placed :=
  (List.suffix_cons _ _).isInfix.trans h

/-- What has no `;` to drop stays as it is. -/
theorem dropSemicolons_eq_self (h : ¬Closing placed) : dropSemicolons placed = placed := by
  induction placed using dropSemicolons.induct with
  | case1 p q placed hsemicolon ih =>
    rw [closing_cons, prefix_units_cons, not_or] at h
    exact (h.1 ⟨hsemicolon.1, hsemicolon.2, List.nil_prefix⟩).elim
  | case2 p q placed hsemicolon ih =>
    rw [closing_cons, not_or] at h
    rw [dropSemicolons_cons hsemicolon, ih h.2]
  | case3 placed hshort =>
    rw [dropSemicolons]
    exact hshort

theorem length_dropSemicolons_lt (h : Closing placed) :
    (dropSemicolons placed).length < placed.length := by
  induction placed using dropSemicolons.induct with
  | case1 p q placed hsemicolon ih =>
    have hle := (units_dropSemicolons placed).1.length_le
    rw [dropSemicolons, if_pos hsemicolon]
    simp only [units, List.length_map, List.length_cons] at hle ⊢
    omega
  | case2 p q placed hsemicolon ih =>
    rw [closing_cons, prefix_units_cons] at h
    rcases h with ⟨hp, hq, -⟩ | h
    · exact (hsemicolon ⟨hp, hq⟩).elim
    · rw [dropSemicolons_cons hsemicolon]
      exact Nat.succ_lt_succ (ih h)
  | case3 placed hshort => exact (not_closing_of_length (length_le_one hshort) h).elim

/-- A `}` comes to the front only where a `;` was dropped. -/
theorem prefix_dropSemicolons (h : q.unit ≠ ['}']) :
    [['}']] <+: units (dropSemicolons (q :: placed)) ↔ [[';'], ['}']] <+: units (q :: placed) := by
  cases placed with
  | nil =>
    rw [dropSemicolons, prefix_units_cons, prefix_units_cons]
    · simp [h, units]
    · intro first second more hq
      exact absurd (List.cons.inj hq).2.symm (List.cons_ne_nil second more)
  | cons r placed =>
    by_cases hsemicolon : q.unit = [';'] ∧ r.unit = ['}']
    · rw [dropSemicolons, if_pos hsemicolon]
      simp [prefix_units_cons, hsemicolon]
    · rw [dropSemicolons_cons hsemicolon]
      simp [prefix_units_cons, h, hsemicolon]

/-- A `;` is left in front of a `}` where there were two. -/
theorem closing_dropSemicolons : Closing (dropSemicolons placed) ↔ DoubleClosing placed := by
  induction placed using dropSemicolons.induct with
  | case1 p q placed hsemicolon ih =>
    rw [dropSemicolons, if_pos hsemicolon, closing_cons, ih, doubleClosing_cons, doubleClosing_cons,
      prefix_units_cons]
    simp [hsemicolon]
  | case2 p q placed hsemicolon ih =>
    rw [dropSemicolons_cons hsemicolon, closing_cons, ih, doubleClosing_cons (p := p)]
    refine or_congr (and_congr_right fun hp => ?_) .rfl
    exact prefix_dropSemicolons fun hq => hsemicolon ⟨hp, hq⟩
  | case3 placed hshort =>
    have hnot := not_closing_of_length (length_le_one hshort)
    rw [dropSemicolons]
    · exact iff_of_false hnot fun hdouble => hnot (.of_double hdouble)
    · exact hshort

theorem closing_spaced (previous : List Char) : Closing (spaced previous placed) ↔ Closing placed := by
  rw [Closing, Closing, units_spaced]

/-- A gap that is written as one blank, or not at all, is so written again. -/
theorem spaced_spaced (previous : List Char) (placed : List Placed) :
    spaced previous (spaced previous placed) = spaced previous placed := by
  induction placed generalizing previous with
  | nil => rfl
  | cons p placed ih =>
    have hspacing : spacing previous ⟨spacing previous p, p.unit⟩ = spacing previous p := by
      by_cases h : p.gap ≠ [] ∧ Apart previous p.unit
      · simp [spacing, h]
      · simp [spacing, if_neg h]
    rw [spaced, spaced, hspacing, ih]

/-- What a second pass finds: no blank and no comment to drop, and a `;` in front of a `}` only where
there were two. -/
structure SecondPass (css : String) (placed others : List Placed) (trailing : List Char) : Prop where
  reading : Lexing css.toList placed trailing
  rereading : Lexing (minify css).toList others []
  tight : spaced [] others = others
  closing : Closing others ↔ DoubleClosing placed
  unchanged : minify (minify css) = minify css ↔ ¬DoubleClosing placed

theorem minify_again (css : String) :
    ∃ placed others trailing, SecondPass css placed others trailing := by
  obtain ⟨placed, trailing, h⟩ := exists_lexing css.toList
  obtain ⟨_, hdropped, -, -⟩ := h.dropSemicolons
  have hread := hdropped.spaced []
  rw [← toList_minify h] at hread
  have htight := spaced_spaced [] (dropSemicolons placed)
  have hclosing : Closing (spaced [] (dropSemicolons placed)) ↔ DoubleClosing placed :=
    (closing_spaced []).trans closing_dropSemicolons
  generalize spaced [] (dropSemicolons placed) = others at hread htight hclosing
  refine ⟨placed, others, trailing, h, hread, htight, hclosing, ?_⟩
  rw [← hclosing, ← String.toList_inj, toList_minify hread]
  constructor
  · -- what was read once more would be both shorter and the same
    intro heq hothers
    obtain ⟨_, hagain, -, -⟩ := hread.dropSemicolons
    have hreadAgain := hagain.spaced []
    rw [heq] at hreadAgain
    have hlength := congrArg List.length (hreadAgain.unique hread).1
    rw [length_spaced] at hlength
    exact Nat.ne_of_lt (length_dropSemicolons_lt hothers) hlength
  · intro hothers
    rw [dropSemicolons_eq_self hothers, htight, hread.split, List.append_nil]

/-- Two semicolons in front of a `}`: the first pass leaves one of them. -/
theorem minify_again_ne : minify (minify "a{b:c;;}") ≠ minify "a{b:c;;}" := by
  have hfirst : minify "a{b:c;;}" = "a{b:c;}" := by cbv
  have hsecond : minify "a{b:c;}" = "a{b:c}" := by cbv
  rw [hfirst, hsecond]
  decide

end StyleTemplate.Minify
