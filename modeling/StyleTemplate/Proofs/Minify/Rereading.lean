import StyleTemplate.Proofs.Minify.Writing

/-! What `minify` writes, read again: it falls into the units that were written, no character of
which is lost or moved (`minified_minify`). -/

namespace StyleTemplate.Minify

variable {text rest other gap unit trailing : List Char} {placed : List Placed}

/-! ### Parts of a text in front of another rest -/

theorem Comment.congr (h : Comment text rest) (hrest : rest = [] → other = []) :
    Comment text other := by
  cases h with
  | closed inside => exact .closed inside
  | unclosed inside =>
    rw [hrest rfl]
    exact .unclosed inside

theorem Quotation.congr {quote : Char} (h : Quotation quote text rest)
    (hrest : rest = [] → other = []) : Quotation quote text other := by
  induction h with
  | close => exact .close
  | plain quote_ne escape _ ih => exact .plain quote_ne escape (ih hrest)
  | escaped _ ih => exact .escaped (ih hrest)
  | unclosed =>
    rw [hrest rfl]
    exact .unclosed
  | dangling =>
    rw [hrest rfl]
    exact .dangling

/-- A gap is one in front of any other text, unless the end of the text ends it. -/
theorem Gap.congr (h : Gap gap rest) (hrest : rest = [] → other = []) : Gap gap other := by
  induction h with
  | nil => exact .nil
  | blank blank _ ih => exact .blank blank (ih hrest)
  | comment comment _ ih =>
    refine .comment (comment.congr fun hnil => ?_) (ih hrest)
    obtain ⟨rfl, hnil⟩ := List.append_eq_nil_iff.mp hnil
    exact hrest hnil

/-- A unit is one in front of any other text, unless the end of the text ends it or it is a `/` that
would open a comment. -/
theorem IsUnit.congr (h : IsUnit unit rest) (hrest : rest = [] → other = [])
    (hslash : unit = ['/'] → other.head? = some '*' → rest.head? = some '*') :
    IsUnit unit other := by
  cases h with
  | string opens quotation => exact .string opens (quotation.congr hrest)
  | char quote blank comment =>
    refine .char quote blank ?_
    rintro rfl hstar
    exact comment rfl (hslash rfl hstar)

theorem Gap.append {front : List Char} (hfront : Gap front rest) (h : Gap gap rest)
    (hne : rest ≠ []) : Gap (front ++ gap) rest := by
  induction hfront with
  | nil => exact h
  | blank blank _ ih => exact .blank blank (ih h hne)
  | comment comment _ ih =>
    rw [List.append_assoc]
    refine .comment (comment.congr fun hnil => ?_) (ih h hne)
    exact (hne (List.append_eq_nil_iff.mp hnil).2).elim

/-- No gap begins with `*`. -/
theorem Gap.head?_append (h : Gap gap rest) (hstar : (gap ++ other).head? = some '*') :
    gap = [] ∧ other.head? = some '*' := by
  cases h with
  | nil => exact ⟨rfl, hstar⟩
  | @blank c _ _ blank =>
    obtain rfl : c = '*' := Option.some.inj hstar
    exact absurd blank (by decide)
  | comment comment =>
    obtain ⟨body, rfl, -⟩ := comment.reads
    exact absurd hstar (by simp)

namespace Lexing

/-- Without the semicolons in front of `}` a stylesheet still reads as the units that it has left. -/
theorem dropSemicolons (h : Lexing text placed trailing) :
    ∃ other, Lexing other (Minify.dropSemicolons placed) trailing ∧ (text = [] → other = []) ∧
      (other.head? = some '*' → text.head? = some '*') := by
  induction placed using Minify.dropSemicolons.induct generalizing text with
  | case1 p q placed hsemicolon ih =>
    obtain ⟨hp, hq⟩ := hsemicolon
    cases h with
    | @unit gap unit _ _ _ hgap hunit h =>
      cases h with
      | @unit next brace rest _ _ hnext hbrace h =>
        obtain ⟨other, hother, hnil, -⟩ := ih h
        subst hp hq
        rw [Minify.dropSemicolons, if_pos ⟨rfl, rfl⟩]
        have hfront : Gap gap ('}' :: other) := hgap.congr (by simp)
        have hback : Gap next ('}' :: other) := hnext.congr (by simp)
        have hall := hfront.append hback (by simp)
        refine ⟨_, .unit hall (hbrace.congr hnil (by simp)) hother, by simp, fun hstar => ?_⟩
        exact absurd (hall.head?_append hstar).2 (by simp)
  | case2 p q placed hsemicolon ih =>
    cases h with
    | @unit gap unit rest _ _ hgap hunit h =>
      obtain ⟨other, hother, hnil, hhead⟩ := ih h
      rw [dropSemicolons_cons hsemicolon]
      have hfront : Gap gap (unit ++ other) := hgap.congr (by simp [hunit.ne_nil])
      refine ⟨_, .unit hfront (hunit.congr hnil fun _ => hhead) hother, by simp [hunit.ne_nil],
        fun hstar => ?_⟩
      obtain ⟨rfl, hstar⟩ := hgap.head?_append hstar
      simpa [List.head?_append, hunit.ne_nil] using hstar
  | case3 placed hshort =>
    refine ⟨text, ?_, id, id⟩
    rwa [Minify.dropSemicolons]
    exact hshort

theorem eq_nil (h : Lexing [] placed trailing) : placed = [] := by
  generalize htext : ([] : List Char) = text at h
  cases h with
  | done => rfl
  | unit _ hunit => exact (hunit.ne_nil (by simp_all)).elim

/-- A `/` and a `*` that stand apart are written apart. -/
theorem head?_spaced_slash (h : Lexing text placed trailing)
    (hstar : (joined (Minify.spaced ['/'] placed)).head? = some '*') : text.head? = some '*' := by
  cases h with
  | done => exact nomatch hstar
  | @unit gap unit rest _ _ _ hunit =>
    obtain ⟨c, cs, rfl⟩ := List.exists_cons_of_ne_nil hunit.ne_nil
    rw [joined_spaced_cons] at hstar
    by_cases hgap : gap = []
    · subst hgap
      simpa [spacing] using hstar
    · by_cases hapart : Apart ['/'] (c :: cs)
      · rw [spacing, if_pos ⟨hgap, hapart⟩] at hstar
        exact absurd hstar (by simp)
      · rw [spacing, if_neg fun hs => hapart hs.2] at hstar
        obtain rfl : c = '*' := Option.some.inj hstar
        exact (hapart ((apart_iff rfl rfl).mpr (by decide))).elim

/-- With its gaps as they are written a stylesheet reads as the units that it has. -/
theorem spaced (h : Lexing text placed trailing) (previous : List Char) :
    Lexing (joined (Minify.spaced previous placed)) (Minify.spaced previous placed) [] := by
  induction h generalizing previous with
  | done => exact .done .nil
  | unit hgap hunit htail ih =>
    rw [joined_spaced_cons]
    refine .unit ?_ (hunit.congr ?_ ?_) (ih _)
    · unfold spacing
      split
      · exact .blank (by decide) .nil
      · exact .nil
    · rintro rfl
      rw [htail.eq_nil]
      rfl
    · rintro rfl hstar
      exact htail.head?_spaced_slash hstar

end Lexing

/-! ### What is left of a stylesheet -/

/-- Only semicolons are dropped, and the others stay in their order. -/
theorem units_dropSemicolons (placed : List Placed) :
    (units (dropSemicolons placed)).Sublist (units placed) ∧
      (units (dropSemicolons placed)).filter (· ≠ [';']) = (units placed).filter (· ≠ [';']) := by
  induction placed using dropSemicolons.induct with
  | case1 p q placed hsemicolon ih =>
    obtain ⟨hp, hq⟩ := hsemicolon
    obtain ⟨order, kept⟩ := ih
    rw [dropSemicolons, if_pos ⟨hp, hq⟩]
    refine ⟨.cons _ (.cons_cons _ order), ?_⟩
    simpa [units, hp, hq] using kept
  | case2 p q placed hsemicolon ih =>
    obtain ⟨order, kept⟩ := ih
    rw [dropSemicolons_cons hsemicolon]
    refine ⟨.cons_cons _ order, ?_⟩
    simp only [units, List.map_cons, List.filter_cons] at kept ⊢
    rw [kept]
  | case3 placed hshort =>
    rw [dropSemicolons]
    · exact ⟨.refl _, rfl⟩
    · exact hshort

/-- `output` is what is left of `css`: its units, but for one `;` in front of every `}`, with a blank
for a gap that both its neighbours need. -/
structure Minified (css output : List Char) (placed : List Placed) (trailing : List Char) : Prop where
  reading : Lexing css placed trailing
  only : ∀ others behind, Lexing css others behind → others = placed ∧ behind = trailing
  lossless : css = joined placed ++ trailing
  written : output = joined (spaced [] (dropSemicolons placed))
  order : (units (dropSemicolons placed)).Sublist (units placed)
  kept : (units (dropSemicolons placed)).filter (· ≠ [';']) = (units placed).filter (· ≠ [';'])
  rereading : Lexing output (spaced [] (dropSemicolons placed)) []
  same : ∀ others behind, Lexing output others behind → units others = units (dropSemicolons placed)

/-- Every stylesheet is minified so. -/
theorem minified_minify (css : String) :
    ∃ placed trailing, Minified css.toList (minify css).toList placed trailing := by
  obtain ⟨placed, trailing, h⟩ := exists_lexing css.toList
  obtain ⟨order, kept⟩ := units_dropSemicolons placed
  obtain ⟨other, hdropped, -, -⟩ := h.dropSemicolons
  have hwritten := toList_minify h
  have hread := hdropped.spaced []
  rw [← hwritten] at hread
  refine ⟨placed, trailing, h, fun others behind hothers => hothers.unique h, h.split, hwritten, order,
    kept, hread, fun others behind hothers => ?_⟩
  rw [(hothers.unique hread).1, units_spaced]

end StyleTemplate.Minify
