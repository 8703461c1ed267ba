import StyleTemplate.Proofs.Minify.Lexing

/-! What is written of a stylesheet: its units, but for one `;` in front of every `}`, and a blank
for a gap that both its neighbours need. This is what `minify` writes (`toList_minify`). -/

namespace StyleTemplate.Minify

open Text (isBlank isQuote)

/-- Whether two units, one behind the other, need a blank between them. -/
def Apart (front back : List Char) : Prop :=
  ∃ c ∈ front.getLast?, ∃ d ∈ back.head?,
    c ∉ ['{', '}', ';', ':', ',', '>', '('] ∧ d ∉ ['{', '}', ';', ',', '>', ')']

instance (front back : List Char) : Decidable (Apart front back) :=
  inferInstanceAs (Decidable (∃ c ∈ front.getLast?, ∃ d ∈ back.head?, c ∉ _ ∧ d ∉ _))

/-- Without the `;` that stands directly in front of a `}`, for every `}`. The gaps around it become
one. -/
def dropSemicolons : List Placed → List Placed
  | p :: q :: rest =>
    if p.unit = [';'] ∧ q.unit = ['}'] then ⟨p.gap ++ q.gap, q.unit⟩ :: dropSemicolons rest
    else p :: dropSemicolons (q :: rest)
  | rest => rest

/-- The gap that is written for a gap between `previous` and a unit. -/
def spacing (previous : List Char) (p : Placed) : List Char :=
  if p.gap ≠ [] ∧ Apart previous p.unit then [' '] else []

/-- The units behind `previous`, with the gaps as they are written. -/
def spaced (previous : List Char) : List Placed → List Placed
  | [] => []
  | p :: rest => ⟨spacing previous p, p.unit⟩ :: spaced p.unit rest

variable {gap unit rest previous output : List Char} {pending : Bool} {p q : Placed}
  {placed : List Placed}

theorem joined_spaced_cons : joined (spaced previous (p :: placed)) =
    spacing previous p ++ (p.unit ++ joined (spaced p.unit placed)) := by
  simp [joined, spaced]

theorem spacing_nil : spacing [] p = [] := by simp [spacing, Apart]

theorem units_spaced (previous : List Char) (placed : List Placed) :
    units (spaced previous placed) = units placed := by
  induction placed generalizing previous with
  | nil => rfl
  | cons p placed ih => exact congrArg (p.unit :: ·) (ih p.unit)

theorem length_spaced (previous : List Char) (placed : List Placed) :
    (spaced previous placed).length = placed.length := by
  simpa [units] using congrArg List.length (units_spaced previous placed)

/-! ### One step of the writer -/

theorem minifyFrom_gap (h : Gap gap rest) (output : List Char) (pending : Bool) :
    minifyFrom output pending (gap ++ rest) =
      minifyFrom output (pending || !gap.isEmpty) rest := by
  induction h generalizing pending with
  | nil => simp
  | @blank c gap rest blank _ ih =>
    rw [List.cons_append, minifyFrom, if_pos blank, ih]
    · simp
    · rintro _ rfl
      exact absurd blank (by decide)
  | comment comment _ ih =>
    obtain ⟨body, rfl, hread⟩ := comment.reads
    rw [List.append_assoc, List.cons_append, List.cons_append, minifyFrom, hread, ih]
    simp

theorem dropSemicolon_of_ne {c : Char} (h : c ≠ '}') : dropSemicolon output c = output := by
  unfold dropSemicolon
  split
  · rw [if_neg h]
  · rfl

theorem minifyFrom_unit {c : Char} {cs : List Char} (h : IsUnit (c :: cs) rest) :
    minifyFrom output pending (c :: cs ++ rest) =
      minifyFrom (cs.reverse ++ c :: dropSemicolon (closeGap output pending c) c) false rest := by
  have hblank : ¬isBlank c := h.tight.blank c rfl
  have hopening : ¬['/', '*'] <+: c :: cs ++ rest := h.tight.comment
  rw [List.cons_append, minifyFrom, if_neg hblank]
  · cases h with
    | string opens quotation =>
      have hread := takeString_of_quotation (ne_of_isQuote opens (by decide)) quotation
      rw [if_pos opens, hread, dropSemicolon_of_ne (ne_of_isQuote opens (by decide))]
    | char quote =>
      rw [if_neg quote]
      rfl
  · rintro tail rfl htail
    rw [List.cons_append, htail] at hopening
    exact hopening ⟨tail, rfl⟩

theorem apart_iff {front back : List Char} {c d : Char} (hfront : front.getLast? = some c)
    (hback : back.head? = some d) : Apart front back ↔ c ∉ tightAfter ∧ d ∉ tightBefore := by
  simp only [Apart, hfront, hback, Option.mem_some_iff, exists_eq_left']
  rfl

/-- Between two units the writer closes a gap as `spacing` says. -/
theorem closeGap_eq {c : Char} {cs : List Char} (hprevious : previous ≠ []) (hunit : p.unit = c :: cs) :
    closeGap (previous.reverse ++ output) (!p.gap.isEmpty) c =
      (spacing previous p).reverse ++ (previous.reverse ++ output) := by
  obtain ⟨last, front, hback⟩ := List.exists_cons_of_ne_nil (List.reverse_ne_nil_iff.mpr hprevious)
  have hlast : previous.getLast? = some last := by rw [← List.head?_reverse, hback]; rfl
  have hneeded : (!p.gap.isEmpty && !tightBefore.contains c && !tightAfter.contains last) = true ↔
      p.gap ≠ [] ∧ Apart previous p.unit := by
    rw [apart_iff hlast (show p.unit.head? = some c by rw [hunit]; rfl)]
    simp only [Bool.and_eq_true, Bool.not_eq_true', List.isEmpty_eq_false_iff, and_assoc,
      List.contains_eq_mem, decide_eq_false_iff_not]
    exact and_congr_right fun _ => and_comm
  rw [hback, List.cons_append, closeGap]
  simp only [hneeded, spacing]
  split
  · rfl
  · rfl

/-- A string that ends before the text does ends with its quote. -/
theorem Quotation.getLast? {quote : Char} {text : List Char} (h : Quotation quote text rest)
    (hrest : rest ≠ []) : text.getLast? = some quote := by
  induction h with
  | close => rfl
  | plain _ _ _ ih => rw [List.getLast?_cons, ih hrest]; rfl
  | escaped _ ih => rw [List.getLast?_cons, List.getLast?_cons, ih hrest]; rfl
  | unclosed => exact (hrest rfl).elim
  | dangling => exact (hrest rfl).elim

theorem IsUnit.eq_of_getLast? {c : Char} (h : IsUnit unit rest) (hrest : rest ≠ [])
    (hlast : unit.getLast? = some c) (hc : ¬isQuote c) : unit = [c] := by
  cases h with
  | string opens quotation =>
    rw [List.getLast?_cons, quotation.getLast? hrest] at hlast
    exact (hc (Option.some.inj hlast ▸ opens)).elim
  | @char d =>
    have hd : d = c := Option.some.inj hlast
    rw [hd]

theorem IsUnit.eq_of_head? {c : Char} (h : IsUnit unit rest) (hhead : unit.head? = some c)
    (hc : ¬isQuote c) : unit = [c] := by
  cases h with
  | string opens => exact (hc (Option.some.inj hhead ▸ opens)).elim
  | char => rw [Option.some.inj hhead]

theorem dropSemicolon_of_head {c : Char} (h : output.head? ≠ some ';') :
    dropSemicolon output c = output := by
  unfold dropSemicolon
  split
  · exact (h rfl).elim
  · rfl

theorem dropSemicolons_cons (h : ¬(p.unit = [';'] ∧ q.unit = ['}'])) :
    dropSemicolons (p :: q :: placed) = p :: dropSemicolons (q :: placed) := by
  rw [dropSemicolons, if_neg h]

theorem dropSemicolons_cons_of_ne (h : p.unit ≠ [';']) :
    dropSemicolons (p :: placed) = p :: dropSemicolons placed := by
  cases placed with
  | nil => rfl
  | cons q placed => exact dropSemicolons_cons fun hp => h hp.1

theorem joined_spaced_eq : joined (spaced previous (p :: placed)) =
    spacing previous p ++ joined (spaced [] (p :: placed)) := by
  rw [joined_spaced_cons, joined_spaced_cons, spacing_nil, List.nil_append]

theorem spacing_of_tightBefore {c : Char} (hunit : p.unit = [c]) (hc : c ∈ tightBefore) :
    spacing previous p = [] := by
  refine if_neg fun h => ?_
  obtain ⟨-, hapart⟩ := h
  obtain ⟨last, hlast, -⟩ := id hapart
  exact ((apart_iff hlast (by rw [hunit]; rfl)).mp hapart).2 hc

/-- A `;` that is dropped needs no blank before it, and so does the `}` in its place. -/
theorem joined_spaced_dropSemicolons : joined (spaced previous (dropSemicolons (q :: placed))) =
    spacing previous q ++ joined (spaced [] (dropSemicolons (q :: placed))) := by
  cases placed with
  | nil => exact joined_spaced_eq
  | cons r placed =>
    by_cases h : q.unit = [';'] ∧ r.unit = ['}']
    · rw [dropSemicolons, if_pos h, joined_spaced_eq, spacing_of_tightBefore h.1 (by decide),
        spacing_of_tightBefore (p := ⟨q.gap ++ r.gap, r.unit⟩) h.2 (by decide)]
    · rw [dropSemicolons_cons h, joined_spaced_eq]

/-- The writer takes a `;` back where a `}` follows it, and nothing else. -/
theorem dropSemicolon_eq {c : Char} {cs : List Char} (hp : IsUnit p.unit (q.gap ++ (q.unit ++ rest)))
    (hq : IsUnit q.unit rest) (hunit : q.unit = c :: cs) (h : ¬(p.unit = [';'] ∧ q.unit = ['}'])) :
    dropSemicolon ((spacing p.unit q).reverse ++ (p.unit.reverse ++ output)) c =
      (spacing p.unit q).reverse ++ (p.unit.reverse ++ output) := by
  by_cases hc : c = '}'
  · subst hc
    have hbrace : q.unit = ['}'] := hq.eq_of_head? (by rw [hunit]; rfl) (by decide)
    refine dropSemicolon_of_head fun hhead => h ⟨?_, hbrace⟩
    rw [spacing_of_tightBefore hbrace (by decide), List.reverse_nil, List.nil_append,
      List.head?_append, List.head?_reverse] at hhead
    rw [List.getLast?_eq_some_getLast hp.ne_nil, Option.some_or] at hhead
    refine hp.eq_of_getLast? (by simp [hunit]) ?_ (by decide)
    rw [List.getLast?_eq_some_getLast hp.ne_nil, hhead]
  · exact dropSemicolon_of_ne hc

/-- What is written of units that are not all there yet, `p` being the last one that is. -/
theorem minifyFrom_lexing {text trailing : List Char} (h : Lexing text placed trailing)
    (hp : IsUnit p.unit text) (output : List Char) :
    minifyFrom (p.unit.reverse ++ output) false text =
      output.reverse ++ joined (spaced [] (dropSemicolons (p :: placed))) := by
  induction h generalizing p output with
  | @done gap hgap =>
    have hend := minifyFrom_gap hgap (p.unit.reverse ++ output) false
    rw [List.append_nil] at hend
    rw [hend, minifyFrom]
    simp [dropSemicolons, spaced, joined, spacing_nil]
  | @unit gap unit rest trailing placed hgap hunit _ ih =>
    obtain ⟨c, cs, rfl⟩ := List.exists_cons_of_ne_nil hunit.ne_nil
    rw [minifyFrom_gap hgap, minifyFrom_unit hunit, Bool.false_or,
      closeGap_eq (p := ⟨gap, c :: cs⟩) hp.ne_nil rfl]
    by_cases hsemicolon : p.unit = [';'] ∧ c :: cs = ['}']
    · obtain ⟨hp', hc⟩ := hsemicolon
      obtain ⟨rfl, rfl⟩ := List.cons.inj hc
      have hbrace := ih (p := ⟨p.gap ++ gap, ['}']⟩) hunit output
      rw [dropSemicolons_cons_of_ne (by simp)] at hbrace
      rw [dropSemicolons, if_pos ⟨hp', rfl⟩, spacing_of_tightBefore rfl (by decide), hp']
      exact hbrace
    · rw [dropSemicolon_eq (q := ⟨gap, c :: cs⟩) hp hunit rfl hsemicolon]
      have hnext := ih (p := ⟨gap, c :: cs⟩) hunit
        ((spacing p.unit ⟨gap, c :: cs⟩).reverse ++ (p.unit.reverse ++ output))
      rw [dropSemicolons_cons hsemicolon, joined_spaced_cons, joined_spaced_dropSemicolons, spacing_nil]
      simp only [List.reverse_append, List.reverse_reverse, List.append_assoc, List.reverse_cons,
        List.singleton_append, List.nil_append] at hnext ⊢
      exact hnext

theorem toList_minify {css : String} {trailing : List Char} (h : Lexing css.toList placed trailing) :
    (minify css).toList = joined (spaced [] (dropSemicolons placed)) := by
  rw [minify, String.toList_ofList]
  generalize css.toList = text at h
  cases h with
  | done hgap =>
    have hend := minifyFrom_gap hgap [] false
    rw [List.append_nil] at hend
    rw [hend, minifyFrom]
    rfl
  | @unit gap unit rest _ placed hgap hunit hrest =>
    obtain ⟨c, cs, rfl⟩ := List.exists_cons_of_ne_nil hunit.ne_nil
    have hfirst := minifyFrom_lexing (p := ⟨gap, c :: cs⟩) hrest hunit []
    rw [minifyFrom_gap hgap, minifyFrom_unit hunit]
    simpa [closeGap, dropSemicolon] using hfirst

end StyleTemplate.Minify
