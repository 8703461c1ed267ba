import StyleTemplate.Proofs.Grammar.Segments

/-! How a scan gets on in a source of any size. It goes on where the span of a placeholder stops, and
spans hold offsets up to `Span.limit`: a placeholder that runs past the limit is read again in part, and
one that begins there is read for ever. So a scan ends without yielding a byte twice exactly when no
placeholder runs past the limit; it ends at all exactly when that is so or none begins behind the
limit (`orderly_iff`). -/

namespace StyleTemplate

open Text (byteSize dropBytes?)
open Grammar (Begins NoSigil Reading)

theorem PlaceholderText.byteSize_written_pos (p : PlaceholderText) : 0 < byteSize p.written :=
  Text.byteSize_pos (List.cons_ne_nil _ _)

theorem Grammar.Begins.append_ne_nil {before text after : List Char} {p : PlaceholderText}
    (h : Begins text p after) : before ++ text ≠ [] := by
  rw [h.split]
  exact List.append_ne_nil_of_right_ne_nil _ (List.cons_ne_nil _ _)

/-- What stands before a placeholder, and the placeholder, are what stands before the rest. -/
theorem Grammar.Begins.split_behind {source front before text after : List Char}
    {p : PlaceholderText} (h : Begins text p after) (hsource : source = front ++ (before ++ text)) :
    ∃ read, source = read ++ after ∧
      byteSize read = byteSize front + byteSize before + byteSize p.written := by
  refine ⟨front ++ (before ++ p.written), ?_, ?_⟩
  · rw [hsource, h.split]
    simp only [List.append_assoc]
  · simp only [Text.byteSize_append, Nat.add_assoc]

/-- A segment that a scan yields, with the stretch of the source it was read from. -/
structure Piece where
  start : Nat
  text : List Char
  segment : Segment

namespace Piece

def stop (piece : Piece) : Nat := piece.start + byteSize piece.text

/-- Byte `n` of the source is yielded with the piece. -/
def Covers (piece : Piece) (n : Nat) : Prop := piece.start ≤ n ∧ n < piece.stop

/-- No byte is yielded with both pieces. -/
def Apart (a b : Piece) : Prop := ∀ n, a.Covers n → ¬b.Covers n

/-- If the piece is a placeholder, reading goes on strictly behind its `$`: its span stops there, and
that is where reading goes on (`Cursor.position_next?`). -/
def Onward (piece : Piece) : Prop :=
  ∀ p, piece.segment = .placeholder p → piece.start < p.span.stop

/-- The piece of some plain text from byte `start` on, if there is any. -/
def plain (start : Nat) (cs : List Char) : List Piece :=
  if cs = [] then [] else [⟨start, cs, .text cs (Span.ofBounds start (start + byteSize cs))⟩]

/-- The placeholder whose `$` is at byte `start`. -/
def ofPlaceholder (start : Nat) (p : PlaceholderText) : Piece :=
  ⟨start, p.written, .placeholder (p.locate start)⟩

theorem map_plain (start : Nat) (cs : List Char) :
    (plain start cs).map Piece.segment = Segment.plain start cs := by
  rw [plain, Segment.plain]
  split <;> rfl

theorem length_plain_le (start : Nat) (cs : List Char) : (plain start cs).length ≤ cs.length := by
  rw [plain]
  split
  · exact Nat.zero_le _
  · rename_i hcs
    exact List.length_pos_iff.mpr hcs

/-- A placeholder leads onward exactly when its `$` is not at the limit or behind it. -/
theorem onward_iff {start : Nat} {p : PlaceholderText} :
    (ofPlaceholder start p).Onward ↔ start < Span.limit := by
  have hstop : (p.locate start).span.stop = min (start + byteSize p.written) Span.limit :=
    Span.stop_ofBounds_eq (Nat.le_add_right _ _)
  have hpos := p.byteSize_written_pos
  constructor
  · intro h
    have hlt : start < (p.locate start).span.stop := h _ rfl
    omega
  · intro h q hq
    obtain rfl : p.locate start = q := Segment.placeholder.inj hq
    change start < (p.locate start).span.stop
    omega

end Piece

/-- What the next step yields. -/
def Cursor.pieces (cursor : Cursor) : List Piece :=
  match findPlaceholder? cursor.rest with
  | none => Piece.plain cursor.position cursor.rest
  | some (before, p, _) =>
    Piece.plain cursor.position before ++ [Piece.ofPlaceholder (cursor.position + byteSize before) p]

/-- The steps from a place on yield `pieces`, and the last of them comes to the end of the source. A
place inside a character is no end, though nothing can be read from there. -/
inductive Scan (source : List Char) : Cursor → List Piece → Prop where
  | done : Scan source ⟨byteSize source, []⟩ []
  | step {cursor next : Cursor} {pieces : List Piece}
      (goes : cursor.next? source = some (cursor.pieces.map Piece.segment, next)) :
      Scan source next pieces → Scan source cursor (cursor.pieces ++ pieces)

/-- A scan of the source ends and yields `pieces`, goes on behind the `$` of every placeholder, and
yields no byte twice. -/
structure Orderly (source : List Char) (pieces : List Piece) : Prop where
  ends : Scan source ⟨0, source⟩ pieces
  segments : segmentsOf source = pieces.map Piece.segment
  onward : ∀ piece ∈ pieces, piece.Onward
  once : pieces.Pairwise Piece.Apart

/-- No placeholder of a text that begins at byte `start` runs past the limit of spans. -/
inductive Bounded : Nat → List Char → Prop where
  | plain {start : Nat} {cs : List Char} (plain : NoSigil cs []) : Bounded start cs
  | placeholder {start : Nat} {before text after : List Char} {p : PlaceholderText}
      (plain : NoSigil before text) (begins : Begins text p after)
      (stops : start + byteSize before + byteSize p.written ≤ Span.limit) :
      Bounded (start + byteSize before + byteSize p.written) after → Bounded start (before ++ text)

/-- A character of the source begins at the limit of spans, or the source ends there, and no
placeholder begins from there on. -/
def ClearBehind (source : List Char) : Prop :=
  ∃ front back, source = front ++ back ∧ byteSize front = Span.limit ∧ NoSigil back []

/-- Induction along the placeholders of a text. -/
@[elab_as_elim]
theorem placeholder_induction {motive : List Char → Prop} (plain : ∀ cs, NoSigil cs [] → motive cs)
    (placeholder : ∀ before text p after, NoSigil before text → Begins text p after →
      motive after → motive (before ++ text)) (cs : List Char) : motive cs := by
  induction hn : cs.length using Nat.strongRecOn generalizing cs with
  | _ n ih =>
    subst hn
    cases hfind : findPlaceholder? cs with
    | none => exact plain cs (Grammar.findPlaceholder?_eq_none hfind)
    | some found =>
      obtain ⟨before, p, after⟩ := found
      obtain ⟨text, rfl, hplain, hbegins⟩ := Grammar.findPlaceholder?_eq_some hfind
      refine placeholder before text p after hplain hbegins (ih _ ?_ after rfl)
      rw [hbegins.split, List.length_append, List.length_append]
      have : 0 < p.written.length := Nat.zero_lt_succ _
      omega

/-! ### One step -/

namespace Cursor

variable {source before text after : List Char} {p : PlaceholderText} {position : Nat}

theorem pieces_plain {cs : List Char} (h : NoSigil cs []) :
    pieces ⟨position, cs⟩ = Piece.plain position cs := by
  rw [pieces, Grammar.findPlaceholder?_eq_none_iff.mpr h]

theorem pieces_placeholder (hplain : NoSigil before text) (h : Begins text p after) :
    pieces ⟨position, before ++ text⟩ =
      Piece.plain position before ++ [Piece.ofPlaceholder (position + byteSize before) p] := by
  rw [pieces, Grammar.findPlaceholder?_append hplain h]

theorem rest_ne_nil {cursor : Cursor} {step : List Segment × Cursor}
    (h : cursor.next? source = some step) : cursor.rest ≠ [] := by
  intro hrest
  rw [next?, if_pos hrest] at h
  cases h

theorem pieces_ne_nil {cursor : Cursor} (h : cursor.rest ≠ []) : cursor.pieces ≠ [] := by
  rw [pieces]
  split
  · rw [Piece.plain, if_neg h]
    exact List.cons_ne_nil _ _
  · exact List.append_ne_nil_of_right_ne_nil _ (List.cons_ne_nil _ _)

theorem next?_plain {cs : List Char} (hne : cs ≠ []) (h : NoSigil cs []) :
    next? source ⟨position, cs⟩ = some ((pieces ⟨position, cs⟩).map Piece.segment,
      ⟨position + byteSize cs, []⟩) := by
  rw [pieces_plain h, Piece.map_plain, next?, if_neg hne, Grammar.findPlaceholder?_eq_none_iff.mpr h]

/-- Up to the limit a step goes on right behind the placeholder that it yields. -/
theorem next?_of_le_limit (hplain : NoSigil before text) (h : Begins text p after)
    (hstop : position + byteSize before + byteSize p.written ≤ Span.limit) :
    next? source ⟨position, before ++ text⟩ =
      some ((pieces ⟨position, before ++ text⟩).map Piece.segment,
        ⟨position + byteSize before + byteSize p.written, after⟩) := by
  have hspan : (p.locate (position + byteSize before)).span.stop =
      position + byteSize before + byteSize p.written :=
    Span.stop_ofBounds (Nat.le_add_right _ _) hstop
  rw [pieces_placeholder hplain h, List.map_append, Piece.map_plain, next?,
    if_neg h.append_ne_nil, Grammar.findPlaceholder?_append hplain h]
  simp only [hspan, if_true]
  rfl

/-- A step that yields a placeholder past the limit goes on at the limit. -/
theorem next?_of_limit_lt (hplain : NoSigil before text) (h : Begins text p after)
    (hstop : Span.limit < position + byteSize before + byteSize p.written) :
    next? source ⟨position, before ++ text⟩ =
      some ((pieces ⟨position, before ++ text⟩).map Piece.segment, seek source Span.limit) := by
  have hspan : (p.locate (position + byteSize before)).span.stop = Span.limit := by
    refine (Span.stop_ofBounds_eq (Nat.le_add_right _ _)).trans (Nat.min_eq_right ?_)
    exact Nat.le_of_lt hstop
  rw [pieces_placeholder hplain h, List.map_append, Piece.map_plain, next?,
    if_neg h.append_ne_nil, Grammar.findPlaceholder?_append hplain h]
  simp only [hspan, if_neg (Nat.ne_of_lt hstop)]
  rfl

/-- Reading goes on where the span of the placeholder stops. -/
theorem position_next? {cursor next : Cursor} {found : List Segment} {q : Placeholder}
    (h : cursor.next? source = some (found, next)) (hq : Segment.placeholder q ∈ found) :
    next.position = q.span.stop := by
  have hplain (start : Nat) (cs : List Char) : Segment.placeholder q ∉ Segment.plain start cs := by
    rw [Segment.plain]
    split <;> simp
  rw [next?, if_neg (rest_ne_nil h)] at h
  split at h
  · obtain ⟨rfl, -⟩ := Prod.mk.inj (Option.some.inj h)
    exact (hplain _ _ hq).elim
  · obtain ⟨rfl, rfl⟩ := Prod.mk.inj (Option.some.inj h)
    rcases List.mem_append.mp hq with hq | hq
    · exact (hplain _ _ hq).elim
    · obtain rfl := Segment.placeholder.inj (List.mem_singleton.mp hq)
      split
      · rename_i hstop
        exact hstop.symm
      · rfl

theorem seek_eq {front back : List Char} (hsource : source = front ++ back)
    (hfront : byteSize front = Span.limit) : seek source Span.limit = ⟨Span.limit, back⟩ := by
  rw [seek, ← hfront, hsource, Text.dropBytes?_append, Option.getD_some]

/-- From the limit on, a placeholder is found again and again. -/
theorem next?_seek {front : List Char} (hsource : source = front ++ (before ++ text))
    (hfront : byteSize front = Span.limit) (hplain : NoSigil before text)
    (h : Begins text p after) :
    ∃ found, next? source (seek source Span.limit) = some (found, seek source Span.limit) := by
  rw [seek_eq hsource hfront, ← seek_eq hsource hfront]
  conv => enter [1, _, 1]; rw [seek_eq hsource hfront]
  refine ⟨_, next?_of_limit_lt hplain h ?_⟩
  have := p.byteSize_written_pos
  omega

end Cursor

/-! ### Scans that end -/

namespace Scan

variable {source : List Char} {cursor next : Cursor} {pieces : List Piece} {found : List Segment}

theorem of_next? (h : Scan source cursor pieces) (hnext : cursor.next? source = some (found, next)) :
    ∃ more, pieces = cursor.pieces ++ more ∧ Scan source next more := by
  cases h with
  | done => exact nomatch hnext
  | step goes h =>
    rw [goes] at hnext
    obtain ⟨-, rfl⟩ := Prod.mk.inj (Option.some.inj hnext)
    exact ⟨_, rfl, h⟩

theorem eq_of_rest (h : Scan source cursor pieces) (hrest : cursor.rest = []) :
    cursor.position = byteSize source ∧ pieces = [] := by
  cases h with
  | done => exact ⟨rfl, rfl⟩
  | step goes => exact (Cursor.rest_ne_nil goes hrest).elim

/-- A step that goes nowhere is taken for ever. -/
theorem not_of_next?_self (hnext : cursor.next? source = some (found, cursor)) :
    ¬Scan source cursor pieces := by
  intro h
  induction h generalizing found with
  | done => exact nomatch hnext
  | step goes _ ih =>
    rw [goes] at hnext
    obtain ⟨-, rfl⟩ := Prod.mk.inj (Option.some.inj hnext)
    exact ih goes

/-- Plain text up to the end of the source is read in one step. -/
theorem of_plain {front cs : List Char} (hsource : source = front ++ cs) (h : NoSigil cs []) :
    Scan source ⟨byteSize front, cs⟩ (Piece.plain (byteSize front) cs) := by
  have hend : byteSize source = byteSize front + byteSize cs := by
    rw [hsource, Text.byteSize_append]
  cases cs with
  | nil =>
    rw [Text.byteSize_nil, Nat.add_zero] at hend
    rw [← hend]
    exact .done
  | cons c cs =>
    have hdone : Scan source ⟨byteSize front + byteSize (c :: cs), []⟩ [] := by
      rw [← hend]
      exact .done
    have hscan := Scan.step (Cursor.next?_plain (List.cons_ne_nil c cs) h) hdone
    rwa [Cursor.pieces_plain h, List.append_nil] at hscan

/-- As many steps as there are pieces yield all of them. -/
theorem segments_eq {fuel : Nat} (h : Scan source cursor pieces) (hfuel : pieces.length ≤ fuel) :
    Cursor.segments source fuel cursor = pieces.map Piece.segment := by
  induction h generalizing fuel with
  | done => cases fuel <;> rfl
  | @step cursor next pieces goes _ ih =>
    have hpos : 0 < cursor.pieces.length :=
      List.length_pos_iff.mpr (Cursor.pieces_ne_nil (Cursor.rest_ne_nil goes))
    rw [List.length_append] at hfuel
    obtain ⟨n, rfl⟩ := Nat.exists_eq_succ_of_ne_zero (Nat.ne_of_gt (Nat.lt_of_lt_of_le hpos
      (Nat.le_trans (Nat.le_add_right _ _) hfuel)))
    rw [Cursor.segments, goes, List.map_append]
    exact congrArg _ (ih (by omega))

end Scan

/-- Pieces from byte `start` on, each of them behind the one before it, and all leading onward. -/
inductive Laid : Nat → List Piece → Prop where
  | nil {start : Nat} : Laid start []
  | cons {start : Nat} {piece : Piece} {pieces : List Piece} (begins : start ≤ piece.start)
      (onward : piece.Onward) : Laid piece.stop pieces → Laid start (piece :: pieces)

namespace Laid

variable {start : Nat} {pieces : List Piece}

theorem start_le (h : Laid start pieces) : ∀ piece ∈ pieces, start ≤ piece.start := by
  induction h with
  | nil => simp
  | cons begins _ _ ih =>
    refine List.forall_mem_cons.mpr ⟨begins, fun piece hpiece => ?_⟩
    exact Nat.le_trans (Nat.le_trans begins (Nat.le_add_right _ _)) (ih piece hpiece)

theorem onward (h : Laid start pieces) : ∀ piece ∈ pieces, piece.Onward := by
  induction h with
  | nil => simp
  | cons _ onward _ ih => exact List.forall_mem_cons.mpr ⟨onward, ih⟩

theorem once (h : Laid start pieces) : pieces.Pairwise Piece.Apart := by
  induction h with
  | nil => exact .nil
  | cons _ _ htail ih =>
    refine List.pairwise_cons.mpr ⟨fun piece hpiece n hn hother => ?_, ih⟩
    exact Nat.not_lt_of_le (Nat.le_trans (htail.start_le piece hpiece) hother.1) hn.2

theorem plain_append {cs : List Char} (h : Laid (start + byteSize cs) pieces) :
    Laid start (Piece.plain start cs ++ pieces) := by
  rw [Piece.plain]
  split
  · rename_i hcs
    subst hcs
    exact h
  · exact .cons (Nat.le_refl _) (fun _ hp => nomatch hp) h

end Laid

/-- A source that ends by the limit is bounded, whatever stands in it. -/
theorem bounded_of_le_limit {start : Nat} {cs : List Char} (h : start + byteSize cs ≤ Span.limit) :
    Bounded start cs := by
  induction cs using placeholder_induction generalizing start with
  | plain cs hplain => exact .plain hplain
  | placeholder before text p after hplain hbegins ih =>
    rw [hbegins.split, Text.byteSize_append, Text.byteSize_append] at h
    exact .placeholder hplain hbegins (by omega) (ih (by omega))

/-- Up to the limit a scan reads one stretch of the source behind the other. -/
theorem Bounded.exists_scan {source front cs : List Char} {start : Nat} (h : Bounded start cs)
    (hsource : source = front ++ cs) (hstart : byteSize front = start) :
    ∃ pieces, Scan source ⟨start, cs⟩ pieces ∧ Laid start pieces ∧ pieces.length ≤ cs.length := by
  induction h generalizing front with
  | plain hplain =>
    subst hstart
    refine ⟨_, .of_plain hsource hplain, ?_, Piece.length_plain_le _ _⟩
    rw [← List.append_nil (Piece.plain _ _)]
    exact .plain_append .nil
  | @placeholder start before text after p hplain hbegins hstops _ ih =>
    obtain ⟨read, hread, hsize⟩ := hbegins.split_behind hsource
    rw [hstart] at hsize
    obtain ⟨more, hscan, hlaid, hlength⟩ := ih hread hsize
    refine ⟨_, .step (Cursor.next?_of_le_limit hplain hbegins hstops) hscan, ?_, ?_⟩
    · have hbelow : start + byteSize before < Span.limit := by
        have := p.byteSize_written_pos
        omega
      rw [Cursor.pieces_placeholder hplain hbegins, List.append_assoc]
      exact .plain_append (.cons (Nat.le_refl _) (Piece.onward_iff.mpr hbelow) hlaid)
    · have hbefore := Piece.length_plain_le start before
      have hwritten : 0 < p.written.length := Nat.zero_lt_succ _
      rw [Cursor.pieces_placeholder hplain hbegins, hbegins.split]
      simp only [List.length_append, List.length_singleton]
      omega

/-- Where nothing is to be read behind the limit, a scan ends that has come there. -/
theorem ClearBehind.exists_scan {source front cs : List Char} (h : ClearBehind source)
    (hsource : source = front ++ cs) : ∃ pieces, Scan source ⟨byteSize front, cs⟩ pieces := by
  induction cs using placeholder_induction generalizing front with
  | plain cs hplain => exact ⟨_, .of_plain hsource hplain⟩
  | placeholder before text p after hplain hbegins ih =>
    by_cases hstop : byteSize front + byteSize before + byteSize p.written ≤ Span.limit
    · obtain ⟨read, hread, hsize⟩ := hbegins.split_behind hsource
      obtain ⟨more, hmore⟩ := ih hread
      rw [hsize] at hmore
      exact ⟨_, .step (Cursor.next?_of_le_limit hplain hbegins hstop) hmore⟩
    · obtain ⟨clear, back, hback, hclear, hnothing⟩ := h
      have hmore : Scan source ⟨byteSize clear, back⟩ _ := .of_plain hback hnothing
      rw [hclear, ← Cursor.seek_eq hback hclear] at hmore
      exact ⟨_, .step (Cursor.next?_of_limit_lt hplain hbegins (Nat.lt_of_not_le hstop)) hmore⟩

/-- Up to the limit the segments of a source are its reading by the grammar. -/
theorem Bounded.reading {source cs : List Char} {start fuel : Nat} (h : Bounded start cs)
    (hfuel : cs.length ≤ fuel) : Reading start cs (Cursor.segments source fuel ⟨start, cs⟩) := by
  induction h generalizing fuel with
  | @plain start cs hplain =>
    cases fuel with
    | zero =>
      rw [List.length_eq_zero_iff.mp (Nat.le_zero.mp hfuel)]
      exact .nil
    | succ fuel =>
      by_cases hcs : cs = []
      · subst hcs
        exact .nil
      · have hend : Cursor.segments source fuel ⟨start + byteSize cs, []⟩ = [] := by
          cases fuel <;> rfl
        have hreading : Reading start (cs ++ []) (Segment.plain start cs ++ []) :=
          .plain hplain (.inl rfl) .nil
        rw [List.append_nil cs] at hreading
        rw [Cursor.segments, Cursor.next?_plain hcs hplain, Cursor.pieces_plain hplain,
          Piece.map_plain]
        simp only [hend]
        exact hreading
  | @placeholder start before text after p hplain hbegins hstops _ ih =>
    rw [hbegins.split, List.length_append, List.length_append] at hfuel
    have hwritten : 0 < p.written.length := Nat.zero_lt_succ _
    obtain ⟨fuel, rfl⟩ : ∃ n, fuel = n + 1 := ⟨fuel - 1, by omega⟩
    rw [Cursor.segments, Cursor.next?_of_le_limit hplain hbegins hstops,
      Cursor.pieces_placeholder hplain hbegins, List.map_append, Piece.map_plain]
    simp only [List.append_assoc]
    exact .plain hplain (.inr hbegins.sigil) (.placeholder hbegins (ih (by omega)))

theorem reading_segmentsOf_of_bounded {source : List Char} (h : Bounded 0 source) :
    Reading 0 source (segmentsOf source) :=
  h.reading (Nat.le_refl _)

namespace Scan

variable {source front cs : List Char} {pieces : List Piece}

/-- A scan that is sent back to the limit ends only if all the rest is plain text. -/
theorem of_seek (h : Scan source (.seek source Span.limit) pieces)
    (hlimit : Span.limit < byteSize source) :
    ∃ front back, source = front ++ back ∧ byteSize front = Span.limit ∧ NoSigil back [] ∧
      pieces = Piece.plain Span.limit back := by
  cases hdrop : dropBytes? Span.limit source with
  | none =>
    have hrest : (Cursor.seek source Span.limit).rest = [] := by rw [Cursor.seek, hdrop]; rfl
    exact absurd (h.eq_of_rest hrest).1 (Nat.ne_of_lt hlimit)
  | some back =>
    obtain ⟨front, hsource, hfront⟩ := Text.eq_of_dropBytes? hdrop
    cases hfind : findPlaceholder? back with
    | none =>
      have hplain := Grammar.findPlaceholder?_eq_none hfind
      refine ⟨front, back, hsource, hfront, hplain, ?_⟩
      have hne : back ≠ [] := by
        rintro rfl
        rw [hsource, List.append_nil, hfront] at hlimit
        exact Nat.lt_irrefl _ hlimit
      rw [Cursor.seek_eq hsource hfront] at h
      obtain ⟨more, rfl, hmore⟩ := h.of_next? (Cursor.next?_plain hne hplain)
      rw [(hmore.eq_of_rest rfl).2, List.append_nil, Cursor.pieces_plain hplain]
    | some found =>
      obtain ⟨before, p, after⟩ := found
      obtain ⟨text, rfl, hplain, hbegins⟩ := Grammar.findPlaceholder?_eq_some hfind
      obtain ⟨found, hnext⟩ := Cursor.next?_seek hsource hfront hplain hbegins
      exact (not_of_next?_self hnext h).elim

/-- A scan that ends although a placeholder runs past the limit yields some bytes twice. -/
theorem bounded_or_repeats (h : Scan source ⟨byteSize front, cs⟩ pieces)
    (hsource : source = front ++ cs) :
    Bounded (byteSize front) cs ∨ ClearBehind source ∧ ¬pieces.Pairwise Piece.Apart := by
  induction cs using placeholder_induction generalizing front pieces with
  | plain cs hplain => exact .inl (.plain hplain)
  | placeholder before text p after hplain hbegins ih =>
    by_cases hstop : byteSize front + byteSize before + byteSize p.written ≤ Span.limit
    · obtain ⟨more, rfl, hmore⟩ := h.of_next? (Cursor.next?_of_le_limit hplain hbegins hstop)
      obtain ⟨read, hread, hsize⟩ := hbegins.split_behind hsource
      rw [← hsize] at hmore
      rcases ih hmore hread with hbounded | ⟨hclear, hrepeats⟩
      · rw [hsize] at hbounded
        exact .inl (.placeholder hplain hbegins hstop hbounded)
      · exact .inr ⟨hclear, fun honce => hrepeats (List.pairwise_append.mp honce).2.1⟩
    · rw [Nat.not_le] at hstop
      obtain ⟨more, rfl, hmore⟩ := h.of_next? (Cursor.next?_of_limit_lt hplain hbegins hstop)
      have hsize : byteSize source = byteSize front +
          (byteSize before + (byteSize p.written + byteSize after)) := by
        rw [hsource, hbegins.split]
        simp only [Text.byteSize_append]
      obtain ⟨clear, back, hback, hclear, hnothing, rfl⟩ := hmore.of_seek (by omega)
      refine .inr ⟨⟨clear, back, hback, hclear, hnothing⟩, fun honce => ?_⟩
      -- the placeholder and the text from the limit on have the later of their first bytes in common
      have hend : byteSize source = Span.limit + byteSize back := by
        rw [hback, Text.byteSize_append, hclear]
      have hwritten := p.byteSize_written_pos
      have hne : back ≠ [] := by
        rintro rfl
        rw [Text.byteSize_nil] at hend
        omega
      rw [Cursor.pieces_placeholder hplain hbegins, Piece.plain, Piece.plain, if_neg hne] at honce
      refine (List.pairwise_append.mp honce).2.2 _ (List.mem_append_right _ List.mem_cons_self) _
        List.mem_cons_self (max (byteSize front + byteSize before) Span.limit) ?_ ?_
      · simp only [Piece.Covers, Piece.stop, Piece.ofPlaceholder]
        omega
      · simp only [Piece.Covers, Piece.stop]
        omega

end Scan

/-- A scan ends without yielding a byte twice exactly when no placeholder runs past the limit of
spans; it ends at all exactly when that is so or there is no placeholder behind the limit; and a
placeholder leads onward exactly when its `$` is below the limit. -/
theorem orderly_iff (source : List Char) :
    ((∃ pieces, Orderly source pieces) ↔ Bounded 0 source) ∧
      ((∃ pieces, Scan source ⟨0, source⟩ pieces) ↔ Bounded 0 source ∨ ClearBehind source) ∧
      ∀ start p, (Piece.ofPlaceholder start p).Onward ↔ start < Span.limit := by
  have hnothing : source = [] ++ source := rfl
  refine ⟨⟨?_, fun h => ?_⟩, ⟨?_, ?_⟩, fun _ _ => Piece.onward_iff⟩
  · rintro ⟨pieces, h⟩
    rcases h.ends.bounded_or_repeats hnothing with hbounded | ⟨-, hrepeats⟩
    · exact hbounded
    · exact (hrepeats h.once).elim
  · obtain ⟨pieces, hscan, hlaid, hlength⟩ := h.exists_scan hnothing rfl
    exact ⟨pieces, hscan, hscan.segments_eq hlength, hlaid.onward, hlaid.once⟩
  · rintro ⟨pieces, h⟩
    exact (h.bounded_or_repeats hnothing).imp id And.left
  · rintro (h | h)
    · obtain ⟨pieces, hscan, -⟩ := h.exists_scan hnothing rfl
      exact ⟨pieces, hscan⟩
    · exact h.exists_scan hnothing

/-! ### Past the limit -/

/-- A source that begins with a placeholder past the limit, with nothing to be found behind it: what is
behind the limit is yielded once more, as plain text. -/
theorem segmentsOf_past_limit {source front back after : List Char} {p : PlaceholderText}
    (hbegins : Begins source p after) (hlimit : Span.limit < byteSize p.written)
    (hsource : source = front ++ back) (hfront : byteSize front = Span.limit)
    (hback : NoSigil back []) :
    segmentsOf source = .placeholder (p.locate 0) :: Segment.plain Span.limit back := by
  have hfirst : Cursor.next? source ⟨0, source⟩ =
      some ((Cursor.pieces ⟨0, source⟩).map Piece.segment, .seek source Span.limit) :=
    Cursor.next?_of_limit_lt (Grammar.noSigil_nil source) hbegins (by simpa using hlimit)
  have hrest : Scan source (.seek source Span.limit) (Piece.plain Span.limit back) := by
    have hplain := Scan.of_plain hsource hback
    rwa [hfront, ← Cursor.seek_eq hsource hfront] at hplain
  have hscan : Scan source ⟨0, source⟩ _ := .step hfirst hrest
  have hpieces : Cursor.pieces ⟨0, source⟩ = [Piece.ofPlaceholder 0 p] :=
    Cursor.pieces_placeholder (Grammar.noSigil_nil source) hbegins
  rw [hpieces] at hscan
  have hlength : front ≠ [] := by
    rintro rfl
    exact absurd hfront (by decide)
  rw [segmentsOf, hscan.segments_eq ?_, List.map_append, Piece.map_plain]
  · rfl
  · have hfirst := List.length_pos_iff.mpr hlength
    have hback := Piece.length_plain_le Span.limit back
    rw [hsource, List.length_append, List.length_append, List.length_singleton]
    omega

/-! ### A scan without end -/

/-- A placeholder that begins at the limit is yielded for ever. -/
theorem not_scan_of_begins_at_limit {front text after : List Char} {p : PlaceholderText}
    {pieces : List Piece} (hfront : byteSize front = Span.limit) (hplain : NoSigil front text)
    (hbegins : Begins text p after) : ¬Scan (front ++ text) ⟨0, front ++ text⟩ pieces := by
  intro h
  have hwritten := p.byteSize_written_pos
  obtain ⟨more, -, hmore⟩ := h.of_next? (Cursor.next?_of_limit_lt hplain hbegins (by omega))
  have hsource : front ++ text = front ++ ([] ++ text) := rfl
  obtain ⟨found, hnext⟩ := Cursor.next?_seek hsource hfront (Grammar.noSigil_nil text) hbegins
  exact Scan.not_of_next?_self hnext hmore

/-- As many letters as spans have offsets, and a placeholder behind them. -/
theorem endless_at_limit :
    ¬∃ pieces, Scan (List.replicate Span.limit 'a' ++ "$a".toList)
      ⟨0, List.replicate Span.limit 'a' ++ "$a".toList⟩ pieces := by
  rintro ⟨pieces, h⟩
  have hbegins : Begins "$a".toList ⟨['a'], [], []⟩ [] :=
    Grammar.readPlaceholder?_eq_some_iff.mp (by cbv)
  have hsize : byteSize (List.replicate Span.limit 'a') = Span.limit := by
    refine (Text.byteSize_eq_length fun c hc => ?_).trans List.length_replicate
    rw [List.eq_of_mem_replicate hc]
    decide
  have hplain : NoSigil (List.replicate Span.limit 'a') "$a".toList := by
    refine Grammar.noSigil_of_forall_ne (fun c hc => ?_) _
    rw [List.eq_of_mem_replicate hc]
    decide
  exact not_scan_of_begins_at_limit hsize hplain hbegins h

end StyleTemplate
