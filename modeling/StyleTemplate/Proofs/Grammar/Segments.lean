import StyleTemplate.Proofs.Grammar.Readers

/-! The segments of a source are its reading by the grammar, and there is no other reading
(`segmentsOf_eq_iff`). -/

namespace StyleTemplate.Grammar

open Text (byteSize)

/-! ### Where placeholders begin -/

theorem Begins.sigil {text rest : List Char} {p : PlaceholderText} (h : Begins text p rest) :
    Sigil text := by
  cases h with
  | @intro name afterName _ _ _ _ name_ends _ _ =>
    cases name with
    | nil => exact (name_ends.nonempty rfl).elim
    | cons c name =>
      exact ⟨c, name ++ afterName, rfl, name_ends.chars c List.mem_cons_self⟩

/-- The calls of a placeholder begin right behind its name and subscripts. -/
theorem Begins.calls {text rest : List Char} {p : PlaceholderText} (h : Begins text p rest) :
    ∃ afterPath, text = '$' :: p.writtenPath ++ afterPath ∧ Longest Call afterPath p.calls rest := by
  cases h with
  | @intro name afterName afterPath rest subscripts calls _ path_ends chain_ends =>
    have hpath := path_ends.chain.split fun _ _ _ h => h.split
    exact ⟨afterPath, by simp [PlaceholderText.writtenPath, hpath], chain_ends⟩

/-- Nothing is lost between a placeholder and the rest. -/
theorem Begins.split {text rest : List Char} {p : PlaceholderText} (h : Begins text p rest) :
    text = p.written ++ rest := by
  obtain ⟨afterPath, rfl, hcalls⟩ := h.calls
  rw [hcalls.chain.split fun _ _ _ h => h.split]
  simp [PlaceholderText.written]

@[simp] theorem noSigil_nil (rest : List Char) : NoSigil [] rest :=
  fun _ _ _ h => absurd h (Nat.not_lt_zero _)

theorem noSigil_cons {c : Char} {cs rest : List Char} :
    NoSigil (c :: cs) rest ↔ ¬Sigil (c :: (cs ++ rest)) ∧ NoSigil cs rest := by
  constructor
  · intro h
    refine ⟨h [] _ rfl (Nat.zero_lt_succ _), fun before after heq hlt => ?_⟩
    exact h (c :: before) after (congrArg (c :: ·) heq) (Nat.succ_lt_succ hlt)
  · rintro ⟨hc, h⟩ before after heq hlt
    cases before with
    | nil => exact (List.nil_append after ▸ heq) ▸ hc
    | cons b before =>
      exact h before after (List.cons.inj heq).2 (Nat.lt_of_succ_lt_succ hlt)

/-- Names are written in ASCII, and a `$` is no part of them. -/
theorem NameChar.ascii {c : Char} (h : NameChar c) : c.toNat < 0x80 ∧ c ≠ '$' := by
  have hcode : c.toNat < 0x80 := by
    rcases h with ⟨-, h⟩ | ⟨-, h⟩ | ⟨-, h⟩ | rfl | rfl
    · exact Nat.lt_of_le_of_lt (UInt32.le_iff_toNat_le.mp h) (by decide)
    · exact Nat.lt_of_le_of_lt (UInt32.le_iff_toNat_le.mp h) (by decide)
    · exact Nat.lt_of_le_of_lt (UInt32.le_iff_toNat_le.mp h) (by decide)
    · decide
    · decide
  refine ⟨hcode, ?_⟩
  rintro rfl
  simp [NameChar] at h

/-- Nothing begins in a text without a `$`. -/
theorem noSigil_of_forall_ne {cs : List Char} (h : ∀ c ∈ cs, c ≠ '$') (rest : List Char) :
    NoSigil cs rest := by
  induction cs with
  | nil => exact noSigil_nil rest
  | cons c cs ih =>
    obtain ⟨hc, hcs⟩ := List.forall_mem_cons.mp h
    refine noSigil_cons.mpr ⟨?_, ih hcs⟩
    rintro ⟨d, tail, heq, -⟩
    exact hc (List.cons.inj heq).1

private theorem not_begins_iff {c : Char} {cs : List Char} :
    (if c = '$' then readPlaceholder? cs else none) = none ↔ ¬Sigil (c :: cs) := by
  by_cases hc : c = '$'
  · rw [if_pos hc, readPlaceholder?_eq_none_iff, hc]
  · simp [hc, Sigil]

theorem findPlaceholder?_eq_none {cs : List Char} (h : findPlaceholder? cs = none) :
    NoSigil cs [] := by
  induction cs with
  | nil => simp
  | cons c cs ih =>
    rw [findPlaceholder?] at h
    split at h
    · exact nomatch h
    · rename_i hc
      rw [noSigil_cons, List.append_nil]
      exact ⟨not_begins_iff.mp hc, ih (Option.map_eq_none_iff.mp h)⟩

theorem findPlaceholder?_eq_some {cs before after : List Char} {p : PlaceholderText}
    (h : findPlaceholder? cs = some (before, p, after)) :
    ∃ text, cs = before ++ text ∧ NoSigil before text ∧ Begins text p after := by
  induction cs generalizing before with
  | nil => exact nomatch h
  | cons c cs ih =>
    rw [findPlaceholder?] at h
    split at h
    · rename_i hp
      simp only [Option.some.injEq, Prod.mk.injEq] at h
      obtain ⟨rfl, rfl, rfl⟩ := h
      by_cases hc : c = '$'
      · rw [if_pos hc] at hp
        exact ⟨c :: cs, rfl, by simp, hc ▸ readPlaceholder?_eq_some_iff.mp hp⟩
      · rw [if_neg hc] at hp
        exact nomatch hp
    · rename_i hc
      obtain ⟨⟨before, q, rest⟩, hfind, h⟩ := Option.map_eq_some_iff.mp h
      simp only [Prod.mk.injEq] at h
      obtain ⟨rfl, rfl, rfl⟩ := h
      obtain ⟨text, rfl, hplain, hbegins⟩ := ih hfind
      exact ⟨text, rfl, noSigil_cons.mpr ⟨not_begins_iff.mp hc, hplain⟩, hbegins⟩

theorem findPlaceholder?_eq_none_iff {cs : List Char} :
    findPlaceholder? cs = none ↔ NoSigil cs [] := by
  refine ⟨findPlaceholder?_eq_none, fun hplain => ?_⟩
  cases hfind : findPlaceholder? cs with
  | none => rfl
  | some found =>
    obtain ⟨before, p, after⟩ := found
    obtain ⟨text, rfl, -, hbegins⟩ := findPlaceholder?_eq_some hfind
    obtain ⟨c, rest, rfl, hname⟩ := hbegins.sigil
    exact absurd ⟨c, rest, rfl, hname⟩
      (hplain before ('$' :: c :: rest) (List.append_nil _) (by simp))

/-- What is found first is the placeholder behind text without a sigil. -/
theorem findPlaceholder?_append {before text after : List Char} {p : PlaceholderText}
    (hplain : NoSigil before text) (h : Begins text p after) :
    findPlaceholder? (before ++ text) = some (before, p, after) := by
  induction before with
  | nil =>
    obtain ⟨c, rest, rfl, -⟩ := h.sigil
    rw [List.nil_append, findPlaceholder?, if_pos rfl, readPlaceholder?_eq_some_iff.mpr h]
  | cons c before ih =>
    obtain ⟨hc, hplain⟩ := noSigil_cons.mp hplain
    rw [List.cons_append, findPlaceholder?, not_begins_iff.mpr hc, ih hplain]
    rfl

/-! ### The reading of a source -/

namespace Reading

theorem plain {start : Nat} {cs rest : List Char} {segments : List Segment}
    (hplain : NoSigil cs rest) (hstops : rest = [] ∨ Sigil rest)
    (h : Reading (start + byteSize cs) rest segments) :
    Reading start (cs ++ rest) (Segment.plain start cs ++ segments) := by
  by_cases hcs : cs = []
  · subst hcs
    simpa [Segment.plain] using h
  · rw [Segment.plain, if_neg hcs]
    exact .text hcs hplain hstops h

/-- Two stretches of plain text that run as far as they can are the same. -/
private theorem text_unique {as bs rest other : List Char} (heq : as ++ rest = bs ++ other)
    (ha : rest = [] ∨ Sigil rest) (hb : NoSigil bs other) : bs.length ≤ as.length := by
  by_contra hlt
  rw [Nat.not_le] at hlt
  rcases ha with rfl | ha
  · have := congrArg List.length heq
    simp only [List.length_append, List.length_nil] at this
    omega
  · exact hb as rest heq.symm hlt ha

theorem unique {start : Nat} {text : List Char} {segments others : List Segment}
    (h : Reading start text segments) (h' : Reading start text others) : segments = others := by
  induction h generalizing others with
  | nil =>
    generalize htext : ([] : List Char) = text at h'
    cases h' with
    | nil => rfl
    | text nonempty => exact (nonempty (List.append_eq_nil_iff.mp htext.symm).1).elim
    | placeholder begins =>
      obtain ⟨c, rest, rfl, -⟩ := begins.sigil
      exact nomatch htext
  | @text start cs rest segments nonempty plain stops _ ih =>
    generalize htext : cs ++ rest = text at h'
    cases h' with
    | nil => exact (nonempty (List.append_eq_nil_iff.mp htext).1).elim
    | @text _ cs' rest' _ _ plain' stops' h' =>
      have hle := text_unique htext stops plain'
      have hge := text_unique htext.symm stops' plain
      obtain ⟨rfl, rfl⟩ := List.append_inj htext (Nat.le_antisymm hge hle)
      rw [ih h']
    | placeholder begins =>
      exact (plain [] _ htext (List.length_pos_iff.mpr nonempty) begins.sigil).elim
  | @placeholder start text rest p segments begins _ ih =>
    cases h' with
    | nil =>
      obtain ⟨c, rest, h, -⟩ := begins.sigil
      exact nomatch h
    | text nonempty plain' =>
      exact (plain' [] _ rfl (List.length_pos_iff.mpr nonempty) begins.sigil).elim
    | placeholder begins' h' =>
      obtain ⟨rfl, rfl⟩ := begins_functional begins begins'
      rw [ih h']

end Reading

/-- What a run of steps finds from a place on is the reading of the rest, if there are enough steps
and no offset is clamped. -/
theorem reading_of_segments (source : List Char) {fuel : Nat} (start : Nat) (rest : List Char)
    (hfuel : rest.length ≤ fuel) (hlimit : start + byteSize rest ≤ Span.limit) :
    Reading start rest (Cursor.segments source fuel ⟨start, rest⟩) := by
  induction fuel generalizing start rest with
  | zero =>
    rw [List.length_eq_zero_iff.mp (Nat.le_zero.mp hfuel)]
    exact .nil
  | succ fuel ih =>
    rw [Cursor.segments, Cursor.next?]
    by_cases hrest : rest = []
    · subst hrest
      exact .nil
    · rw [if_neg hrest]
      cases hfind : findPlaceholder? rest with
      | none =>
        have hplain := findPlaceholder?_eq_none hfind
        have := Reading.plain hplain (.inl rfl)
          (ih (start + byteSize rest) [] (Nat.zero_le _) (by simpa using hlimit))
        rwa [List.append_nil] at this
      | some found =>
        obtain ⟨before, p, after⟩ := found
        obtain ⟨text, rfl, hplain, hbegins⟩ := findPlaceholder?_eq_some hfind
        have hsplit := hbegins.split
        have hshorter : after.length < text.length := by
          rw [hsplit, List.length_append]
          simp [PlaceholderText.written]
        simp only [hsplit, Text.byteSize_append, List.length_append] at hlimit hfuel hshorter
        have hstop : (p.locate (start + byteSize before)).span.stop =
            start + byteSize before + byteSize p.written :=
          Span.stop_ofBounds (Nat.le_add_right _ _) (by omega)
        simp only [hstop, if_true, List.append_assoc]
        exact .plain hplain (.inr hbegins.sigil)
          (.placeholder hbegins (ih _ after (by omega) (by omega)))

theorem reading_segmentsOf {source : List Char} (h : byteSize source ≤ Span.limit) :
    Reading 0 source (segmentsOf source) :=
  reading_of_segments source 0 source (Nat.le_refl _) (by simpa using h)

/-- Up to the limit of spans a source has one reading by the grammar, and its segments are it. -/
theorem segmentsOf_eq_iff {source : List Char} {segments : List Segment}
    (h : byteSize source ≤ Span.limit) :
    segmentsOf source = segments ↔ Reading 0 source segments :=
  ⟨fun hs => hs ▸ reading_segmentsOf h, fun hs => (reading_segmentsOf h).unique hs⟩

/-- A subscript and a call that are not closed are plain text. -/
theorem segmentsOf_eq_iff_unclosed :
    byteSize "$$a[k][']']|up[k|f('x)".toList ≤ Span.limit ∧
      Reading 0 "$$a[k][']']|up[k|f('x)".toList
        [.text ['$'] ⟨0, 1⟩,
          .placeholder ⟨"a", ["k", "]"], [⟨"up", [], ⟨12, 2⟩⟩], ⟨1, 13⟩⟩,
          .text "[k|f('x)".toList ⟨14, 8⟩] :=
  ⟨by decide, (segmentsOf_eq_iff (by decide)).mp (by cbv)⟩

/-! ### Where the segments of a reading stand -/

/-- A piece of a source ends where no offset is clamped. -/
theorem le_limit {source before piece rest : List Char}
    (hsource : source = before ++ (piece ++ rest)) (hlimit : byteSize source ≤ Span.limit) :
    byteSize before + byteSize piece ≤ Span.limit := by
  rw [hsource, Text.byteSize_append, Text.byteSize_append] at hlimit
  omega

/-- `s` is what the grammar reads from `piece`, between `before` and `rest`. -/
inductive Stands (before : List Char) : Segment → List Char → List Char → Prop where
  | text {cs rest : List Char} (nonempty : cs ≠ []) :
      Stands before (.text cs (Span.ofBounds (byteSize before) (byteSize before + byteSize cs)))
        cs rest
  | placeholder {p : PlaceholderText} {rest : List Char} (begins : Begins (p.written ++ rest) p rest) :
      Stands before (.placeholder (p.locate (byteSize before))) p.written rest

namespace Stands

variable {source before piece rest : List Char} {s : Segment}

theorem nonempty (h : Stands before s piece rest) : piece ≠ [] := by
  cases h with
  | text nonempty => exact nonempty
  | placeholder _ => exact List.cons_ne_nil _ _

theorem span_eq (h : Stands before s piece rest) :
    s.span = Span.ofBounds (byteSize before) (byteSize before + byteSize piece) := by
  cases h with
  | text _ => rfl
  | placeholder _ => rfl

theorem start_eq (h : Stands before s piece rest) (hsource : source = before ++ (piece ++ rest))
    (hlimit : byteSize source ≤ Span.limit) : s.span.start = byteSize before := by
  rw [h.span_eq]
  exact Span.start_ofBounds (Nat.le_add_right _ _) (le_limit hsource hlimit)

theorem stop_eq (h : Stands before s piece rest) (hsource : source = before ++ (piece ++ rest))
    (hlimit : byteSize source ≤ Span.limit) : s.span.stop = byteSize (before ++ piece) := by
  rw [h.span_eq, Text.byteSize_append]
  exact Span.stop_ofBounds (Nat.le_add_right _ _) (le_limit hsource hlimit)

theorem text?_eq (h : Stands before s piece rest) (hsource : source = before ++ (piece ++ rest))
    (hlimit : byteSize source ≤ Span.limit) : s.span.text? source = some piece := by
  have := Span.text?_ofBounds before piece rest (le_limit hsource hlimit)
  rwa [h.span_eq, hsource]

end Stands

namespace Reading

variable {source before text : List Char} {s : Segment} {segments : List Segment}

theorem eq_nil {start : Nat} (h : Reading start text []) : text = [] := by
  cases h
  rfl

/-- What begins with plain text does not begin with a placeholder. -/
theorem not_stops {start : Nat} {cs : List Char} {span : Span}
    (h : Reading start text (.text cs span :: segments)) : ¬(text = [] ∨ Sigil text) := by
  cases h with
  | text nonempty plain =>
    rintro (hnil | hsigil)
    · exact nonempty (List.append_eq_nil_iff.mp hnil).1
    · exact plain [] _ rfl (List.length_pos_iff.mpr nonempty) hsigil

/-- The first segment of a reading, and the reading of the rest. -/
theorem head (h : Reading (byteSize before) text (s :: segments)) :
    ∃ piece rest, text = piece ++ rest ∧ Stands before s piece rest ∧
      Reading (byteSize (before ++ piece)) rest segments := by
  simp only [Text.byteSize_append]
  cases h with
  | @text _ cs rest _ nonempty _ _ h => exact ⟨cs, rest, rfl, .text nonempty, h⟩
  | @placeholder _ _ rest p _ begins h =>
    exact ⟨p.written, rest, begins.split, .placeholder (begins.split ▸ begins), h⟩

/-- What begins with a placeholder is read as that placeholder, and then as the rest is read. -/
theorem of_begins {start : Nat} {rest : List Char} {p : PlaceholderText}
    (h : Reading start text segments) (hbegins : Begins text p rest) :
    ∃ more, segments = .placeholder (p.locate start) :: more ∧
      Reading (start + byteSize p.written) rest more := by
  cases h with
  | nil =>
    obtain ⟨c, rest, h, -⟩ := hbegins.sigil
    exact nomatch h
  | text nonempty plain =>
    exact (plain [] _ rfl (List.length_pos_iff.mpr nonempty) hbegins.sigil).elim
  | placeholder begins h =>
    obtain ⟨rfl, rfl⟩ := begins_functional begins hbegins
    exact ⟨_, rfl, h⟩

/-- Every segment stands somewhere in the source. -/
theorem stands (hsource : source = before ++ text) (h : Reading (byteSize before) text segments) :
    ∀ s ∈ segments, ∃ before piece rest, source = before ++ (piece ++ rest) ∧
      Stands before s piece rest := by
  induction segments generalizing before text with
  | nil => simp
  | cons t segments ih =>
    obtain ⟨piece, rest, rfl, hstands, htail⟩ := h.head
    refine List.forall_mem_cons.mpr ⟨⟨before, piece, rest, hsource, hstands⟩, ?_⟩
    exact ih (by rw [hsource, List.append_assoc]) htail

end Reading

end StyleTemplate.Grammar
