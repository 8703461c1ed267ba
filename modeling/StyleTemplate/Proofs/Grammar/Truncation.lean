import StyleTemplate.Proofs.Grammar.Segments

/-! Readings of a text whose end is cut off. A part that was read is still read, and where the cut
lies between two segments a part that was malformed stays malformed, so that both sides of the cut
read as they did in one text (`Reading.split`). -/

namespace StyleTemplate.Grammar

open Text (byteSize)

variable {α : Type} {part : List Char → α → List Char → Prop} {text rest other cut : List Char}

private theorem mem_head?_append {c : Char} (h : c ∈ rest.head?) : c ∈ (rest ++ cut).head? := by
  obtain ⟨tail, rfl⟩ := List.head?_eq_some_iff.mp h
  rfl

theorem IsName.truncate {name : List Char} (h : IsName name (rest ++ cut)) : IsName name rest :=
  ⟨h.nonempty, h.chars, fun c hc => h.stops c (mem_head?_append hc)⟩

theorem IsCall.truncate {c : CallText} (h : IsCall c (rest ++ cut)) : IsCall c rest := by
  generalize hrest : rest ++ cut = other at h
  cases h with
  | plain name_ends no_args =>
    subst hrest
    exact .plain name_ends.truncate fun h => no_args (mem_head?_append h)
  | applied name_ends inner_ends => exact .applied name_ends inner_ends

/-- That a part can be read without what is far behind it. -/
def Truncates (part : List Char → α → List Char → Prop) : Prop :=
  ∀ ⦃text x rest cut⦄, part text x (rest ++ cut) → ∃ short, text = short ++ cut ∧ part short x rest

theorem subscript_truncates : Truncates Subscript := fun _ s rest cut h =>
  ⟨s.written ++ rest, by rw [h.split, List.append_assoc], h.form, rfl⟩

theorem call_truncates : Truncates Call := fun _ c rest cut h =>
  ⟨c.written ++ rest, by rw [h.split, List.append_assoc], h.form.truncate, rfl⟩

theorem Chain.truncate (hpart : Truncates part) {xs : List α}
    (h : Chain part text xs (rest ++ cut)) :
    ∃ short, text = short ++ cut ∧ Chain part short xs rest := by
  generalize hrest : rest ++ cut = other at h
  induction h with
  | nil => exact ⟨rest, hrest.symm, .nil⟩
  | cons hx _ ih =>
    obtain ⟨mid, rfl, htail⟩ := ih hrest
    obtain ⟨short, rfl, hshort⟩ := hpart hx
    exact ⟨short, rfl, .cons hshort htail⟩

theorem Subscript.extend {s : SubscriptText} (h : Subscript text s rest) :
    Subscript (text ++ cut) s (rest ++ cut) :=
  ⟨h.form, by rw [h.split, List.append_assoc]⟩

/-- A call is still a call with more behind it, unless it ends the text without arguments: then what
comes next must not go on with it. -/
theorem Call.extend {c : CallText} (h : Call text c rest)
    (hcut : c.inner = none → rest = [] → cut = [] ∨ Sigil cut) :
    Call (text ++ cut) c (rest ++ cut) := by
  refine ⟨?_, by rw [h.split, List.append_assoc]⟩
  obtain ⟨hform, -⟩ := h
  cases hform with
  | applied name_ends inner_ends => exact .applied name_ends inner_ends
  | plain name_ends no_args =>
    cases rest with
    | cons d rest => exact .plain ⟨name_ends.nonempty, name_ends.chars, name_ends.stops⟩ no_args
    | nil =>
      rcases hcut rfl rfl with rfl | ⟨d, tail, rfl, -⟩
      · exact .plain name_ends no_args
      · refine .plain ⟨name_ends.nonempty, name_ends.chars, ?_⟩ (by simp)
        simp [NameChar]

/-- A placeholder is the same in the text before the cut, unless the cut turned a malformed call
into a call. -/
theorem Begins.truncate {p : PlaceholderText} (h : Begins text p (rest ++ cut))
    (hcut : ∀ name, rest = '|' :: name → (∀ c ∈ name, NameChar c) → cut = [] ∨ Sigil cut) :
    ∃ short, text = short ++ cut ∧ Begins short p rest := by
  generalize hrest : rest ++ cut = other at h
  cases h with
  | @intro name afterName afterPath _ subscripts calls name_ends path_ends chain_ends =>
    subst hrest
    obtain ⟨afterPath, rfl, hcalls⟩ := chain_ends.chain.truncate call_truncates
    obtain ⟨afterName, rfl, hpath⟩ := path_ends.chain.truncate subscript_truncates
    refine ⟨'$' :: (name ++ afterName), by simp, .intro name_ends.truncate
      (.of_stops subscript_functional hpath fun x other hx => ?_)
      (.of_stops call_functional hcalls fun c other hc => ?_)⟩
    · exact path_ends.stops _ _ hx.extend
    · refine chain_ends.stops _ _ (hc.extend fun hinner hother => ?_)
      obtain ⟨hform, hsplit⟩ := hc
      subst hother
      cases hform with
      | applied => exact nomatch hinner
      | @plain name _ name_ends =>
        exact hcut name (by simpa [CallText.written] using hsplit) name_ends.chars

namespace Reading

variable {start : Nat} {front back : List Segment}

/-- Plain text without a `$` that is read up to a cut runs into a placeholder or the end there. -/
private theorem stops_of_plain (ha : Reading start rest front)
    (h : Reading start (rest ++ cut) (front ++ back)) (hne : rest ≠ []) (hplain : '$' ∉ rest) :
    cut = [] ∨ Sigil cut := by
  cases ha with
  | nil => exact (hne rfl).elim
  | @text _ cs tail segments nonempty _ stops htail =>
    have htail : tail = [] := by
      rcases stops with rfl | ⟨c, rest, rfl, -⟩
      · rfl
      · simp at hplain
    subst htail
    rw [List.append_nil] at h
    generalize htext : cs ++ cut = text at h
    cases h with
    | text _ _ stops' _ =>
      rw [List.append_cancel_left htext]
      exact stops'
  | placeholder begins =>
    obtain ⟨c, rest, rfl, -⟩ := begins.sigil
    simp at hplain

/-- A reading cut between two segments is a reading on both sides of the cut. -/
theorem split (h : Reading start text (front ++ back)) :
    ∃ a b, text = a ++ b ∧ Reading start a front ∧ Reading (start + byteSize a) b back := by
  induction front generalizing start text with
  | nil => exact ⟨[], text, rfl, .nil, h⟩
  | cons s front ih =>
    cases h with
    | @text _ cs _ _ nonempty plain stops h =>
      obtain ⟨a, b, rfl, ha, hb⟩ := ih h
      refine ⟨cs ++ a, b, (List.append_assoc _ _ _).symm, .text nonempty ?_ ?_ ha, ?_⟩
      · intro before after heq hlt hsigil
        obtain ⟨c, tail, rfl, hc⟩ := hsigil
        refine plain before ('$' :: c :: tail ++ b) ?_ hlt ⟨c, tail ++ b, rfl, hc⟩
        rw [← List.append_assoc, heq, List.append_assoc]
      · cases ha with
        | nil => exact .inl rfl
        | text => exact (h.not_stops (by simpa using stops)).elim
        | placeholder begins => exact .inr begins.sigil
      · rwa [Text.byteSize_append, ← Nat.add_assoc]
    | placeholder begins h =>
      -- the calls could only grow where the text before the cut is `|` and a name
      obtain ⟨a, b, rfl, ha, hb⟩ := ih h
      obtain ⟨short, rfl, hshort⟩ := begins.truncate fun name hname hchars => by
        refine stops_of_plain ha h (by simp [hname]) ?_
        rw [hname, List.mem_cons, not_or]
        exact ⟨by decide, fun h => absurd (hchars _ h) (by simp [NameChar])⟩
      refine ⟨short, b, rfl, .placeholder hshort ha, ?_⟩
      rwa [hshort.split, Text.byteSize_append, ← Nat.add_assoc]

end Reading

end StyleTemplate.Grammar
