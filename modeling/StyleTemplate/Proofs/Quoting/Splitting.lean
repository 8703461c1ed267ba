import Mathlib.Order.Bounds.Basic
import StyleTemplate.Proofs.Quoting
import StyleTemplate.Text.Bytes

/-! Splitting is joining read backwards. Which quotes of a text are closed is said of the text alone
(`Closed`); the pieces of a text are then the one list of texts, none with the separator outside
quotes, whose join it is, and a search finds the first place outside quotes (`splits_and_finds`). -/

namespace StyleTemplate.Text

/-- Text with all its quotes closed: behind a quote comes another one of its kind. -/
inductive Closed : List Char → Prop where
  | nil : Closed []
  | plain {c : Char} {cs : List Char} (plain : ¬isQuote c) : Closed cs → Closed (c :: cs)
  | quoted {q : Char} {body cs : List Char} (quote : isQuote q) (inside : q ∉ body) :
      Closed cs → Closed (q :: (body ++ q :: cs))

/-- `target` stands at byte `n` of a text, and outside quotes: those before it are closed. -/
def UnquotedAt (target : Char) (cs : List Char) (n : Nat) : Prop :=
  ∃ before after, cs = before ++ target :: after ∧ Closed before ∧ byteSize before = n

/-- `cs` is the join of `pieces`; none of them has the separator outside quotes, and no quote is open
where a separator follows. -/
structure Splits (separator : Char) (cs : List Char) (pieces : List (List Char)) : Prop where
  nonempty : pieces ≠ []
  joined : [separator].intercalate pieces = cs
  whole : ∀ piece ∈ pieces, ∀ n, ¬UnquotedAt separator piece n
  closed : ∀ piece ∈ pieces.dropLast, Closed piece

/-- The byte at which a text is cut at its first unquoted `target`. -/
def findUnquoted? (target : Char) (cs : List Char) : Option Nat :=
  (cutUnquoted? target .outside cs).map fun cut => byteSize cut.1

/-! ### Closed quotes -/

private theorem closed_of_run (cs : List Char) :
    (Quoting.outside.run cs = .outside → Closed cs) ∧
      ∀ q, isQuote q → (Quoting.inside q).run cs = .outside →
        ∃ body rest, cs = body ++ q :: rest ∧ q ∉ body ∧ Closed rest := by
  -- behind an opening quote the text is read on from inside it, so both states go together
  induction cs with
  | nil => exact ⟨fun _ => .nil, fun _ _ h => nomatch h⟩
  | cons c cs ih =>
    obtain ⟨houtside, hinside⟩ := ih
    constructor
    · intro h
      rw [Quoting.run_cons, Quoting.step] at h
      split at h
      · rename_i hc
        obtain ⟨body, rest, rfl, hbody, hrest⟩ := hinside c hc h
        exact .quoted hc hbody hrest
      · rename_i hc
        exact .plain hc (houtside h)
    · intro q hq h
      rw [Quoting.run_cons, Quoting.step] at h
      split at h
      · rename_i hc
        subst hc
        exact ⟨[], cs, rfl, List.not_mem_nil, houtside h⟩
      · rename_i hc
        obtain ⟨body, rest, rfl, hbody, hrest⟩ := hinside q hq h
        refine ⟨c :: body, rest, rfl, ?_, hrest⟩
        intro hmem
        cases hmem with
        | head => exact hc rfl
        | tail _ hmem => exact hbody hmem

/-- The quotes of a text are closed exactly when reading it ends outside quotes. -/
theorem closed_iff {cs : List Char} : Closed cs ↔ Quoting.outside.run cs = .outside := by
  constructor
  · intro h
    induction h with
    | nil => rfl
    | plain plain _ ih => rwa [Quoting.run_cons, Quoting.step, if_neg plain]
    | @quoted q body cs quote inside _ ih =>
      have hquoted : Sealed q (q :: (body ++ [q])) := .quoted quote inside
      have hsplit : q :: (body ++ q :: cs) = q :: (body ++ [q]) ++ cs := by simp
      rw [hsplit, Quoting.run_append, hquoted.closed, ih]
  · exact (closed_of_run cs).1

section Delimiters

variable {target : Char} {q : Quoting} {cs before after : List Char}

namespace Quoting

/-- A text hides a delimiter if none stands in it where reading is outside quotes. -/
theorem hides_iff (htarget : ¬isQuote target) :
    q.Hides target cs ↔
      ∀ before after, cs = before ++ target :: after → q.run before ≠ .outside := by
  induction cs generalizing q with
  | nil => simp [Hides]
  | cons c cs ih =>
    rw [Hides, ih]
    constructor
    · rintro ⟨hhead, htail⟩ before after heq
      cases before with
      | nil =>
        obtain ⟨rfl, -⟩ := List.cons.inj heq
        intro hq
        obtain rfl : q = .outside := hq
        exact hhead (delimits_self htarget)
      | cons b before =>
        obtain ⟨rfl, hcs⟩ := List.cons.inj heq
        exact htail before after hcs
    · intro h
      refine ⟨fun hdelimits => ?_, fun before after heq => h (c :: before) after (heq ▸ rfl)⟩
      simp only [delimits, Bool.and_eq_true, decide_eq_true_eq] at hdelimits
      obtain ⟨⟨rfl, rfl⟩, -⟩ := hdelimits
      exact h [] cs rfl rfl

theorem hides_outside_iff (htarget : ¬isQuote target) :
    outside.Hides target cs ↔ ∀ n, ¬UnquotedAt target cs n := by
  rw [hides_iff htarget]
  constructor
  · rintro h n ⟨before, after, heq, hclosed, -⟩
    exact h before after heq (closed_iff.mp hclosed)
  · intro h before after heq hrun
    exact h _ ⟨before, after, heq, closed_iff.mpr hrun, rfl⟩

end Quoting

theorem cutUnquoted?_eq_none_iff : cutUnquoted? target q cs = none ↔ q.Hides target cs := by
  induction cs generalizing q with
  | nil => simp [cutUnquoted?, Quoting.Hides]
  | cons c cs ih =>
    rw [cutUnquoted?, Quoting.Hides]
    split
    · rename_i hdelimits
      simp [hdelimits]
    · rename_i hdelimits
      rw [Option.map_eq_none_iff, ih]
      exact (and_iff_right hdelimits).symm

/-- A cut is made behind text that hides the delimiter and closes its quotes. -/
theorem hides_of_cutUnquoted? (h : cutUnquoted? target q cs = some (before, after)) :
    q.Hides target before ∧ q.run before = .outside := by
  induction cs generalizing q before with
  | nil => exact nomatch h
  | cons c cs ih =>
    rw [cutUnquoted?] at h
    split at h
    · rename_i hdelimits
      obtain ⟨rfl, rfl⟩ := Prod.mk.inj (Option.some.inj h)
      simp only [Quoting.delimits, Bool.and_eq_true, decide_eq_true_eq] at hdelimits
      exact ⟨trivial, hdelimits.1.1⟩
    · rename_i hdelimits
      obtain ⟨⟨front, rest⟩, hcut, heq⟩ := Option.map_eq_some_iff.mp h
      obtain ⟨rfl, rfl⟩ := Prod.mk.inj heq
      obtain ⟨hides, closed⟩ := ih hcut
      exact ⟨⟨hdelimits, hides⟩, closed⟩

/-- Nothing is cut at a quote. -/
theorem findUnquoted?_of_isQuote (htarget : isQuote target) : findUnquoted? target cs = none := by
  have hhides : ∀ q : Quoting, q.Hides target cs := by
    induction cs with
    | nil => exact fun _ => trivial
    | cons c cs ih =>
      intro q
      refine ⟨fun hdelimits => ?_, ih _⟩
      simp only [Quoting.delimits, Bool.and_eq_true, decide_eq_true_eq] at hdelimits
      obtain ⟨⟨-, rfl⟩, hc⟩ := hdelimits
      simp [htarget] at hc
  rw [findUnquoted?, cutUnquoted?_eq_none_iff.mpr (hhides _), Option.map_none]

end Delimiters

/-! ### Pieces -/

namespace Splits

variable {separator : Char} {cs before after : List Char} {pieces : List (List Char)}

theorem single (h : ∀ n, ¬UnquotedAt separator cs n) : Splits separator cs [cs] := by
  refine ⟨List.cons_ne_nil _ _, List.intercalate_singleton, fun piece hpiece => ?_, ?_⟩
  · rwa [List.mem_singleton.mp hpiece]
  · exact fun _ hpiece => nomatch hpiece

/-- One more piece in front, and the separator behind it. -/
theorem cons (hwhole : ∀ n, ¬UnquotedAt separator before n) (hclosed : Closed before)
    (h : Splits separator after pieces) :
    Splits separator (before ++ separator :: after) (before :: pieces) := by
  refine ⟨List.cons_ne_nil _ _, ?_, List.forall_mem_cons.mpr ⟨hwhole, h.whole⟩, ?_⟩
  · rw [List.intercalate_cons_of_ne_nil h.nonempty, h.joined, List.append_assoc]
    rfl
  · rw [List.dropLast_cons_of_ne_nil h.nonempty]
    exact List.forall_mem_cons.mpr ⟨hclosed, h.closed⟩

/-- The join of such pieces falls into them again. -/
theorem splitUnquoted_eq (hseparator : ¬isQuote separator) (h : Splits separator cs pieces) :
    splitUnquoted separator .outside cs = pieces := by
  rw [← h.joined]
  apply splitUnquoted_intercalate hseparator h.nonempty
  · intro piece hpiece
    exact (Quoting.hides_outside_iff hseparator).mpr (h.whole piece hpiece)
  · intro piece hpiece
    exact closed_iff.mp (h.closed piece hpiece)

end Splits

/-- Every text is the join of the pieces it is split into. -/
theorem splits_splitUnquoted {separator : Char} (hseparator : ¬isQuote separator) (cs : List Char) :
    Splits separator cs (splitUnquoted separator .outside cs) := by
  induction hn : cs.length using Nat.strongRecOn generalizing cs with
  | _ n ih =>
    subst hn
    cases hcut : cutUnquoted? separator .outside cs with
    | none =>
      have hides := cutUnquoted?_eq_none_iff.mp hcut
      rw [splitUnquoted_of_hides hides]
      exact .single ((Quoting.hides_outside_iff hseparator).mp hides)
    | some cut =>
      obtain ⟨before, after⟩ := cut
      obtain ⟨hides, closed⟩ := hides_of_cutUnquoted? hcut
      have hsplit := eq_of_cutUnquoted? hcut
      have hshorter : after.length < cs.length := by
        rw [hsplit, List.length_append, List.length_cons]
        omega
      rw [hsplit, splitUnquoted_append hseparator hides closed]
      exact .cons ((Quoting.hides_outside_iff hseparator).mp hides) (closed_iff.mpr closed)
        (ih _ hshorter after rfl)

/-! ### Bytes -/

/-- The bytes at which `target` stands outside quotes in a text that begins at byte `start`. -/
def unquotedOffsets (target : Char) : Quoting → Nat → List Char → List Nat
  | _, _, [] => []
  | q, start, c :: cs =>
    let more := unquotedOffsets target (q.step c) (start + c.utf8Size) cs
    if q.delimits target c then start :: more else more

/-- The stretches of a text from byte `start` on that end at the offsets, and the last one at the end
of the text; `width` bytes are left out behind every offset. -/
def slicesBetween (width : Nat) (cs : List Char) : Nat → List Nat → List (Option (List Char))
  | start, [] => [slice? start (byteSize cs) cs]
  | start, stop :: offsets => slice? start stop cs :: slicesBetween width cs (stop + width) offsets

theorem findUnquoted?_eq_head? (target : Char) (cs : List Char) :
    findUnquoted? target cs = (unquotedOffsets target .outside 0 cs).head? := by
  suffices h : ∀ (q : Quoting) (start : Nat),
      (cutUnquoted? target q cs).map (fun cut => start + byteSize cut.1) =
        (unquotedOffsets target q start cs).head? by
    simpa [findUnquoted?] using h .outside 0
  induction cs with
  | nil => exact fun _ _ => rfl
  | cons c cs ih =>
    intro q start
    rw [cutUnquoted?, unquotedOffsets]
    split
    · rfl
    · rw [← ih, Option.map_map]
      congr 1
      funext cut
      exact (Nat.add_assoc _ _ _).symm

/-- Behind `front` and a piece that is not finished yet. -/
private theorem slicesBetween_unquotedOffsets (separator : Char) (source front piece cs : List Char)
    (q : Quoting) (hsource : source = front ++ (piece ++ cs)) :
    slicesBetween separator.utf8Size source (byteSize front)
        (unquotedOffsets separator q (byteSize front + byteSize piece) cs) =
      ((splitUnquoted separator q cs).modifyHead (piece ++ ·)).map some := by
  induction cs generalizing front piece q with
  | nil =>
    have hsize : byteSize source = byteSize front + byteSize piece := by
      rw [hsource, List.append_nil, byteSize_append]
    rw [unquotedOffsets, slicesBetween, hsize, hsource, slice?_append]
    simp [splitUnquoted]
  | cons c cs ih =>
    rw [unquotedOffsets, splitUnquoted]
    split
    · rename_i hdelimits
      simp only [Quoting.delimits, Bool.and_eq_true, decide_eq_true_eq] at hdelimits
      obtain ⟨⟨rfl, rfl⟩, hc⟩ := hdelimits
      have hstep : Quoting.outside.step c = .outside := by
        rw [Quoting.step, if_neg (by simpa using hc)]
      have hfront : byteSize (front ++ (piece ++ [c])) =
          byteSize front + byteSize piece + c.utf8Size := by
        simp [Nat.add_assoc]
      have hrest := ih (front ++ (piece ++ [c])) [] .outside (by simp [hsource])
      rw [hfront, byteSize_nil, Nat.add_zero] at hrest
      rw [hstep, slicesBetween, hrest, hsource, slice?_append]
      cases splitUnquoted c .outside cs <;> simp
    · have hrest := ih front (piece ++ [c]) (q.step c) (by simp [hsource])
      rw [byteSize_append, byteSize_cons, byteSize_nil, Nat.add_zero, ← Nat.add_assoc] at hrest
      rw [hrest, List.modifyHead_modifyHead]
      congr 2
      funext rest
      simp

/-- The pieces of a text are its stretches between the bytes at which separators stand. -/
theorem slicesBetween_offsets (separator : Char) (cs : List Char) :
    slicesBetween separator.utf8Size cs 0 (unquotedOffsets separator .outside 0 cs) =
      (splitUnquoted separator .outside cs).map some := by
  have h := slicesBetween_unquotedOffsets separator cs [] [] cs .outside rfl
  cases hsplit : splitUnquoted separator .outside cs <;> simpa [hsplit] using h

/-! ### Places -/

/-- A cut is made at the first place where the delimiter stands outside quotes. -/
theorem isLeast_of_cutUnquoted? {target : Char} {cs before after : List Char}
    (htarget : ¬isQuote target) (h : cutUnquoted? target .outside cs = some (before, after)) :
    IsLeast {n | UnquotedAt target cs n} (byteSize before) := by
  obtain ⟨hides, closed⟩ := hides_of_cutUnquoted? h
  have hsplit := eq_of_cutUnquoted? h
  refine ⟨⟨before, after, hsplit, closed_iff.mpr closed, rfl⟩, ?_⟩
  rintro n ⟨front, rest, heq, hfront, rfl⟩
  rw [hsplit] at heq
  rcases List.append_eq_append_iff.mp heq with ⟨more, rfl, -⟩ | ⟨more, rfl, hmore⟩
  · rw [byteSize_append]
    exact Nat.le_add_right _ _
  · -- a place before the cut would lie in text that hides the delimiter
    cases more with
    | nil => rw [List.append_nil]
    | cons c more =>
      obtain ⟨rfl, -⟩ := List.cons.inj hmore
      exact ((Quoting.hides_iff htarget).mp hides front more rfl (closed_iff.mp hfront)).elim

theorem findUnquoted?_eq_none_iff {target : Char} {cs : List Char} (htarget : ¬isQuote target) :
    findUnquoted? target cs = none ↔ ∀ n, ¬UnquotedAt target cs n := by
  rw [findUnquoted?, Option.map_eq_none_iff, cutUnquoted?_eq_none_iff,
    Quoting.hides_outside_iff htarget]

theorem findUnquoted?_eq_some_iff {target : Char} {cs : List Char} {n : Nat}
    (htarget : ¬isQuote target) :
    findUnquoted? target cs = some n ↔ IsLeast {m | UnquotedAt target cs m} n := by
  constructor
  · intro h
    obtain ⟨⟨before, after⟩, hcut, rfl⟩ := Option.map_eq_some_iff.mp h
    exact isLeast_of_cutUnquoted? htarget hcut
  · intro h
    cases hcut : cutUnquoted? target .outside cs with
    | none =>
      have hnone : findUnquoted? target cs = none := by rw [findUnquoted?, hcut, Option.map_none]
      exact ((findUnquoted?_eq_none_iff htarget).mp hnone n h.1).elim
    | some cut =>
      rw [findUnquoted?, hcut, Option.map_some, (isLeast_of_cutUnquoted? htarget hcut).unique h]

/-- Splitting at a separator that is no quote is the inverse of joining, and a search for it answers
with the first place where it stands outside quotes. A quote delimits nothing, wherever it stands
(`findUnquoted?_of_isQuote`). -/
theorem splits_and_finds {separator : Char} (h : ¬isQuote separator) (cs : List Char) :
    (∀ pieces, splitUnquoted separator .outside cs = pieces ↔ Splits separator cs pieces) ∧
      (∀ n, findUnquoted? separator cs = some n ↔ IsLeast {m | UnquotedAt separator cs m} n) ∧
      (findUnquoted? separator cs = none ↔ ∀ n, ¬UnquotedAt separator cs n) := by
  refine ⟨fun pieces => ⟨fun hpieces => ?_, fun hpieces => hpieces.splitUnquoted_eq h⟩,
    fun n => findUnquoted?_eq_some_iff h, findUnquoted?_eq_none_iff h⟩
  rw [← hpieces]
  exact splits_splitUnquoted h cs

/-- Quotes of both kinds, a separator beyond ASCII, an empty piece, and a quote left open at the end. -/
theorem splits_and_finds_mixed :
    ¬isQuote '→' ∧
      Splits '→' "'a→\"'é→→\"b'→\"→'c→d".toList
        ["'a→\"'é".toList, [], "\"b'→\"".toList, "'c→d".toList] ∧
      IsLeast {m | UnquotedAt '→' "'a→\"'é→→\"b'→\"→'c→d".toList m} 9 :=
  ⟨by decide, ((splits_and_finds (by decide) _).1 _).mp (by decide),
    ((splits_and_finds (by decide) _).2.1 _).mp (by decide)⟩

end StyleTemplate.Text
