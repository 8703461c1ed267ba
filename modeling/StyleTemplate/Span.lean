import StyleTemplate.Text.Bytes

/-! Byte ranges of a source text. Offsets go up to `Span.limit`; larger ones are clamped to it. -/

namespace StyleTemplate

/-- `length` bytes from byte `start` on. -/
structure Span where
  start : Nat
  length : Nat
deriving DecidableEq, Repr, Inhabited

namespace Span

/-- The largest offset a span can hold. -/
def limit : Nat := 0xFFFFFFFF

/-- The span from `start` to `stop`, each clamped to the limit; empty when they are out of order. -/
def ofBounds (start stop : Nat) : Span :=
  ⟨min start limit, min stop limit - min start limit⟩

/-- The byte after the last one, clamped to the limit. -/
def stop (s : Span) : Nat := min (s.start + s.length) limit

/-- The part of `source` that the span covers, if it is inside and on character boundaries. -/
def text? (s : Span) (source : List Char) : Option (List Char) :=
  Text.slice? s.start s.stop source

/-- A span stops where it is told to, or at the limit. -/
theorem stop_ofBounds_eq {start stop : Nat} (h : start ≤ stop) :
    (ofBounds start stop).stop = min stop limit := by
  simp only [ofBounds, Span.stop]; omega

/-- Below the limit nothing is clamped. -/
theorem stop_ofBounds {start stop : Nat} (h : start ≤ stop) (hl : stop ≤ limit) :
    (ofBounds start stop).stop = stop := by
  rw [stop_ofBounds_eq h, Nat.min_eq_left hl]

theorem start_ofBounds {start stop : Nat} (h : start ≤ stop) (hl : stop ≤ limit) :
    (ofBounds start stop).start = start := by
  simp only [ofBounds]; omega

/-- The span from the end of one text to the end of the next covers the next text. -/
theorem text?_ofBounds (as bs cs : List Char)
    (hl : Text.byteSize as + Text.byteSize bs ≤ limit) :
    (ofBounds (Text.byteSize as) (Text.byteSize as + Text.byteSize bs)).text?
      (as ++ (bs ++ cs)) = some bs := by
  rw [text?, start_ofBounds (Nat.le_add_right _ _) hl, stop_ofBounds (Nat.le_add_right _ _) hl]
  exact Text.slice?_append as bs cs

/-- What a span covers is as long as the span. -/
theorem byteSize_of_text? {s : Span} {source piece : List Char} (h : s.text? source = some piece) :
    Text.byteSize piece = s.stop - s.start :=
  Text.byteSize_of_slice? h

/-- The span from the start of a source to the end of its first part covers that part exactly when it
is not clamped. -/
theorem text?_ofBounds_zero_iff {piece rest : List Char} :
    (ofBounds 0 (Text.byteSize piece)).text? (piece ++ rest) = some piece ↔
      Text.byteSize piece ≤ limit := by
  constructor
  · intro h
    have hsize := byteSize_of_text? h
    rw [stop_ofBounds_eq (Nat.zero_le _)] at hsize
    omega
  · intro h
    have hcovered := text?_ofBounds [] piece rest (by simpa using h)
    simpa using hcovered

end Span

end StyleTemplate
