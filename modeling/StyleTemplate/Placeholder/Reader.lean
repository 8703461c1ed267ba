import StyleTemplate.Placeholder.Written

/-! Reading placeholders. Every reader takes the longest well-formed part at the start of a text and
leaves the rest; what it took is spelled out by `written` (`eq_of_readSubscript?`,
`eq_of_readCall?`). A malformed part is left to the rest. -/

namespace StyleTemplate

open Text (isQuote cutUnquoted?)

/-- A name: the longest run of name characters, if there is one. -/
def readName? (cs : List Char) : Option (List Char × List Char) :=
  match cs.takeWhile isNameChar with
  | [] => none
  | c :: name => some (c :: name, cs.dropWhile isNameChar)

/-- One subscript: a key in brackets, bare or in quotes of either kind. A quoted key ends at the
first quote of its kind and the bracket must follow at once; a bare key is not empty. -/
def readSubscript? : List Char → Option (SubscriptText × List Char)
  | '[' :: c :: cs =>
    if isQuote c then
      match cs.dropWhile (· ≠ c) with
      | _ :: ']' :: rest => some (⟨cs.takeWhile (· ≠ c), some c⟩, rest)
      | _ => none
    else
      match (c :: cs).takeWhile isBareKeyChar, (c :: cs).dropWhile isBareKeyChar with
      | k :: key, ']' :: rest => some (⟨k :: key, none⟩, rest)
      | _, _ => none
  | _ => none

/-- The text up to the closing parenthesis: the first one outside quotes on the same line. -/
def readInner? (cs : List Char) : Option (List Char × List Char) :=
  let line := cs.takeWhile fun c => c ≠ '\n' && c ≠ '\r'
  match cutUnquoted? ')' .outside line with
  | some (inner, _) => some (inner, cs.drop (inner.length + 1))
  | none => none

/-- One filter call. A parenthesis right after the name must be closed. -/
def readCall? : List Char → Option (CallText × List Char)
  | '|' :: cs =>
    match readName? cs with
    | some (name, '(' :: rest) =>
      match readInner? rest with
      | some (inner, after) => some (⟨name, some inner⟩, after)
      | none => none
    | some (name, rest) => some (⟨name, none⟩, rest)
    | none => none
  | _ => none

theorem eq_of_readName? {cs name rest : List Char} (h : readName? cs = some (name, rest)) :
    cs = name ++ rest := by
  unfold readName? at h
  split at h
  · exact nomatch h
  · rename_i hn
    simp only [Option.some.injEq, Prod.mk.injEq] at h
    rw [← h.1, ← h.2, ← hn, List.takeWhile_append_dropWhile]

private theorem dropWhile_ne_head {c d : Char} {cs rest : List Char}
    (h : cs.dropWhile (· ≠ c) = d :: rest) : d = c := by
  induction cs with
  | nil => exact nomatch h
  | cons x xs ih =>
    by_cases hx : x = c
    · rw [List.dropWhile_cons_of_neg (by simp [hx])] at h
      rw [← (List.cons.inj h).1, hx]
    · rw [List.dropWhile_cons_of_pos (by simp [hx])] at h
      exact ih h

theorem eq_of_readSubscript? {cs rest : List Char} {s : SubscriptText}
    (h : readSubscript? cs = some (s, rest)) : cs = s.written ++ rest := by
  unfold readSubscript? at h
  split at h
  · rename_i c cs
    split at h
    · split at h
      · rename_i d rest' hd
        simp only [Option.some.injEq, Prod.mk.injEq] at h
        obtain ⟨rfl, rfl⟩ := h
        have hc := dropWhile_ne_head hd
        have := List.takeWhile_append_dropWhile (p := fun x => decide (x ≠ c)) (l := cs)
        rw [hd, hc] at this
        conv => lhs; rw [← this]
        simp [SubscriptText.written]
      · exact nomatch h
    · split at h
      · rename_i k key rest' hk hr
        simp only [Option.some.injEq, Prod.mk.injEq] at h
        obtain ⟨rfl, rfl⟩ := h
        have := List.takeWhile_append_dropWhile (p := isBareKeyChar) (l := c :: cs)
        rw [hk, hr] at this
        rw [← this]
        simp [SubscriptText.written]
      · exact nomatch h
  · exact nomatch h

theorem eq_of_readInner? {cs inner rest : List Char} (h : readInner? cs = some (inner, rest)) :
    cs = inner ++ ')' :: rest := by
  simp only [readInner?] at h
  split at h
  · rename_i inner' after hcut
    simp only [Option.some.injEq, Prod.mk.injEq] at h
    obtain ⟨rfl, rfl⟩ := h
    have hline := Text.eq_of_cutUnquoted? hcut
    have := List.takeWhile_append_dropWhile
      (p := fun c : Char => decide (c ≠ '\n') && decide (c ≠ '\r')) (l := cs)
    rw [hline] at this
    rw [← this]
    simp
  · exact nomatch h

theorem eq_of_readCall? {cs rest : List Char} {c : CallText}
    (h : readCall? cs = some (c, rest)) : cs = c.written ++ rest := by
  unfold readCall? at h
  split at h
  · split at h
    · rename_i hn
      split at h
      · rename_i hi
        simp only [Option.some.injEq, Prod.mk.injEq] at h
        obtain ⟨rfl, rfl⟩ := h
        rw [eq_of_readName? hn, eq_of_readInner? hi]
        simp [CallText.written]
      · exact nomatch h
    · rename_i hn
      simp only [Option.some.injEq, Prod.mk.injEq] at h
      obtain ⟨rfl, rfl⟩ := h
      rw [eq_of_readName? hn]
      simp [CallText.written]
    · exact nomatch h
  · exact nomatch h

theorem length_lt_of_readSubscript? {cs rest : List Char} {s : SubscriptText}
    (h : readSubscript? cs = some (s, rest)) : rest.length < cs.length := by
  rw [eq_of_readSubscript? h]; simp [SubscriptText.written]; omega

theorem length_lt_of_readCall? {cs rest : List Char} {c : CallText}
    (h : readCall? cs = some (c, rest)) : rest.length < cs.length := by
  rw [eq_of_readCall? h]; simp [CallText.written]; omega

/-- As many subscripts as follow each other. -/
def readSubscripts (cs : List Char) : List SubscriptText × List Char :=
  match _h : readSubscript? cs with
  | none => ([], cs)
  | some (s, rest) =>
    let (more, after) := readSubscripts rest
    (s :: more, after)
termination_by cs.length
decreasing_by exact length_lt_of_readSubscript? _h

/-- As many filter calls as follow each other. -/
def readCalls (cs : List Char) : List CallText × List Char :=
  match _h : readCall? cs with
  | none => ([], cs)
  | some (c, rest) =>
    let (more, after) := readCalls rest
    (c :: more, after)
termination_by cs.length
decreasing_by exact length_lt_of_readCall? _h

/-- A placeholder, read from right after its `$`. -/
def readPlaceholder? (cs : List Char) : Option (PlaceholderText × List Char) :=
  match readName? cs with
  | none => none
  | some (name, rest) =>
    let (subscripts, rest) := readSubscripts rest
    let (calls, rest) := readCalls rest
    some (⟨name, subscripts, calls⟩, rest)

/-- The first placeholder of a text, with what stands before and after it. A `$` that begins no
placeholder is plain text. -/
def findPlaceholder? : List Char → Option (List Char × PlaceholderText × List Char)
  | [] => none
  | c :: cs =>
    match if c = '$' then readPlaceholder? cs else none with
    | some (p, after) => some ([], p, after)
    | none => (findPlaceholder? cs).map fun (before, p, after) => (c :: before, p, after)

end StyleTemplate
