/-! Positions in a text, counted in the bytes of its UTF-8 form. -/

namespace StyleTemplate.Text

/-- How many bytes a text takes. -/
def byteSize : List Char → Nat
  | [] => 0
  | c :: cs => c.utf8Size + byteSize cs

/-- The text from byte `n` on, unless `n` lies inside a character or past the end. -/
def dropBytes? : Nat → List Char → Option (List Char)
  | 0, cs => some cs
  | _ + 1, [] => none
  | n + 1, c :: cs =>
    if c.utf8Size ≤ n + 1 then dropBytes? (n + 1 - c.utf8Size) cs else none

/-- The first `n` bytes of a text, unless `n` lies inside a character or past the end. -/
def takeBytes? : Nat → List Char → Option (List Char)
  | 0, _ => some []
  | _ + 1, [] => none
  | n + 1, c :: cs =>
    if c.utf8Size ≤ n + 1 then (takeBytes? (n + 1 - c.utf8Size) cs).map (c :: ·) else none

/-- The text from byte `start` up to byte `stop`, when both are character boundaries in order. -/
def slice? (start stop : Nat) (cs : List Char) : Option (List Char) :=
  if start ≤ stop then dropBytes? start cs >>= takeBytes? (stop - start) else none

@[simp] theorem byteSize_nil : byteSize [] = 0 := rfl

@[simp] theorem byteSize_cons (c : Char) (cs : List Char) :
    byteSize (c :: cs) = c.utf8Size + byteSize cs := rfl

@[simp] theorem byteSize_append (as bs : List Char) :
    byteSize (as ++ bs) = byteSize as + byteSize bs := by
  induction as with
  | nil => simp
  | cons a as ih => simp [ih, Nat.add_assoc]

theorem byteSize_reverse (cs : List Char) : byteSize cs.reverse = byteSize cs := by
  induction cs with
  | nil => rfl
  | cons c cs ih =>
    rw [List.reverse_cons, byteSize_append, ih, byteSize_cons, byteSize_cons, byteSize_nil,
      Nat.add_zero, Nat.add_comm]

theorem length_le_byteSize (cs : List Char) : cs.length ≤ byteSize cs := by
  induction cs with
  | nil => simp
  | cons c cs ih => have := c.utf8Size_pos; simp; omega

theorem byteSize_pos {cs : List Char} (h : cs ≠ []) : 0 < byteSize cs :=
  Nat.lt_of_lt_of_le (List.length_pos_iff.mpr h) (length_le_byteSize cs)

@[simp] theorem dropBytes?_zero (cs : List Char) : dropBytes? 0 cs = some cs := by
  cases cs <;> rfl

@[simp] theorem takeBytes?_zero (cs : List Char) : takeBytes? 0 cs = some [] := by
  cases cs <;> rfl

/-- A character of ASCII takes one byte. -/
theorem utf8Size_eq_one {c : Char} (h : c.toNat < 0x80) : c.utf8Size = 1 := by
  refine Char.utf8Size_eq_one_iff.mpr ?_
  rw [UInt32.le_iff_toNat_le]
  exact Nat.le_of_lt_succ h

/-- Characters of ASCII are as many as their bytes. -/
theorem byteSize_eq_length {cs : List Char} (h : ∀ c ∈ cs, c.toNat < 0x80) :
    byteSize cs = cs.length := by
  induction cs with
  | nil => rfl
  | cons c cs ih =>
    obtain ⟨hc, hcs⟩ := List.forall_mem_cons.mp h
    rw [byteSize_cons, utf8Size_eq_one hc, ih hcs, List.length_cons, Nat.add_comm]

/-- Dropping as many bytes as a text has leaves what follows the text. -/
theorem dropBytes?_append (as bs : List Char) : dropBytes? (byteSize as) (as ++ bs) = some bs := by
  induction as with
  | nil => simp
  | cons a as ih =>
    obtain ⟨n, hn⟩ : ∃ n, a.utf8Size = n + 1 := ⟨a.utf8Size - 1, by have := a.utf8Size_pos; omega⟩
    have h : byteSize (a :: as) = (byteSize as + n) + 1 := by simp [hn]; omega
    rw [h, List.cons_append, dropBytes?, if_pos (by omega), hn,
      show byteSize as + n + 1 - (n + 1) = byteSize as by omega, ih]

/-- What is left behind the first `n` bytes follows a text of that size. -/
theorem eq_of_dropBytes? {n : Nat} {cs rest : List Char} (h : dropBytes? n cs = some rest) :
    ∃ front, cs = front ++ rest ∧ byteSize front = n := by
  fun_induction dropBytes? n cs with
  | case1 cs => exact ⟨[], Option.some.inj h, rfl⟩
  | case2 => exact nomatch h
  | case3 n c cs hsize ih =>
    obtain ⟨front, rfl, hfront⟩ := ih h
    refine ⟨c :: front, rfl, ?_⟩
    rw [byteSize_cons, hfront]
    omega
  | case4 => exact nomatch h

/-- The first `n` bytes of a text take `n` bytes. -/
theorem byteSize_of_takeBytes? {n : Nat} {cs front : List Char} (h : takeBytes? n cs = some front) :
    byteSize front = n := by
  fun_induction takeBytes? n cs generalizing front with
  | case1 cs =>
    obtain rfl := Option.some.inj h
    rfl
  | case2 => exact nomatch h
  | case3 n c cs hsize ih =>
    obtain ⟨rest, hrest, rfl⟩ := Option.map_eq_some_iff.mp h
    rw [byteSize_cons, ih hrest]
    omega
  | case4 => exact nomatch h

/-- Taking as many bytes as a text has gives the text. -/
theorem takeBytes?_append (as bs : List Char) : takeBytes? (byteSize as) (as ++ bs) = some as := by
  induction as with
  | nil => simp
  | cons a as ih =>
    obtain ⟨n, hn⟩ : ∃ n, a.utf8Size = n + 1 := ⟨a.utf8Size - 1, by have := a.utf8Size_pos; omega⟩
    have h : byteSize (a :: as) = (byteSize as + n) + 1 := by simp [hn]; omega
    rw [h, List.cons_append, takeBytes?, if_pos (by omega), hn,
      show byteSize as + n + 1 - (n + 1) = byteSize as by omega, ih, Option.map_some]

/-- The bytes from the end of one text to the end of the next are the next text. -/
theorem slice?_append (as bs cs : List Char) :
    slice? (byteSize as) (byteSize as + byteSize bs) (as ++ (bs ++ cs)) = some bs := by
  rw [slice?, if_pos (Nat.le_add_right _ _), dropBytes?_append, Nat.add_sub_cancel_left]
  exact takeBytes?_append bs cs

/-- What stands from one byte to another takes the bytes between them. -/
theorem byteSize_of_slice? {start stop : Nat} {cs piece : List Char}
    (h : slice? start stop cs = some piece) : byteSize piece = stop - start := by
  rw [slice?] at h
  split at h
  · obtain ⟨rest, -, hpiece⟩ := Option.bind_eq_some_iff.mp h
    exact byteSize_of_takeBytes? hpiece
  · exact nomatch h

end StyleTemplate.Text
