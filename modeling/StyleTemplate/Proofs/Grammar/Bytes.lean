import StyleTemplate.Proofs.Grammar.Segments

/-! Where placeholders begin, seen from the bytes of a source. The bytes of a character outside ASCII
stand for nothing else, so a `$` with a name character behind it shows as such in the bytes
(`Grammar.noSigil_iff`). -/

namespace StyleTemplate.Grammar

/-- The codes of name characters: the letters and digits of ASCII, `_` and `-`. -/
def NameCode (n : Nat) : Prop :=
  ('A'.toNat ≤ n ∧ n ≤ 'Z'.toNat) ∨ ('a'.toNat ≤ n ∧ n ≤ 'z'.toNat) ∨
    ('0'.toNat ≤ n ∧ n ≤ '9'.toNat) ∨ n = '_'.toNat ∨ n = '-'.toNat

instance : DecidablePred NameCode := fun _ => inferInstanceAs (Decidable (_ ∨ _))

/-- Somewhere among the bytes is a `$` with a byte of a name right behind it. -/
def SigilAmong (bytes : List UInt8) : Prop :=
  ∃ before b after, bytes = before ++ '$'.toUInt8 :: b :: after ∧ NameCode b.toNat

/-- The bytes of a text in UTF-8. -/
def bytesOf (cs : List Char) : List UInt8 := cs.flatMap String.utf8EncodeChar

theorem bytesOf_cons (c : Char) (cs : List Char) :
    bytesOf (c :: cs) = String.utf8EncodeChar c ++ bytesOf cs := rfl

theorem bytes_eq (source : String) : source.toByteArray.data.toList = bytesOf source.toList := by
  rw [← String.utf8Encode_toList]
  exact List.toList_data_toByteArray

/-! ### The bytes of a character -/

theorem nameChar_iff {c : Char} : NameChar c ↔ NameCode c.toNat := by
  simp only [NameChar, NameCode, Char.le_def, UInt32.le_iff_toNat_le, ← Char.toNat_inj]
  rfl

theorem toNat_toUInt8 {c : Char} (h : c.toNat < 0x80) : c.toUInt8.toNat = c.toNat := by
  have hmod : c.toUInt8.toNat = c.toNat % 256 := rfl
  omega

theorem utf8EncodeChar_ascii {c : Char} (h : c.toNat < 0x80) :
    String.utf8EncodeChar c = [c.toUInt8] :=
  String.utf8EncodeChar_eq_singleton (Text.utf8Size_eq_one h)

theorem le_of_mem_utf8EncodeChar {c : Char} (h : ¬c.toNat < 0x80) :
    ∀ b ∈ String.utf8EncodeChar c, 0x80 ≤ b.toNat := by
  have hwide : ¬c.val.toNat ≤ 0x7f := fun hle => h (Nat.lt_succ_of_le hle)
  unfold String.utf8EncodeChar
  simp only [hwide, if_false]
  split
  · simp only [List.forall_mem_cons, UInt8.toNat_ofNat']
    exact ⟨by omega, by omega, nofun⟩
  · split
    · simp only [List.forall_mem_cons, UInt8.toNat_ofNat']
      exact ⟨by omega, by omega, by omega, nofun⟩
    · simp only [List.forall_mem_cons, UInt8.toNat_ofNat']
      exact ⟨by omega, by omega, by omega, by omega, nofun⟩

/-- A text begins with a name character where its bytes begin with the code of one. -/
theorem head?_bytesOf (cs : List Char) :
    (∃ b ∈ (bytesOf cs).head?, NameCode b.toNat) ↔ ∃ c ∈ cs.head?, NameChar c := by
  cases cs with
  | nil => simp [bytesOf]
  | cons c cs =>
    rw [bytesOf_cons]
    by_cases hc : c.toNat < 0x80
    · rw [utf8EncodeChar_ascii hc]
      simp [nameChar_iff, toNat_toUInt8 hc]
    · -- the first byte of a longer character is too large for a name, as is the character
      obtain ⟨b, bs, hbytes⟩ := List.exists_cons_of_ne_nil (String.utf8EncodeChar_ne_nil (c := c))
      have hb := le_of_mem_utf8EncodeChar hc b (hbytes ▸ List.mem_cons_self)
      rw [hbytes]
      simp [nameChar_iff, NameCode]
      omega

/-! ### Bytes and texts with a sigil -/

theorem sigilAmong_cons {b : UInt8} {bytes : List UInt8} :
    SigilAmong (b :: bytes) ↔
      (b = '$'.toUInt8 ∧ ∃ x ∈ bytes.head?, NameCode x.toNat) ∨ SigilAmong bytes := by
  constructor
  · rintro ⟨before, x, after, hbytes, hx⟩
    cases before with
    | nil =>
      obtain ⟨rfl, rfl⟩ := List.cons.inj hbytes
      exact .inl ⟨rfl, x, rfl, hx⟩
    | cons y before => exact .inr ⟨before, x, after, (List.cons.inj hbytes).2, hx⟩
  · rintro (⟨rfl, x, hx, hname⟩ | ⟨before, x, after, rfl, hx⟩)
    · obtain ⟨after, rfl⟩ := List.head?_eq_some_iff.mp hx
      exact ⟨[], x, after, rfl, hname⟩
    · exact ⟨b :: before, x, after, rfl, hx⟩

instance decidableSigilAmong : DecidablePred SigilAmong
  | [] => isFalse fun ⟨_, _, _, h, _⟩ =>
    List.append_ne_nil_of_right_ne_nil _ (List.cons_ne_nil _ _) h.symm
  | _ :: bytes =>
    have := decidableSigilAmong bytes
    decidable_of_iff _ sigilAmong_cons.symm

theorem sigilAmong_append {front bytes : List UInt8} (h : '$'.toUInt8 ∉ front) :
    SigilAmong (front ++ bytes) ↔ SigilAmong bytes := by
  induction front with
  | nil => rfl
  | cons b front ih =>
    rw [List.mem_cons, not_or] at h
    rw [List.cons_append, sigilAmong_cons, ih h.2, or_iff_right fun hb => h.1 hb.1.symm]

theorem sigil_cons {c : Char} {cs : List Char} :
    Sigil (c :: cs) ↔ c = '$' ∧ ∃ d ∈ cs.head?, NameChar d := by
  constructor
  · rintro ⟨d, rest, heq, hd⟩
    obtain ⟨rfl, rfl⟩ := List.cons.inj heq
    exact ⟨rfl, d, rfl, hd⟩
  · rintro ⟨rfl, d, hd, hname⟩
    obtain ⟨rest, rfl⟩ := List.head?_eq_some_iff.mp hd
    exact ⟨d, rest, rfl, hname⟩

/-- A text is without a sigil exactly when its bytes are. -/
theorem noSigil_iff (cs : List Char) : NoSigil cs [] ↔ ¬SigilAmong (bytesOf cs) := by
  induction cs with
  | nil => simp [bytesOf, SigilAmong]
  | cons c cs ih =>
    rw [noSigil_cons, List.append_nil, ih, ← not_or, not_iff_not, sigil_cons, ← head?_bytesOf,
      bytesOf_cons]
    by_cases hc : c.toNat < 0x80
    · have hsigil : c.toUInt8 = '$'.toUInt8 ↔ c = '$' := by
        rw [← UInt8.toNat_inj, toNat_toUInt8 hc, ← Char.toNat_inj]
        rfl
      rw [utf8EncodeChar_ascii hc, List.singleton_append, sigilAmong_cons, hsigil]
    · have hfront : '$'.toUInt8 ∉ String.utf8EncodeChar c := fun hmem =>
        absurd (le_of_mem_utf8EncodeChar hc _ hmem) (by decide)
      have hne : c ≠ '$' := by
        rintro rfl
        exact hc (by decide)
      rw [sigilAmong_append hfront, or_iff_right fun h => hne h.1]

end StyleTemplate.Grammar
