import StyleTemplate.Engine
import StyleTemplate.Proofs.Grammar.Bytes

/-! Which sources an engine can compile. A source has placeholders exactly when a `$` with a name
character behind it stands somewhere in it, and without them it compiles to itself, whoever compiles
it; so a resolver is wanting exactly where there is none and such a `$` is there
(`Engine.compile_eq_error_iff`). -/

namespace StyleTemplate

open Grammar (NoSigil Sigil SigilAmong bytesOf)

/-- A `$` with a byte of a name right behind it is among the bytes of the source. -/
def HoldsSigil (source : String) : Prop := SigilAmong source.toByteArray.data.toList

instance : DecidablePred HoldsSigil := fun _ => inferInstanceAs (Decidable (SigilAmong _))

namespace Grammar

variable {cs : List Char}

/-- Text without a sigil is one segment, however long it is. -/
theorem segmentsOf_plain (h : NoSigil cs []) : segmentsOf cs = Segment.plain 0 cs := by
  cases cs with
  | nil => rfl
  | cons c cs =>
    rw [segmentsOf, List.length_cons, Cursor.segments, Cursor.next?, if_neg (List.cons_ne_nil c cs),
      findPlaceholder?_eq_none_iff.mpr h]
    have hend (fuel position : Nat) : Cursor.segments (c :: cs) fuel ⟨position, []⟩ = [] := by
      cases fuel <;> rfl
    simp only [hend, List.append_nil]

/-- A source has placeholders exactly where it has a sigil. -/
theorem placeholdersOf_eq_nil_iff : placeholdersOf cs = [] ↔ NoSigil cs [] := by
  constructor
  · intro h
    rw [← findPlaceholder?_eq_none_iff]
    cases hfind : findPlaceholder? cs with
    | none => rfl
    | some found =>
      -- the first step already yields a placeholder, wherever reading goes on
      have hne : cs ≠ [] := by
        rintro rfl
        exact nomatch hfind
      obtain ⟨n, hn⟩ := Nat.exists_eq_succ_of_ne_zero (mt List.length_eq_zero_iff.mp hne)
      rw [placeholdersOf, segmentsOf, hn, Cursor.segments, Cursor.next?, if_neg hne, hfind] at h
      simp [Segment.placeholder?] at h
  · intro h
    rw [placeholdersOf, segmentsOf_plain h, Segment.plain]
    split <;> rfl

end Grammar

theorem noSigil_toList {source : String} : NoSigil source.toList [] ↔ ¬HoldsSigil source := by
  rw [HoldsSigil, Grammar.bytes_eq, Grammar.noSigil_iff]

/-- Text without placeholders compiles to itself. -/
theorem compile_plain {source : String} (h : ¬HoldsSigil source) (resolver : Resolver)
    (filters : Filters) : compile source resolver filters = ⟨source, []⟩ := by
  rw [compile, Grammar.segmentsOf_plain (noSigil_toList.mpr h), Segment.plain]
  have hsource : String.ofList source.toList = source := String.ofList_toList
  split
  · rename_i hempty
    rw [← hsource, hempty]
    rfl
  · simp [Segment.evaluate, hsource]

namespace Engine

/-- An engine fails on a source only where it has no resolver for the handle and the source has a
sigil, and there it does; a source without one comes out as it is from every engine. -/
theorem compile_eq_error_iff (handle source : String) :
    (∀ (e : Engine) (error : RenderError), e.compile handle source = .error error ↔
      e.resolvers.get? handle = none ∧ HoldsSigil source ∧ error = .unresolvedProvider handle) ∧
    (¬HoldsSigil source → (∀ e : Engine, e.compile handle source = .ok ⟨source, []⟩) ∧
      ∀ resolver filters, StyleTemplate.compile source resolver filters = ⟨source, []⟩) := by
  refine ⟨fun e error => ?_, fun hplain => ⟨fun e => ?_, compile_plain hplain⟩⟩
  · unfold compile
    cases e.resolvers.get? handle with
    | some resolver => simp
    | none =>
      by_cases hsigil : HoldsSigil source
      · have hsome : ¬placeholdersOf source.toList = [] := fun h =>
          noSigil_toList.mp (Grammar.placeholdersOf_eq_nil_iff.mp h) hsigil
        simp [hsome, hsigil, eq_comm]
      · simp [Grammar.placeholdersOf_eq_nil_iff.mpr (noSigil_toList.mpr hsigil), hsigil]
  · unfold compile
    split
    · rw [compile_plain hplain]
    · rw [if_pos (Grammar.placeholdersOf_eq_nil_iff.mpr (noSigil_toList.mpr hplain))]

/-- Every `$` has a blank, another `$` or a letter outside ASCII behind it. -/
theorem compile_eq_error_iff_blank :
    ¬HoldsSigil "$ 5 $$é $" ∧
      (∀ e : Engine, e.compile "theme" "$ 5 $$é $" = .ok ⟨"$ 5 $$é $", []⟩) ∧
        ∀ resolver filters, StyleTemplate.compile "$ 5 $$é $" resolver filters = ⟨"$ 5 $$é $", []⟩ :=
  have hplain : ¬HoldsSigil "$ 5 $$é $" := by decide
  ⟨hplain, (compile_eq_error_iff "theme" "$ 5 $$é $").2 hplain⟩

end Engine

end StyleTemplate
