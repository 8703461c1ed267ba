import StyleTemplate.Proofs.Layers

/-! Laws of merging. A mapping is determined by what is found under its keys, so two merges are the same
if they come to the same under each key; with the induction over the entries of mappings this gives
the laws for values of any depth (`Value.merge_laws`). -/

namespace StyleTemplate

namespace Entries

variable {previous : Option String}

theorem get?_cons_self (key : String) (follows : Follows previous key) (v : Value)
    (rest : Entries (some key)) : (cons key follows v rest).get? key = some v := by
  rw [get?, if_pos rfl]

/-- Of two first keys the smaller one would be found on one side only. -/
private theorem not_lt_of_get? {k k' : String} {follows : Follows previous k}
    {follows' : Follows previous k'} {v v' : Value} {as : Entries (some k)} {bs : Entries (some k')}
    (h : (cons k follows v as).get? k = (cons k' follows' v' bs).get? k) : ¬k < k' := by
  intro hlt
  rw [get?_cons_self, get?, if_neg (String.ne_of_lt hlt), get?_eq_none (String.lt_asymm hlt)] at h
  cases h

/-- Entries with the same values under the same keys are the same. -/
theorem ext_get? : {previous : Option String} → {as bs : Entries previous} →
    (∀ key, as.get? key = bs.get? key) → as = bs
  | _, .nil, .nil, _ => rfl
  | _, .nil, .cons k _ _ _, h => nomatch (h k).trans (get?_cons_self k _ _ _)
  | _, .cons k _ _ _, .nil, h => nomatch (h k).symm.trans (get?_cons_self k _ _ _)
  | _, .cons k _ v as, .cons k' _ v' bs, h => by
    have hle := not_lt_of_get? (h k)
    have hge := not_lt_of_get? (h k').symm
    obtain rfl : k = k' := String.le_antisymm hge hle
    have hvalue := h k
    rw [get?_cons_self, get?_cons_self] at hvalue
    have hrest : as = bs := by
      refine ext_get? fun key => ?_
      by_cases hkey : key = k
      · rw [hkey, get?_eq_none (String.lt_irrefl k) as, get?_eq_none (String.lt_irrefl k) bs]
      · have hkeys := h key
        rwa [get?, if_neg hkey, get?, if_neg hkey] at hkeys
    rw [Option.some.inj hvalue, hrest]

def keys (entries : Entries previous) : List String := entries.toList.map Prod.fst

theorem mem_keys_iff {key : String} : {previous : Option String} → {entries : Entries previous} →
    (key ∈ entries.keys ↔ (entries.get? key).isSome)
  | _, .nil => by simp [keys, toList, get?]
  | _, .cons k follows v rest => by
    have hkeys : (cons k follows v rest).keys = k :: rest.keys := rfl
    rw [hkeys, List.mem_cons, mem_keys_iff, get?]
    by_cases hkey : key = k
    · simp [hkey]
    · simp [hkey]

/-- The keys of both sides are there, and no others. -/
theorem mem_keys_mergeInto {key : String} {overlay : Entries previous} {base : Entries none} :
    key ∈ (overlay.mergeInto base).keys ↔ key ∈ base.keys ∨ key ∈ overlay.keys := by
  rw [mem_keys_iff, mem_keys_iff, mem_keys_iff, get?_mergeInto]
  cases base.get? key <;> cases overlay.get? key <;> simp [Option.merge]

end Entries

namespace Value

mutual
/-- What holds of everything but mappings, and of a mapping if it holds of its entries, holds of all
values. -/
@[elab_as_elim]
theorem mapping_induction {motive : Value → Prop} (other : ∀ v, v.kind ≠ .mapping → motive v)
    (mapping : ∀ entries : Entries none, (∀ key v, entries.get? key = some v → motive v) →
      motive (.mapping entries)) : (v : Value) → motive v
  | .mapping entries => mapping entries (entries_induction other mapping entries)
  | .undefined => other _ nofun
  | .boolean _ => other _ nofun
  | .integer _ => other _ nofun
  | .float _ => other _ nofun
  | .string _ => other _ nofun
  | .sequence _ => other _ nofun

theorem entries_induction {motive : Value → Prop} (other : ∀ v, v.kind ≠ .mapping → motive v)
    (mapping : ∀ entries : Entries none, (∀ key v, entries.get? key = some v → motive v) →
      motive (.mapping entries)) : {previous : Option String} → (entries : Entries previous) →
    ∀ key v, entries.get? key = some v → motive v
  | _, .nil => fun _ _ h => nomatch h
  | _, .cons k _ value rest => by
    intro key v h
    rw [Entries.get?] at h
    split at h
    · rw [← Option.some.inj h]
      exact mapping_induction other mapping value
    · exact entries_induction other mapping rest key v h
end

variable {lower upper entries : Entries none}

theorem merge_mapping (lower upper : Entries none) :
    (mapping lower).merge (mapping upper) = mapping (upper.mergeInto lower) := by
  rw [merge]

/-- Mappings are merged to the mapping that has what both come to under each key. -/
theorem merge_mapping_eq
    (h : ∀ key, Option.merge merge (lower.get? key) (upper.get? key) = entries.get? key) :
    (mapping lower).merge (mapping upper) = mapping entries := by
  have hentries : upper.mergeInto lower = entries :=
    Entries.ext_get? fun key => (Entries.get?_mergeInto key upper lower).trans (h key)
  rw [merge_mapping, hentries]

theorem merge_self (v : Value) : v.merge v = v := by
  induction v using mapping_induction with
  | other v hkind => exact merge_eq_overlay (.inr hkind)
  | mapping entries ih =>
    refine merge_mapping_eq fun key => ?_
    cases h : entries.get? key with
    | none => rfl
    | some v => exact congrArg some (ih key v h)

/-- A layer that is already on top changes nothing. -/
theorem merge_merge_self (base overlay : Value) :
    (base.merge overlay).merge overlay = base.merge overlay := by
  induction overlay using mapping_induction generalizing base with
  | other overlay hkind => rw [merge_eq_overlay (.inr hkind), merge_eq_overlay (.inr hkind)]
  | mapping upper ih =>
    by_cases hbase : base.kind = .mapping
    · cases base <;> cases hbase
      rename_i lower
      rw [merge_mapping]
      refine merge_mapping_eq fun key => ?_
      rw [Entries.get?_mergeInto]
      cases h : upper.get? key with
      | none => cases lower.get? key <;> rfl
      | some v =>
        -- the value is put over what was there before, or over itself
        cases lower.get? key with
        | none => exact congrArg some (merge_self v)
        | some below => exact congrArg some (ih key v h below)
    · rw [merge_eq_overlay (.inl hbase), merge_self]

/-- Values of any depth: a layer that is put on again changes nothing, be it the value itself, and neither
does an empty mapping over a mapping or under one. Two mappings come to a mapping with the keys of both. -/
theorem merge_laws (base overlay : Value) (lower upper : Entries none) :
    (base.merge overlay).merge overlay = base.merge overlay ∧
    base.merge base = base ∧
    (mapping lower).merge (mapping .nil) = mapping lower ∧
    (mapping .nil).merge (mapping lower) = mapping lower ∧
    ∃ entries, (mapping lower).merge (mapping upper) = mapping entries ∧
      ∀ key, key ∈ entries.keys ↔ key ∈ lower.keys ∨ key ∈ upper.keys := by
  refine ⟨merge_merge_self base overlay, merge_self base, ?_, ?_, ?_⟩
  · refine merge_mapping_eq fun key => ?_
    cases lower.get? key <;> rfl
  · refine merge_mapping_eq fun key => ?_
    cases lower.get? key <;> rfl
  · exact ⟨_, merge_mapping lower upper, fun key => Entries.mem_keys_mergeInto⟩

end Value

end StyleTemplate
