import StyleTemplate.Value.Merge

/-! Layered values read along paths of keys. What one more layer does to the value at a path is
`Value.at?_merge`; the values at a path under any number of layers are `Value.layered_mergeAll`. -/

namespace StyleTemplate

namespace Entries

/-- Keys of entries that follow a key are greater, so no other key is found among them. -/
theorem get?_eq_none {previous key : String} (h : ¬previous < key) :
    (entries : Entries (some previous)) → entries.get? key = none
  | .nil => rfl
  | .cons k follows value rest => by
    have hk : previous < k := follows
    have hne : ¬key = k := by
      rintro rfl
      exact h hk
    have hlt : ¬k < key := fun hlt => h (String.lt_trans hk hlt)
    rw [get?, if_neg hne]
    exact get?_eq_none hlt rest

theorem get?_update (key other : String) (change : Option Value → Value) :
    {previous : Option String} → (follows : Follows previous key) → (entries : Entries previous) →
      (entries.update key follows change).get? other =
        if other = key then some (change (entries.get? key)) else entries.get? other
  | _, _, .nil => rfl
  | _, follows, .cons k hk value rest => by
    simp only [update, get?]
    split
    · next he =>
      subst he
      rw [get?]
      split <;> rfl
    · next hne =>
      split
      · next hlt =>
        -- The key stands before all that there are, so nothing was under it.
        have hnone : rest.get? key = none := get?_eq_none (fun h => String.lt_asymm h hlt) rest
        simp only [get?, hnone]
      · rw [get?]
        by_cases hk : other = k
        · have hother : ¬other = key := fun h => hne (h.symm.trans hk)
          rw [if_pos hk, if_neg hother, if_pos hk]
        · rw [if_neg hk, if_neg hk]
          exact get?_update key other change _ rest

theorem get?_mergeInto (key : String) :
    {previous : Option String} → (overlay : Entries previous) → (base : Entries none) →
      (overlay.mergeInto base).get? key =
        Option.merge Value.merge (base.get? key) (overlay.get? key)
  | _, .nil, base => by
    rw [mergeInto, get?]
    cases base.get? key <;> rfl
  | _, .cons k _ value rest, base => by
    rw [mergeInto, get?_mergeInto key rest, get?]
    refine (congrArg (Option.merge Value.merge · _) (get?_update k key _ _ base)).trans ?_
    split
    · next he =>
      subst he
      rw [get?_eq_none (String.lt_irrefl key) rest]
      cases base.get? key <;> rfl
    · rfl

end Entries

namespace Value

/-- The entry of a mapping under a key; nothing else has entries. -/
def child? (v : Value) (key : String) : Option Value :=
  match v with
  | mapping entries => entries.get? key
  | _ => none

/-- The value at the end of a path of keys. -/
def at? (v : Value) : List String → Option Value
  | [] => some v
  | key :: path => (v.child? key).bind fun below => below.at? path

/-- A value that is not a mapping stands at a proper prefix of the path. -/
def Blocks (v : Value) (path : List String) : Prop :=
  ∃ before behind w, path = before ++ behind ∧ behind ≠ [] ∧ v.at? before = some w ∧
    w.kind ≠ .mapping

/-- A layer has something to say about a path. -/
def Speaks (v : Value) (path : List String) : Prop := (v.at? path).isSome ∨ v.Blocks path

theorem at?_cons (v : Value) (key : String) (path : List String) :
    v.at? (key :: path) = (v.child? key).bind fun below => below.at? path := rfl

theorem child?_of_kind {v : Value} (h : v.kind ≠ .mapping) (key : String) :
    v.child? key = none := by
  cases v with
  | mapping => exact absurd rfl h
  | _ => rfl

theorem not_blocks_nil (v : Value) : ¬v.Blocks [] := by
  rintro ⟨before, behind, w, hpath, hne, -, -⟩
  exact hne (List.append_eq_nil_iff.mp hpath.symm).2

theorem blocks_cons {v : Value} {key : String} {path : List String} :
    v.Blocks (key :: path) ↔
      v.kind ≠ .mapping ∨ ∃ below, v.child? key = some below ∧ below.Blocks path := by
  constructor
  · rintro ⟨before, behind, w, hpath, hne, hat, hw⟩
    cases before with
    | nil =>
      obtain rfl := Option.some.inj hat
      exact .inl hw
    | cons k before =>
      obtain ⟨rfl, rfl⟩ := List.cons.inj hpath
      obtain ⟨below, hbelow, hat⟩ := Option.bind_eq_some_iff.mp hat
      exact .inr ⟨below, hbelow, before, behind, w, rfl, hne, hat, hw⟩
  · rintro (hkind | ⟨below, hbelow, before, behind, w, rfl, hne, hat, hw⟩)
    · exact ⟨[], key :: path, v, rfl, List.cons_ne_nil _ _, rfl, hkind⟩
    · refine ⟨key :: before, behind, w, rfl, hne, ?_, hw⟩
      rw [at?_cons, hbelow]
      exact hat

theorem Blocks.at?_eq_none {v : Value} {path : List String} (h : v.Blocks path) :
    v.at? path = none := by
  induction path generalizing v with
  | nil => exact absurd h v.not_blocks_nil
  | cons key path ih =>
    rw [at?_cons]
    rcases blocks_cons.mp h with hkind | ⟨below, hbelow, h⟩
    · rw [child?_of_kind hkind]
      rfl
    · rw [hbelow]
      exact ih h

theorem not_blocks_of_at? {v w : Value} {path : List String} (h : v.at? path = some w) :
    ¬v.Blocks path :=
  fun hblocks => nomatch hblocks.at?_eq_none.symm.trans h

theorem merge_eq_overlay {base overlay : Value}
    (h : base.kind ≠ .mapping ∨ overlay.kind ≠ .mapping) : base.merge overlay = overlay := by
  cases overlay with
  | mapping =>
    have hbase : base.kind ≠ .mapping := h.resolve_right fun h => h rfl
    rw [merge]
    rintro _ rfl
    exact hbase rfl
  | _ => rw [merge]; rintro _ ⟨⟩

theorem child?_merge (base : Value) {overlay : Value} (h : overlay.kind = .mapping)
    (key : String) :
    (base.merge overlay).child? key =
      Option.merge merge (base.child? key) (overlay.child? key) := by
  by_cases hbase : base.kind = .mapping
  · cases base <;> cases hbase
    cases overlay <;> cases h
    rw [merge]
    exact Entries.get?_mergeInto key _ _
  · rw [merge_eq_overlay (.inl hbase), child?_of_kind hbase]
    cases overlay.child? key <;> rfl

open Classical in
/-- One more layer. It hides all that is below where it blocks the path, and elsewhere its value
at the path is merged over the one that is there. -/
theorem at?_merge (base overlay : Value) (path : List String) :
    (base.merge overlay).at? path =
      if overlay.Blocks path then none
      else Option.merge merge (base.at? path) (overlay.at? path) := by
  induction path generalizing base overlay with
  | nil =>
    rw [if_neg overlay.not_blocks_nil]
    rfl
  | cons key path ih =>
    by_cases hkind : overlay.kind = .mapping
    · rw [at?_cons, at?_cons, at?_cons, child?_merge base hkind]
      have hblocks : overlay.Blocks (key :: path) ↔
          ∃ below, overlay.child? key = some below ∧ below.Blocks path := by
        rw [blocks_cons]
        exact or_iff_right (not_not_intro hkind)
      cases hover : overlay.child? key with
      | none =>
        rw [if_neg (by rw [hblocks, hover]; rintro ⟨_, h, -⟩; exact nomatch h)]
        cases base.child? key with
        | none => rfl
        | some lower => cases h : lower.at? path <;> simp [Option.merge, h]
      | some upper =>
        have hiff : overlay.Blocks (key :: path) ↔ upper.Blocks path := by
          rw [hblocks, hover]
          simp
        simp only [hiff]
        cases base.child? key with
        | some lower => exact ih lower upper
        | none =>
          split
          · next h => exact h.at?_eq_none
          · cases h : upper.at? path <;> simp [Option.merge, h]
    · rw [merge_eq_overlay (.inr hkind), if_pos (blocks_cons.mpr (.inl hkind)), at?_cons,
        child?_of_kind hkind]
      rfl

theorem mergeAll_append (base : Value) (below above : List Value) :
    base.mergeAll (below ++ above) = (base.mergeAll below).mergeAll above := List.foldl_append ..

theorem mergeAll_cons (base layer : Value) (layers : List Value) :
    base.mergeAll (layer :: layers) = (base.merge layer).mergeAll layers := rfl

/-- Layers that block nothing add their values at the path to the one that is there. -/
theorem at?_mergeAll {path : List String} {layers : List Value}
    (h : ∀ layer ∈ layers, ¬layer.Blocks path) (base : Value) :
    (base.mergeAll layers).at? path =
      (layers.filterMap (·.at? path)).foldl (fun seen w => Option.merge merge seen (some w))
        (base.at? path) := by
  induction layers generalizing base with
  | nil => rfl
  | cons layer layers ih =>
    obtain ⟨hlayer, hlayers⟩ := List.forall_mem_cons.mp h
    rw [mergeAll_cons, ih hlayers, at?_merge, if_neg hlayer, List.filterMap_cons]
    cases layer.at? path with
    | none => cases base.at? path <;> rfl
    | some w => rfl

/-- The highest of some layers that speaks about a path. -/
def Highest (layers : List Value) (path : List String) (top : Value) : Prop :=
  ∃ below above, layers = below ++ top :: above ∧ top.Speaks path ∧
    ∀ layer ∈ above, ¬layer.Speaks path

theorem exists_highest {layers : List Value} {path : List String}
    (h : ∃ layer ∈ layers, layer.Speaks path) : ∃ top, Highest layers path top := by
  induction layers with
  | nil =>
    obtain ⟨_, hmem, -⟩ := h
    exact nomatch hmem
  | cons lowest layers ih =>
    by_cases hrest : ∃ layer ∈ layers, layer.Speaks path
    · obtain ⟨top, below, above, rfl, htop, habove⟩ := ih hrest
      exact ⟨top, lowest :: below, above, rfl, htop, habove⟩
    · obtain ⟨layer, hmem, hspeaks⟩ := h
      rcases List.mem_cons.mp hmem with rfl | hmem
      · exact ⟨layer, [], layers, rfl, hspeaks, fun layer hmem h => hrest ⟨layer, hmem, h⟩⟩
      · exact absurd ⟨layer, hmem, hspeaks⟩ hrest

theorem at?_mergeAll_of_silent {path : List String} {layers : List Value}
    (h : ∀ layer ∈ layers, ¬layer.Speaks path) (base : Value) :
    (base.mergeAll layers).at? path = base.at? path := by
  have hnone : layers.filterMap (·.at? path) = [] := by
    refine List.filterMap_eq_nil_iff.mpr fun layer hmem => ?_
    exact Option.not_isSome_iff_eq_none.mp fun hat => h layer hmem (.inl hat)
  rw [at?_mergeAll (fun layer hmem hblocks => h layer hmem (.inr hblocks)), hnone]
  rfl

open Classical in
/-- What the highest layer that speaks about a path makes of what lies below it. -/
theorem at?_highest {base : Value} {layers : List Value} {path : List String} {top : Value}
    (h : Highest (base :: layers) path top) :
    ∃ lower, (base.mergeAll layers).at? path =
      if top.Blocks path then none else Option.merge merge lower (top.at? path) := by
  obtain ⟨below, above, hlayers, -, habove⟩ := h
  cases below with
  | nil =>
    obtain ⟨rfl, rfl⟩ := List.cons.inj hlayers
    refine ⟨none, ?_⟩
    rw [at?_mergeAll_of_silent habove]
    split
    · next hblocks => exact hblocks.at?_eq_none
    · cases base.at? path <;> rfl
  | cons lowest below =>
    have hrest : layers = below ++ top :: above := (List.cons.inj hlayers).2
    refine ⟨(base.mergeAll below).at? path, ?_⟩
    subst hrest
    rw [mergeAll_append, mergeAll_cons, at?_mergeAll_of_silent habove, at?_merge]

theorem at?_mergeAll_of_blocked {base : Value} {layers : List Value} {path : List String}
    (h : ∀ layer ∈ (base :: layers).getLast?, layer.Blocks path) :
    (base.mergeAll layers).at? path = none := by
  rcases List.eq_nil_or_concat layers with rfl | ⟨lower, last, rfl⟩
  · exact (h base rfl).at?_eq_none
  · rw [List.concat_eq_append, ← List.cons_append, List.getLast?_concat] at h
    have hmerge : base.mergeAll (lower ++ [last]) = (base.mergeAll lower).merge last :=
      mergeAll_append ..
    rw [List.concat_eq_append, hmerge, at?_merge, if_pos (h last rfl)]

theorem foldl_merge (w : Value) (ws : List Value) :
    ws.foldl (fun seen w => Option.merge merge seen (some w)) (some w) = some (w.mergeAll ws) := by
  induction ws generalizing w with
  | nil => rfl
  | cons w' ws ih => exact ih (w.merge w')

/-- The values at a path, where no layer blocks it. -/
theorem at?_mergeAll_of_values {base w : Value} {layers ws : List Value} {path : List String}
    (h : ∀ layer ∈ base :: layers, ¬layer.Blocks path)
    (hvalues : (base :: layers).filterMap (·.at? path) = w :: ws) :
    (base.mergeAll layers).at? path = some (w.mergeAll ws) := by
  rw [at?_mergeAll (List.forall_mem_cons.mp h).2]
  rw [List.filterMap_cons] at hvalues
  cases hbase : base.at? path with
  | none =>
    simp only [hbase] at hvalues
    rw [hvalues]
    exact foldl_merge w ws
  | some lowest =>
    simp only [hbase] at hvalues
    obtain ⟨rfl, rfl⟩ := List.cons.inj hvalues
    exact foldl_merge lowest _

theorem merge_scalar {w : Value} (h : w.kind ≠ .mapping) (lower : Option Value) :
    Option.merge merge lower (some w) = some w := by
  cases lower with
  | none => rfl
  | some below => exact congrArg some (merge_eq_overlay (.inr h))

theorem exists_merge_mapping (lower : Option Value) (overlay : Entries none) :
    ∃ entries, Option.merge merge lower (some (.mapping overlay)) = some (.mapping entries) := by
  cases lower with
  | none => exact ⟨overlay, rfl⟩
  | some below =>
    by_cases h : below.kind = .mapping
    · cases below <;> cases h
      exact ⟨_, by rw [Option.merge, merge]⟩
    · exact ⟨overlay, congrArg some (merge_eq_overlay (.inl h))⟩

/-- The value at a path in layers put over a base, the base and the layers taken from below. -/
structure Layered (base : Value) (layers : List Value) (path : List String) : Prop where
  silent : (∀ layer ∈ base :: layers, ¬layer.Speaks path) → (base.mergeAll layers).at? path = none
  highest : (∃ layer ∈ base :: layers, layer.Speaks path) → ∃ top, Highest (base :: layers) path top
  blocked : ∀ top, Highest (base :: layers) path top → top.Blocks path →
    (base.mergeAll layers).at? path = none
  scalar : ∀ top w, Highest (base :: layers) path top → top.at? path = some w →
    w.kind ≠ .mapping → (base.mergeAll layers).at? path = some w
  mapping : ∀ top entries, Highest (base :: layers) path top →
    top.at? path = some (.mapping entries) →
    ∃ entries', (base.mergeAll layers).at? path = some (.mapping entries')
  /-- Above the last layer that blocks the path, the values there are layered themselves. -/
  merged : ∀ below above w ws, base :: layers = below ++ above →
    (∀ layer ∈ below.getLast?, layer.Blocks path) → (∀ layer ∈ above, ¬layer.Blocks path) →
    above.filterMap (·.at? path) = w :: ws →
    (base.mergeAll layers).at? path = some (w.mergeAll ws)
  /-- Two layers with a mapping each. -/
  pair : ∀ overlay lower upper, layers = [overlay] → base.at? path = some (.mapping lower) →
    overlay.at? path = some (.mapping upper) →
    (base.mergeAll layers).at? path = some ((Value.mapping lower).merge (.mapping upper))

theorem layered_mergeAll (base : Value) (layers : List Value) (path : List String) :
    Layered base layers path where
  silent h := by
    have hbase := h base List.mem_cons_self
    rw [at?_mergeAll_of_silent fun layer hmem => h layer (List.mem_cons_of_mem _ hmem)]
    exact Option.not_isSome_iff_eq_none.mp fun hat => hbase (.inl hat)
  highest := exists_highest
  blocked top htop hblocks := by
    obtain ⟨lower, hat⟩ := at?_highest htop
    rw [hat, if_pos hblocks]
  scalar top w htop hw hkind := by
    obtain ⟨lower, hat⟩ := at?_highest htop
    rw [hat, if_neg (not_blocks_of_at? hw), hw]
    exact merge_scalar hkind lower
  mapping top entries htop hentries := by
    obtain ⟨lower, hat⟩ := at?_highest htop
    rw [hat, if_neg (not_blocks_of_at? hentries), hentries]
    exact exists_merge_mapping lower entries
  merged below above w ws hlayers hbelow habove hvalues := by
    cases below with
    | nil =>
      obtain rfl : base :: layers = above := hlayers
      exact at?_mergeAll_of_values habove hvalues
    | cons lowest below =>
      obtain ⟨rfl, hrest⟩ : base = lowest ∧ layers = below ++ above := List.cons.inj hlayers
      rw [hrest, mergeAll_append, at?_mergeAll habove, at?_mergeAll_of_blocked hbelow, hvalues]
      exact foldl_merge w ws
  pair overlay lower upper hlayers hlower hupper := by
    have hmerge : base.mergeAll layers = base.merge overlay := by
      rw [hlayers]
      rfl
    rw [hmerge, at?_merge, if_neg (not_blocks_of_at? hupper), hlower, hupper]
    rfl

end Value

end StyleTemplate
