/-! Values under distinct names, kept in the order of the names. A table is determined by its
look-ups (`Table.ext_get?`), so the order in which names were inserted leaves no trace. -/

namespace StyleTemplate

/-- Values under distinct names, names ascending. -/
structure Table (α : Type) where
  entries : List (String × α)
  ordered : entries.Pairwise fun a b => a.1 < b.1

namespace Table

variable {α : Type}

/-- The first value paired with `name`. -/
def lookup (name : String) : List (String × α) → Option α
  | [] => none
  | e :: es => if name = e.1 then some e.2 else lookup name es

/-- Pairs in ascending order of their names, with `value` put under `name`. -/
def put (name : String) (value : α) : List (String × α) → List (String × α)
  | [] => [(name, value)]
  | e :: es =>
    if name = e.1 then (name, value) :: es
    else if name < e.1 then (name, value) :: e :: es
    else e :: put name value es

private theorem mem_put {name : String} {value : α} {es : List (String × α)} {e : String × α}
    (h : e ∈ put name value es) : e = (name, value) ∨ e ∈ es := by
  induction es with
  | nil => exact .inl (List.mem_singleton.mp h)
  | cons x xs ih => unfold put at h; grind

private theorem put_ordered (name : String) (value : α) {es : List (String × α)}
    (h : es.Pairwise fun a b => a.1 < b.1) :
    (put name value es).Pairwise fun a b => a.1 < b.1 := by
  induction es with
  | nil => exact List.pairwise_singleton _ _
  | cons x xs ih =>
    obtain ⟨hx, hxs⟩ := List.pairwise_cons.mp h
    unfold put
    split
    · rename_i he
      exact List.pairwise_cons.mpr ⟨fun e hm => he ▸ hx e hm, hxs⟩
    · split
      · rename_i hlt
        refine List.pairwise_cons.mpr ⟨fun e hm => ?_, h⟩
        rcases List.mem_cons.mp hm with rfl | hm
        · exact hlt
        · exact String.lt_trans hlt (hx e hm)
      · rename_i hne hnlt
        refine List.pairwise_cons.mpr ⟨fun e hm => ?_, ih hxs⟩
        rcases mem_put hm with rfl | hm
        · grind
        · exact hx e hm

def empty : Table α := ⟨[], .nil⟩

instance : EmptyCollection (Table α) := ⟨empty⟩

instance : Inhabited (Table α) := ⟨empty⟩

/-- The value under a name. -/
def get? (t : Table α) (name : String) : Option α := lookup name t.entries

/-- Whether a name has a value. -/
def contains (t : Table α) (name : String) : Bool := (t.get? name).isSome

/-- Puts a value under a name, in place of an earlier one. -/
def insert (t : Table α) (name : String) (value : α) : Table α :=
  ⟨put name value t.entries, put_ordered name value t.ordered⟩

/-- Takes a name out. -/
def erase (t : Table α) (name : String) : Table α :=
  ⟨t.entries.filter (·.1 ≠ name), t.ordered.filter _⟩

/-- The names, ascending. -/
def names (t : Table α) : List String := t.entries.map (·.1)

def size (t : Table α) : Nat := t.entries.length

/-- The entries of `upper` put over those of `lower`. -/
def overlay (lower upper : Table α) : Table α :=
  upper.entries.foldl (fun t (name, value) => t.insert name value) lower

/-- A table of pairs, a later pair replacing an earlier one of the same name. -/
def ofList (pairs : List (String × α)) : Table α :=
  pairs.foldl (fun t (name, value) => t.insert name value) ∅

@[simp] theorem get?_empty (name : String) : (∅ : Table α).get? name = none := rfl

private theorem lookup_put (name key : String) (value : α) (es : List (String × α)) :
    lookup key (put name value es) = if key = name then some value else lookup key es := by
  induction es with
  | nil => rfl
  | cons x xs ih => unfold put; grind [lookup]

@[simp] theorem get?_insert (t : Table α) (name key : String) (value : α) :
    (t.insert name value).get? key = if key = name then some value else t.get? key :=
  lookup_put name key value t.entries

private theorem lookup_filter_ne (name key : String) (es : List (String × α)) :
    lookup key (es.filter (·.1 ≠ name)) = if key = name then none else lookup key es := by
  induction es with
  | nil => simp [lookup]
  | cons x xs ih =>
    by_cases hx : x.1 = name
    · rw [List.filter_cons_of_neg (by simpa using hx), ih]
      grind [lookup]
    · rw [List.filter_cons_of_pos (by simpa using hx), lookup, ih]
      grind [lookup]

@[simp] theorem get?_erase (t : Table α) (name key : String) :
    (t.erase name).get? key = if key = name then none else t.get? key :=
  lookup_filter_ne name key t.entries

private theorem lookup_eq_none_of_lt {name : String} {es : List (String × α)}
    (h : ∀ e ∈ es, name < e.1) : lookup name es = none := by
  induction es with
  | nil => rfl
  | cons x xs ih =>
    have hx := h x List.mem_cons_self
    rw [lookup, if_neg fun e => String.lt_irrefl _ (e ▸ hx)]
    exact ih fun e hm => h e (List.mem_cons_of_mem _ hm)

/-- The entries are the names that have a value, each with its value. -/
theorem mem_entries_iff {t : Table α} {name : String} {value : α} :
    (name, value) ∈ t.entries ↔ t.get? name = some value := by
  obtain ⟨es, hes⟩ := t
  show (name, value) ∈ es ↔ lookup name es = some value
  induction es with
  | nil => simp [lookup]
  | cons e es ih =>
    obtain ⟨he, hes⟩ := List.pairwise_cons.mp hes
    rw [lookup, List.mem_cons, ih hes]
    by_cases hname : name = e.1
    · rw [if_pos hname, hname, lookup_eq_none_of_lt he]
      simp [Prod.ext_iff, eq_comm]
    · simp [hname, Prod.ext_iff]

private theorem not_lt_of_lookup {a b : String × α} {as bs : List (String × α)}
    (hb : ∀ e ∈ bs, b.1 < e.1) (h : lookup a.1 (a :: as) = lookup a.1 (b :: bs)) :
    ¬a.1 < b.1 := by
  intro hlt
  have hnone : lookup a.1 (b :: bs) = none := lookup_eq_none_of_lt fun e hm => by
    rcases List.mem_cons.mp hm with rfl | hm
    · exact hlt
    · exact String.lt_trans hlt (hb e hm)
  rw [hnone, lookup, if_pos rfl] at h
  exact nomatch h

private theorem eq_of_lookup {as bs : List (String × α)}
    (ha : as.Pairwise fun a b => a.1 < b.1) (hb : bs.Pairwise fun a b => a.1 < b.1)
    (h : ∀ name, lookup name as = lookup name bs) : as = bs := by
  induction as generalizing bs with
  | nil =>
    cases bs with
    | nil => rfl
    | cons b bs => simpa [lookup] using h b.1
  | cons a as ih =>
    cases bs with
    | nil => simpa [lookup] using h a.1
    | cons b bs =>
      obtain ⟨ha₁, ha₂⟩ := List.pairwise_cons.mp ha
      obtain ⟨hb₁, hb₂⟩ := List.pairwise_cons.mp hb
      have h₁ := not_lt_of_lookup hb₁ (h a.1)
      have h₂ := not_lt_of_lookup ha₁ (h b.1).symm
      have hname : a.1 = b.1 := by grind
      have hvalue : a.2 = b.2 := by have := h a.1; simpa [lookup, hname] using this
      have htail : as = bs := by
        refine ih ha₂ hb₂ fun name => ?_
        by_cases hn : name = a.1
        · rw [hn, lookup_eq_none_of_lt ha₁, lookup_eq_none_of_lt (hname ▸ hb₁)]
        · have := h name
          rwa [lookup, if_neg hn, lookup, if_neg (hname ▸ hn)] at this
      rw [Prod.ext hname hvalue, htail]

/-- Two tables with the same look-ups are the same table. -/
theorem ext_get? {s t : Table α} (h : ∀ name, s.get? name = t.get? name) : s = t := by
  obtain ⟨es, hs⟩ := s
  obtain ⟨et, ht⟩ := t
  obtain rfl := eq_of_lookup hs ht h
  rfl

private theorem get?_foldl_insert (t : Table α) (key : String) {es : List (String × α)}
    (h : es.Pairwise fun a b => a.1 < b.1) :
    (es.foldl (fun t (name, value) => t.insert name value) t).get? key =
      (lookup key es).or (t.get? key) := by
  induction es generalizing t with
  | nil => rfl
  | cons e es ih =>
    obtain ⟨he, hes⟩ := List.pairwise_cons.mp h
    rw [List.foldl_cons, ih _ hes, get?_insert, lookup]
    split
    · rename_i hkey
      rw [hkey, lookup_eq_none_of_lt he, Option.none_or, Option.some_or]
    · rfl

/-- An upper value comes before a lower one of the same name. -/
@[simp] theorem get?_overlay (lower upper : Table α) (key : String) :
    (lower.overlay upper).get? key = (upper.get? key).or (lower.get? key) :=
  get?_foldl_insert lower key upper.ordered

@[simp] theorem insert_insert (t : Table α) (name : String) (value value' : α) :
    (t.insert name value).insert name value' = t.insert name value' := by
  refine ext_get? fun key => ?_
  simp only [get?_insert]
  split
  · rfl
  · rfl

/-- Values are put under two names in any order. -/
theorem insert_comm (t : Table α) {name name' : String} (h : name ≠ name') (value value' : α) :
    (t.insert name value).insert name' value' = (t.insert name' value').insert name value := by
  refine ext_get? fun key => ?_
  simp only [get?_insert]
  by_cases hkey : key = name
  · subst hkey
    simp only [h, if_true, if_false]
  · simp only [hkey, if_false]

end Table

end StyleTemplate
