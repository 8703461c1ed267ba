import StyleTemplate.Proofs.Engine.Session

/-! Which filters a handle has, over whole runs: under each name the one registered last for the handle,
or else the one registered last for all handles, or else a built-in (`Session.filtersFor_run`). -/

namespace StyleTemplate

/-- A filter put under a name, for one handle or for all of them. -/
structure Registration where
  scope : Option String
  name : String
  filter : Filter

namespace Registration

/-- The place of a registration; a later one for the same place replaces it. -/
def slot (r : Registration) : Option String × String := (r.scope, r.name)

def operation (r : Registration) : Operation :=
  match r.scope with
  | some handle => .registerFilter handle r.name r.filter
  | none => .registerGlobalFilter r.name r.filter

/-- Whether a registration is for the handle, or for all of them. -/
def reaches (handle : String) (r : Registration) : Bool := r.scope.all (· = handle)

theorem reaches_iff {handle name : String} {r : Registration} :
    r.name = name ∧ r.reaches handle ↔ r.slot = (some handle, name) ∨ r.slot = (none, name) := by
  obtain ⟨scope, name', filter⟩ := r
  cases scope with
  | none => simp [reaches, slot]
  | some other => simp [reaches, slot, and_comm]

end Registration

/-- What an operation registers. -/
def Operation.registration? : Operation → Option Registration
  | registerFilter handle name filter => some ⟨some handle, name, filter⟩
  | registerGlobalFilter name filter => some ⟨none, name, filter⟩
  | _ => none

/-- The registrations among operations, in order. -/
def registrationsOf (ops : List Operation) : List Registration := ops.filterMap (·.registration?)

/-- The filter of the last registration for a place. -/
def lastRegistered? (rs : List Registration) (slot : Option String × String) : Option Filter :=
  (rs.filter (·.slot = slot)).getLast?.map (·.filter)

variable {rs : List Registration} {slot : Option String × String} {handle : String}

theorem lastRegistered?_append (rs rs' : List Registration) (slot : Option String × String) :
    lastRegistered? (rs ++ rs') slot = (lastRegistered? rs' slot).or (lastRegistered? rs slot) := by
  rw [lastRegistered?, List.filter_append, List.getLast?_append, Option.map_or]
  rfl

theorem isSome_lastRegistered? :
    (lastRegistered? rs slot).isSome ↔ ∃ r ∈ rs, r.slot = slot := by
  rw [lastRegistered?, Option.isSome_map, List.getLast?_isSome, ne_eq, List.filter_eq_nil_iff]
  simp

/-- What does not reach a handle has its place elsewhere. -/
theorem lastRegistered?_filter_reaches {scope : Option String} (h : scope.all (· = handle))
    (name : String) (rs : List Registration) :
    lastRegistered? (rs.filter (·.reaches handle)) (scope, name) =
      lastRegistered? rs (scope, name) := by
  rw [lastRegistered?, List.filter_filter, lastRegistered?]
  congr 2
  refine List.filter_congr fun r _ => ?_
  by_cases hslot : r.slot = (scope, name)
  · obtain rfl : r.scope = scope := congrArg Prod.fst hslot
    simp [hslot, Registration.reaches, h]
  · simp [hslot]

namespace Engine

/-- The filter that is registered for a place. -/
def registered? (e : Engine) : Option String × String → Option Filter
  | (some handle, name) => ((e.ownFilters.get? handle).getD ∅).get? name
  | (none, name) => e.globalFilters.get? name

variable (e : Engine)

/-- A filter of the handle comes before one for all handles. -/
theorem get?_filtersFor (handle name : String) :
    (e.filtersFor handle).get? name =
      (e.registered? (some handle, name)).or (e.registered? (none, name)) :=
  Table.get?_overlay ..

theorem registered?_registerFilter (handle name : String) (filter : Filter)
    (slot : Option String × String) :
    (e.registerFilter handle name filter).registered? slot =
      if (some handle, name) = slot then some filter else e.registered? slot := by
  obtain ⟨_ | other, name'⟩ := slot
  · rfl
  · simp only [registered?, registerFilter, Table.get?_insert, Prod.mk.injEq, Option.some.injEq]
    by_cases hhandle : handle = other
    · subst hhandle
      simp [eq_comm]
    · simp [hhandle, Ne.symm hhandle]

theorem registered?_registerGlobalFilter (name : String) (filter : Filter)
    (slot : Option String × String) :
    (e.registerGlobalFilter name filter).registered? slot =
      if (none, name) = slot then some filter else e.registered? slot := by
  obtain ⟨_ | other, name'⟩ := slot
  · simp [registered?, registerGlobalFilter, eq_comm]
  · rfl

/-- Registrations for one handle under two names, or for two handles, come in any order. -/
theorem registerFilter_comm {handle handle' name name' : String}
    (h : ¬(handle = handle' ∧ name = name')) (filter filter' : Filter) :
    (e.registerFilter handle name filter).registerFilter handle' name' filter' =
      (e.registerFilter handle' name' filter').registerFilter handle name filter := by
  have hown : ((e.registerFilter handle name filter).registerFilter handle' name' filter').ownFilters =
      ((e.registerFilter handle' name' filter').registerFilter handle name filter).ownFilters := by
    by_cases hhandle : handle = handle'
    · subst hhandle
      have hname : name ≠ name' := fun hname => h ⟨rfl, hname⟩
      simp [registerFilter, Table.insert_comm _ hname]
    · simp [registerFilter, hhandle, Ne.symm hhandle, Table.insert_comm _ hhandle]
  exact congrArg (fun ownFilters => { e with ownFilters }) hown

end Engine

namespace Session

/-! ### One operation -/

theorem registered?_step (s : Session) (op : Operation) (slot : Option String × String) :
    (s.step op).engine.registered? slot =
      (lastRegistered? op.registration?.toList slot).or (s.engine.registered? slot) := by
  cases op with
  | registerFilter handle name filter =>
    refine (s.engine.registered?_registerFilter handle name filter slot).trans ?_
    by_cases h : (some handle, name) = slot
    · simp [Operation.registration?, lastRegistered?, Registration.slot, h]
    · simp [Operation.registration?, lastRegistered?, Registration.slot, h]
  | registerGlobalFilter name filter =>
    refine (s.engine.registered?_registerGlobalFilter name filter slot).trans ?_
    by_cases h : (none, name) = slot
    · simp [Operation.registration?, lastRegistered?, Registration.slot, h]
    · simp [Operation.registration?, lastRegistered?, Registration.slot, h]
  | render handle =>
    change (s.engine.render s.tree handle).2.registered? slot = _
    rw [Engine.render_snd]
    split
    · rfl
    · rfl
  | renderAll delivery =>
    change (Engine.renderEach _ _ _).2.registered? slot = _
    rw [Engine.renderEach_snd]
    rfl
  | _ => rfl

/-- Registrations for different places come in any order. -/
theorem step_comm (s : Session) {r r' : Registration} (h : r.slot ≠ r'.slot) :
    (s.step r.operation).step r'.operation = (s.step r'.operation).step r.operation := by
  obtain ⟨scope, name, filter⟩ := r
  obtain ⟨scope', name', filter'⟩ := r'
  cases scope with
  | none =>
    cases scope' with
    | none =>
      have hname : name ≠ name' := fun hname => h (congrArg (Prod.mk none) hname)
      exact congrArg (fun globalFilters => { s with engine := { s.engine with globalFilters } })
        (s.engine.globalFilters.insert_comm hname filter filter')
    | some handle' => rfl
  | some handle =>
    cases scope' with
    | none => rfl
    | some handle' =>
      have hslot : ¬(handle = handle' ∧ name = name') := by
        rintro ⟨rfl, rfl⟩
        exact h rfl
      exact congrArg (fun engine => { s with engine })
        (s.engine.registerFilter_comm hslot filter filter')

/-! ### Runs -/

theorem registered?_run (s : Session) (ops : List Operation) (slot : Option String × String) :
    (s.run ops).engine.registered? slot =
      (lastRegistered? (registrationsOf ops) slot).or (s.engine.registered? slot) := by
  induction ops generalizing s with
  | nil => rfl
  | cons op ops ih =>
    have hcons : registrationsOf (op :: ops) = op.registration?.toList ++ registrationsOf ops := by
      cases h : op.registration? with
      | none => simp [registrationsOf, h]
      | some r => simp [registrationsOf, h]
    rw [run_cons, ih, registered?_step, hcons, lastRegistered?_append, Option.or_assoc]

/-- On a fresh engine nothing but built-ins is registered. -/
theorem registered?_start (builtins : Bool) (tree : FileTree) (handle name : String) :
    (start builtins tree).engine.registered? (some handle, name) = none ∧
      (start builtins tree).engine.registered? (none, name) =
        if builtins then Filter.builtins.get? name else none := by
  cases builtins
  · exact ⟨rfl, rfl⟩
  · exact ⟨rfl, rfl⟩

theorem get?_filtersFor_run (builtins : Bool) (tree : FileTree) (ops : List Operation)
    (handle name : String) :
    (((start builtins tree).run ops).engine.filtersFor handle).get? name =
      ((lastRegistered? (registrationsOf ops) (some handle, name)).or
        (lastRegistered? (registrationsOf ops) (none, name))).or
          (if builtins then Filter.builtins.get? name else none) := by
  obtain ⟨hown, hglobal⟩ := registered?_start builtins tree handle name
  rw [Engine.get?_filtersFor, registered?_run, registered?_run, hown, hglobal, Option.or_none,
    Option.or_assoc]

/-- What can be said of the filters that a handle has after a run on a fresh engine. -/
structure Shadowing (builtins : Bool) (tree : FileTree) (ops : List Operation) (handle : String)
    (filters : Filters) : Prop where
  /-- A name is known if it was registered for the handle or for all, or is that of a built-in. -/
  known : ∀ name, filters.contains name ↔
    (∃ r ∈ registrationsOf ops, r.name = name ∧ r.reaches handle) ∨
      builtins ∧ Filter.builtins.contains name
  /-- The last filter of the handle comes before the last one for all, and that before a built-in. -/
  found : ∀ name, filters.get? name =
    ((lastRegistered? (registrationsOf ops) (some handle, name)).or
      (lastRegistered? (registrationsOf ops) (none, name))).or
        (if builtins then Filter.builtins.get? name else none)
  /-- What is registered for other handles makes no difference. -/
  unseen : ∀ ops', (registrationsOf ops').filter (·.reaches handle) =
      (registrationsOf ops).filter (·.reaches handle) →
    ((start builtins tree).run ops').engine.filtersFor handle = filters
  /-- The order of two registrations for different places makes no difference to anything. -/
  unordered : ∀ (r r' : Registration) (later : List Operation), r.slot ≠ r'.slot →
    (start builtins tree).run (ops ++ r.operation :: r'.operation :: later) =
      (start builtins tree).run (ops ++ r'.operation :: r.operation :: later)

/-- After any run on a fresh engine. -/
theorem filtersFor_run (builtins : Bool) (tree : FileTree) (ops : List Operation) (handle : String) :
    Shadowing builtins tree ops handle
      (((start builtins tree).run ops).engine.filtersFor handle) where
  known name := by
    have hbuiltin : (if builtins then Filter.builtins.get? name else none).isSome ↔
        builtins ∧ Filter.builtins.contains name := by
      cases builtins
      · simp
      · simp [Table.contains]
    simp only [Table.contains, get?_filtersFor_run, Option.isSome_or, Bool.or_eq_true,
      isSome_lastRegistered?, hbuiltin, Registration.reaches_iff, and_or_left, exists_or]
  found := get?_filtersFor_run builtins tree ops handle
  unseen ops' hops := by
    refine Table.ext_get? fun name => ?_
    have hhandle : (some handle).all (· = handle) := by simp
    have hall : (none : Option String).all (· = handle) := rfl
    have hown := lastRegistered?_filter_reaches hhandle name
    have hglobal := lastRegistered?_filter_reaches hall name
    rw [get?_filtersFor_run, get?_filtersFor_run, ← hown, ← hglobal, hops, hown, hglobal]
  unordered r r' later h := by
    simp only [run, List.foldl_append, List.foldl_cons]
    rw [step_comm _ h]

/-- The filter of the theme stays in front of one that comes later for all, and what is registered for
print is not seen. -/
theorem filtersFor_run_theme :
    let own : Registration := ⟨some "theme", "upper", Filter.lower⟩
    let shared : Registration := ⟨none, "upper", Filter.trim⟩
    let print : Operation := .registerFilter "print" "trim" Filter.lower
    let filters :=
      ((start true .empty).run [own.operation, shared.operation, print]).engine.filtersFor "theme"
    filters.get? "upper" = some Filter.lower ∧ filters.get? "trim" = some Filter.trim ∧
      filters =
        ((start true .empty).run [own.operation, shared.operation]).engine.filtersFor "theme" ∧
      own.slot ≠ shared.slot ∧
      (start true .empty).run [own.operation, shared.operation, print] =
        (start true .empty).run [shared.operation, own.operation, print] := by
  intro own shared print filters
  have h := filtersFor_run true .empty [own.operation, shared.operation, print] "theme"
  have hslot : own.slot ≠ shared.slot := by decide
  exact ⟨(h.found "upper").trans rfl, (h.found "trim").trans rfl,
    (h.unseen [own.operation, shared.operation] rfl).symm, hslot,
    (filtersFor_run true .empty [] "theme").unordered own shared [print] hslot⟩

end Session

end StyleTemplate
