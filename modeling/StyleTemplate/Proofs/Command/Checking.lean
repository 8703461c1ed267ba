import Mathlib
import StyleTemplate.Command.Check

/-! What a check finds. The diagnostics of a source come in the order of their places, those of one
place as they were found (`CheckOptions.stablySorted_checkSource`), which is one order only
(`StablySorted.unique`), and a check of several stylesheets reports on them one after the other
(`CheckOptions.reportsFound_run`). -/

namespace StyleTemplate

/-! ### Stable order -/

/-- A list with the elements of another in the order of their keys; elements with the same key stay in
the order they had. -/
structure StablySorted {α : Type} (key : α → Nat) (xs sorted : List α) : Prop where
  perm : sorted.Perm xs
  ordered : sorted.Pairwise (key · ≤ key ·)
  stable : ∀ k, sorted.filter (key · = k) = xs.filter (key · = k)

theorem stablySorted_mergeSort {α : Type} (key : α → Nat) (xs : List α) :
    StablySorted key xs (xs.mergeSort fun a b => key a ≤ key b) := by
  have htrans : ∀ a b c : α, decide (key a ≤ key b) = true → decide (key b ≤ key c) = true →
      decide (key a ≤ key c) = true := by
    intro a b c hab hbc
    exact decide_eq_true (Nat.le_trans (of_decide_eq_true hab) (of_decide_eq_true hbc))
  have htotal : ∀ a b : α, (decide (key a ≤ key b) || decide (key b ≤ key a)) = true := by
    intro a b
    simpa using Nat.le_total (key a) (key b)
  have hperm := List.mergeSort_perm xs fun a b => key a ≤ key b
  refine ⟨hperm, ?_, fun k => ?_⟩
  · exact (List.pairwise_mergeSort htrans htotal xs).imp fun h => of_decide_eq_true h
  · -- elements with one key are in order, so sorting keeps them as a sublist
    have hequal : (xs.filter (key · = k)).Pairwise fun a b => decide (key a ≤ key b) = true := by
      refine List.pairwise_of_forall_mem_list fun a ha b hb => ?_
      have ha := of_decide_eq_true (List.mem_filter.mp ha).2
      have hb := of_decide_eq_true (List.mem_filter.mp hb).2
      exact decide_eq_true (by omega)
    have hkept :=
      (List.sublist_mergeSort htrans htotal hequal List.filter_sublist).filter (key · = k)
    rw [List.filter_filter] at hkept
    simp only [Bool.and_self] at hkept
    exact (hkept.eq_of_length (hperm.filter _).length_eq.symm).symm

section Uniqueness

variable {α : Type} {key : α → Nat} {x : α} {xs ys zs : List α}

/-- The first of ordered elements has the least key. -/
private theorem key_le_of_ordered (hx : (x :: xs).Pairwise (key · ≤ key ·))
    (h : ∀ k, (x :: xs).filter (key · = k) = ys.filter (key · = k)) : ∀ y ∈ ys, key x ≤ key y := by
  intro y hy
  have hmem : y ∈ (x :: xs).filter (key · = key y) := by
    rw [h]
    simpa using hy
  rcases List.mem_cons.mp (List.mem_filter.mp hmem).1 with rfl | hmem
  · exact Nat.le_refl _
  · exact List.rel_of_pairwise_cons hx hmem

private theorem eq_of_ordered (hx : xs.Pairwise (key · ≤ key ·)) (hy : ys.Pairwise (key · ≤ key ·))
    (h : ∀ k, xs.filter (key · = k) = ys.filter (key · = k)) : xs = ys := by
  induction xs generalizing ys with
  | nil =>
    refine (List.eq_nil_iff_forall_not_mem.mpr fun y hmem => ?_).symm
    exact List.filter_eq_nil_iff.mp (h (key y)).symm y hmem (decide_eq_true rfl)
  | cons x xs ih =>
    cases ys with
    | nil => exact absurd (decide_eq_true rfl) (List.filter_eq_nil_iff.mp (h (key x)) x List.mem_cons_self)
    | cons y ys =>
      -- both have the least key, so each is the first of its list with that key
      have hkey : key x = key y := Nat.le_antisymm (key_le_of_ordered hx h y List.mem_cons_self)
        (key_le_of_ordered hy (fun k => (h k).symm) x List.mem_cons_self)
      have hfirst : x = y := by
        have hleast := h (key x)
        rw [List.filter_cons_of_pos (by simp), List.filter_cons_of_pos (by simp [hkey])] at hleast
        exact (List.cons.inj hleast).1
      subst hfirst
      have hrest : xs = ys := by
        refine ih hx.of_cons hy.of_cons fun k => ?_
        have hk := h k
        by_cases hxk : key x = k
        · simpa [hxk] using hk
        · simpa [hxk] using hk
      rw [hrest]

/-- There is one way to sort a list stably. -/
theorem StablySorted.unique (h : StablySorted key xs ys) (h' : StablySorted key xs zs) : ys = zs :=
  eq_of_ordered h.ordered h'.ordered fun k => (h.stable k).trans (h'.stable k).symm

end Uniqueness

/-! ### Checked stylesheets -/

/-- A stylesheet that was checked: its source, and what was found in it. -/
structure Checked where
  target : CheckTarget
  source : String
  diagnostics : List Diagnostic

namespace Checked

/-- The reports on a checked stylesheet. -/
def reports (p : Project) (rules : SeverityRules) (found : Checked) : List Report :=
  CheckOptions.reportsOn rules found.source (CheckOptions.shownPath p found.target.path).text
    found.diagnostics

/-- How many of its diagnostics are errors. -/
def errors (rules : SeverityRules) (found : Checked) : Nat :=
  CheckOptions.countErrors rules found.diagnostics

end Checked

namespace CheckOptions

/-- Checks one stylesheet with the values of its target. -/
def checked (p : Project) (settings : Settings) (target : CheckTarget) :
    Except CommandError Checked :=
  (prepare p settings target).map fun (source, resolver) =>
    ⟨target, source, checkSource source resolver Filter.builtins⟩

/-- The diagnostics of a source are sorted by their places. -/
theorem stablySorted_checkSource (source : String) (resolver : Resolver) (filters : Filters) :
    StablySorted (fun d : Diagnostic => d.span.start)
      (compile source resolver filters).diagnostics (checkSource source resolver filters) :=
  stablySorted_mergeSort (fun d : Diagnostic => d.span.start) _

/-- What a run over checked stylesheets comes to: the reports on one after the other, and an error if
one of them has one. -/
structure ReportsFound (p : Project) (rules : SeverityRules) (found : List Checked) (run : Run) :
    Prop where
  printed : run.printed = (found.flatMap (·.reports p rules)).map (·.text ++ "\n")
  files : run.files = p.files
  ending : run.ending =
    if 0 < (found.map (·.errors rules)).sum then
      .found (found.map (·.errors rules)).sum (found.countP fun f => 0 < f.errors rules)
    else .done

variable {p : Project} {settings : Settings}

private theorem checkEach_of_checked (rules : SeverityRules) {targets : List CheckTarget}
    {found : List Checked} (h : targets.mapM (checked p settings) = .ok found) :
    (checkEach p settings rules targets).reports = found.flatMap (·.reports p rules) ∧
      (checkEach p settings rules targets).errors = (found.map (·.errors rules)).sum ∧
      (checkEach p settings rules targets).files = (found.countP fun f => 0 < f.errors rules) ∧
      (checkEach p settings rules targets).error = none := by
  induction targets generalizing found with
  | nil =>
    obtain rfl := Except.ok.inj h
    exact ⟨rfl, rfl, rfl, rfl⟩
  | cons target targets ih =>
    rw [List.mapM_cons, checked] at h
    rw [checkEach]
    cases hprepare : prepare p settings target with
    | error error =>
      rw [hprepare] at h
      exact nomatch h
    | ok prepared =>
      obtain ⟨source, resolver⟩ := prepared
      rw [hprepare] at h
      cases hrest : targets.mapM (checked p settings) with
      | error error =>
        rw [hrest] at h
        exact nomatch h
      | ok rest =>
        rw [hrest] at h
        obtain rfl := Except.ok.inj h
        obtain ⟨hreports, herrors, hfiles, herror⟩ := ih hrest
        simp only [hreports, herrors, hfiles, herror]
        simp only [List.countP_cons, decide_eq_true_eq]
        exact ⟨rfl, rfl, Nat.add_comm .., trivial⟩

/-- Targets that can all be checked are reported on in their order. -/
theorem reportsFound_run {c : CheckOptions} {found : List Checked}
    (hsettings : p.settings = .ok settings) (htargets : c.targets p settings ≠ [])
    (h : (c.targets p settings).mapM (checked p settings) = .ok found) :
    ReportsFound p (c.severities settings) found (c.run p) := by
  obtain ⟨hreports, herrors, hfiles, herror⟩ := checkEach_of_checked (c.severities settings) h
  have hrun : ∃ events, c.run p =
      ⟨(checkEach p settings (c.severities settings) (c.targets p settings)).reports.map
          (·.text ++ "\n"), events, p.files,
        endingOf (checkEach p settings (c.severities settings) (c.targets p settings))⟩ := by
    rw [run, hsettings]
    dsimp only
    split
    · contradiction
    · exact ⟨_, rfl⟩
  obtain ⟨events, hrun⟩ := hrun
  rw [hrun]
  refine ⟨by rw [hreports], rfl, ?_⟩
  rw [endingOf, herror, herrors, hfiles]

end CheckOptions

end StyleTemplate
