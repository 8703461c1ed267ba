import StyleTemplate.Proofs.Command.Checking
import StyleTemplate.Proofs.Containment

/-! The order in which problems are shown. They are found placeholder by placeholder, each inside the span
of its placeholder, and a check keeps that order; of one placeholder it shows the problems with the
placeholder itself before those with its calls (`checkSource_arranged`). -/

namespace StyleTemplate

open Text (byteSize)

variable {resolver : Resolver} {filters : Filters} {p : Placeholder}

/-! ### The problems of one placeholder -/

/-- The problems of a placeholder as a check shows them: at most one with its variable and at most one with
its value, and behind them those with its calls, in the order of the calls. -/
inductive Arranged (p : Placeholder) : List Diagnostic → Prop
  | intro {ofVariable ofValue ofCalls : List Diagnostic}
      (one_variable : ofVariable.length ≤ 1) (one_value : ofValue.length ≤ 1)
      (on_variable : ∀ d ∈ ofVariable, d.IsOn ["D100", "D101"] p.span)
      (on_value : ∀ d ∈ ofValue, d.IsOn ["D104"] p.span)
      (on_calls : ∀ d ∈ ofCalls, ∃ call ∈ p.filters, d.IsOn ["D102", "D103"] call.span)
      (call_order : (ofCalls.map (·.span)).Sublist (p.filters.map (·.span))) :
      Arranged p (ofVariable ++ ofValue ++ ofCalls)

/-- A chain reports on its calls in their order, at most once on each. -/
theorem FilterCall.spans_applyAll (filters : Filters) (v : Value) (chain : List FilterCall) :
    ((FilterCall.applyAll filters v chain).diagnostics.map (·.span)).Sublist
      (chain.map (·.span)) := by
  induction chain generalizing v with
  | nil => exact .slnil
  | cons call chain ih =>
    obtain ⟨result, problem, hstep⟩ := exists_step filters call v
    rw [applyAll, hstep.apply_eq, List.map_append, List.map_cons, ← List.singleton_append]
    refine List.Sublist.append ?_ (ih result)
    cases hstep with
    | unknown => exact .refl _
    | failed => exact .refl _
    | passed => exact List.nil_sublist _

namespace Placeholder

theorem VariableReport.length_le {answer : Except TraversalError Value} {problems : List Diagnostic}
    (h : p.VariableReport answer problems) : problems.length ≤ 1 := by
  cases h with
  | unfollowed => exact Nat.le_refl 1
  | undefined => exact Nat.le_refl 1
  | quiet => exact Nat.zero_le 1

theorem ValueReport.length_le {v : Value} {text : String} {problems : List Diagnostic}
    (h : p.ValueReport v text problems) : problems.length ≤ 1 := by
  cases h with
  | scalar => exact Nat.zero_le 1
  | sequence => exact Nat.le_refl 1
  | mapping => exact Nat.le_refl 1

/-- The problems with the placeholder itself, and behind them those with its calls. -/
def arranged (p : Placeholder) (resolver : Resolver) (filters : Filters) : List Diagnostic :=
  p.variableProblems resolver filters ++ p.valueProblems (p.chain resolver filters).value ++
    (p.chain resolver filters).diagnostics

theorem arranged_arranged (p : Placeholder) (resolver : Resolver) (filters : Filters) :
    Arranged p (p.arranged resolver filters) :=
  .intro variableReport.length_le (valueReport _).length_le variableReport.isOn (valueReport _).isOn
    (fun _ => FilterCall.isOn_of_applyAll) (FilterCall.spans_applyAll _ _ _)

theorem perm_arranged (p : Placeholder) (resolver : Resolver) (filters : Filters) :
    (p.arranged resolver filters).Perm (p.evaluate resolver filters).diagnostics := by
  rw [arranged, evaluate_eq, List.append_assoc, List.append_assoc]
  exact List.perm_append_comm.append_left _

end Placeholder

namespace Placeholder.PlacedIn

variable {source : List Char} (h : p.PlacedIn source)
include h

theorem ordered_arranged (resolver : Resolver) (filters : Filters) :
    (p.arranged resolver filters).Pairwise fun d d' => d.span.start ≤ d'.span.start := by
  have hown : ∀ d ∈ p.variableProblems resolver filters ++
      p.valueProblems (p.chain resolver filters).value, d.span = p.span := by
    intro d hd
    rcases List.mem_append.mp hd with hd | hd
    · exact (variableReport.isOn d hd).span
    · exact ((valueReport _).isOn d hd).span
  have hcalls :=
    h.increasing.sublist (FilterCall.spans_applyAll filters (p.initial resolver) p.filters)
  refine List.pairwise_append.mpr ⟨?_, ?_, fun d hd d' hd' => ?_⟩
  · refine List.pairwise_of_forall_mem_list fun d hd d' hd' => ?_
    rw [hown d hd, hown d' hd']
  · rwa [List.pairwise_map] at hcalls
  · obtain ⟨call, hcall, hon⟩ := FilterCall.isOn_of_applyAll hd'
    rw [hown d hd, hon.span]
    exact (h.call hcall).1.le

/-- Problems at one place stay in their order when those with the calls are moved behind the others. -/
theorem filter_arranged (resolver : Resolver) (filters : Filters) (k : Nat) :
    (p.arranged resolver filters).filter (·.span.start = k) =
      (p.evaluate resolver filters).diagnostics.filter (·.span.start = k) := by
  rw [arranged, evaluate_eq]
  simp only [List.filter_append, List.append_assoc]
  congr 1
  -- at a place there is no problem with a call or none with the value
  by_cases hk : p.span.start = k
  · have hnone : (p.chain resolver filters).diagnostics.filter (·.span.start = k) = [] := by
      refine List.filter_eq_nil_iff.mpr fun d hd hstart => ?_
      obtain ⟨call, hcall, hon⟩ := FilterCall.isOn_of_applyAll hd
      have hafter := (h.call hcall).1
      rw [← hon.span, of_decide_eq_true hstart, hk] at hafter
      exact Nat.lt_irrefl k hafter
    rw [hnone, List.nil_append, List.append_nil]
  · have hnone : (p.valueProblems (p.chain resolver filters).value).filter (·.span.start = k) = [] := by
      refine List.filter_eq_nil_iff.mpr fun d hd hstart => hk ?_
      rw [← ((valueReport _).isOn d hd).span]
      exact of_decide_eq_true hstart
    rw [hnone, List.nil_append, List.append_nil]

end Placeholder.PlacedIn

/-! ### The problems of a source -/

theorem diagnostics_compile (source : String) (resolver : Resolver) (filters : Filters) :
    (compile source resolver filters).diagnostics =
      (placeholdersOf source.toList).flatMap fun p => (p.evaluate resolver filters).diagnostics := by
  rw [compile_eq_fill, placeholdersOf]
  dsimp only [fill]
  induction segmentsOf source.toList with
  | nil => rfl
  | cons s segments ih =>
    rw [List.flatMap_cons, ih]
    cases s with
    | text => rfl
    | placeholder p => rfl

section Source

variable {source : String} (hlimit : byteSize source.toList ≤ Span.limit) (resolver : Resolver)
  (filters : Filters)
include hlimit

/-- Problems with an earlier placeholder end before those with a later one begin. -/
theorem pairwise_diagnostics : (placeholdersOf source.toList).Pairwise fun p q =>
    ∀ d ∈ (p.evaluate resolver filters).diagnostics,
      ∀ d' ∈ (q.evaluate resolver filters).diagnostics, d.span.stop ≤ d'.span.start := by
  refine (pairwise_placeholdersOf hlimit).imp_of_mem fun hp hq hpq d hd d' hd' => ?_
  obtain ⟨-, ⟨-, hstop⟩, -⟩ := (placedIn_of_mem hlimit hp).covers hd
  obtain ⟨-, ⟨hstart, -⟩, -⟩ := (placedIn_of_mem hlimit hq).covers hd'
  omega

/-- A check shows the problems placeholder by placeholder. -/
theorem checkSource_eq : checkSource source resolver filters =
    (placeholdersOf source.toList).flatMap fun p => p.arranged resolver filters := by
  refine (CheckOptions.stablySorted_checkSource source resolver filters).unique ⟨?_, ?_, fun k => ?_⟩
  · rw [diagnostics_compile]
    exact List.Perm.flatMap_left _ fun p _ => p.perm_arranged resolver filters
  · refine List.pairwise_flatMap.mpr ⟨fun p hp => ?_, ?_⟩
    · exact (placedIn_of_mem hlimit hp).ordered_arranged resolver filters
    · refine (pairwise_diagnostics hlimit resolver filters).imp_of_mem
        fun {p q} hp _ hpq d hd d' hd' => ?_
      rw [(p.perm_arranged resolver filters).mem_iff] at hd
      rw [(q.perm_arranged resolver filters).mem_iff] at hd'
      have hnonempty := ((placedIn_of_mem hlimit hp).covers hd).1
      have := hpq d hd d' hd'
      omega
  · rw [diagnostics_compile, List.filter_flatMap, List.filter_flatMap]
    refine List.flatMap_congr fun p hp => ?_
    exact (placedIn_of_mem hlimit hp).filter_arranged resolver filters k

end Source

/-- What can be said of the places of the problems of a source. -/
structure Located (source : String) (resolver : Resolver) (filters : Filters) : Prop where
  order : (placeholdersOf source.toList).Pairwise fun p q => p.span.stop ≤ q.span.start
  found : (compile source resolver filters).diagnostics =
    (placeholdersOf source.toList).flatMap fun p => (p.evaluate resolver filters).diagnostics
  nonempty : ∀ d ∈ (compile source resolver filters).diagnostics, d.span.start < d.span.stop
  inside : ∀ d ∈ (compile source resolver filters).diagnostics,
    (d.span.text? source.toList).isSome
  about : ∀ p ∈ placeholdersOf source.toList, ∀ d ∈ (p.evaluate resolver filters).diagnostics,
    d.IsOn ["D100", "D101", "D104"] p.span ∨ ∃ call ∈ p.filters, d.IsOn ["D102", "D103"] call.span
  apart : (placeholdersOf source.toList).Pairwise fun p q =>
    ∀ d ∈ (p.evaluate resolver filters).diagnostics,
      ∀ d' ∈ (q.evaluate resolver filters).diagnostics, d.span.stop ≤ d'.span.start

theorem located {source : String} (hlimit : byteSize source.toList ≤ Span.limit)
    (resolver : Resolver) (filters : Filters) : Located source resolver filters := by
  have hfound := diagnostics_compile source resolver filters
  have hcovers : ∀ d ∈ (compile source resolver filters).diagnostics,
      d.span.start < d.span.stop ∧ (d.span.text? source.toList).isSome := by
    intro d hd
    rw [hfound] at hd
    obtain ⟨p, hp, hd⟩ := List.mem_flatMap.mp hd
    obtain ⟨hnonempty, -, htext⟩ := (placedIn_of_mem hlimit hp).covers hd
    exact ⟨hnonempty, htext⟩
  exact ⟨pairwise_placeholdersOf hlimit, hfound, fun d hd => (hcovers d hd).1,
    fun d hd => (hcovers d hd).2, fun p _ d => Placeholder.isOn_of_evaluate,
    pairwise_diagnostics hlimit resolver filters⟩

/-- Up to the limit of spans every problem of a source has its place, and a check shows the problems
placeholder by placeholder, each placeholder before its calls. -/
theorem checkSource_arranged {source : String} (hlimit : byteSize source.toList ≤ Span.limit)
    (resolver : Resolver) (filters : Filters) :
    Located source resolver filters ∧
    (checkSource source resolver filters).Perm (compile source resolver filters).diagnostics ∧
    ∃ groups, checkSource source resolver filters = groups.flatten ∧
      List.Forall₂ (fun p group => group.Perm (p.evaluate resolver filters).diagnostics ∧
        Arranged p group) (placeholdersOf source.toList) groups := by
  refine ⟨located hlimit resolver filters,
    (CheckOptions.stablySorted_checkSource source resolver filters).perm,
    (placeholdersOf source.toList).map fun p => p.arranged resolver filters, ?_, ?_⟩
  · rw [checkSource_eq hlimit, List.flatMap_def]
  · refine List.forall₂_map_right_iff.mpr (List.forall₂_same.mpr fun p _ => ?_)
    exact ⟨p.perm_arranged resolver filters, p.arranged_arranged resolver filters⟩

/-- A mapping with two unknown calls, whose own problem is found last, and a variable without a value. -/
theorem checkSource_arranged_mapping :
    let source := "é$m['→']|up|down('|') $x"
    let resolver := Resolver.ofValue (.ofPairs [("m", .ofPairs [("→", .ofPairs [])])])
    byteSize source.toList ≤ Span.limit ∧
    (compile source resolver ∅).diagnostics.map (·.code) = ["D102", "D102", "D104", "D100"] ∧
    (checkSource source resolver ∅).map (·.code) = ["D104", "D102", "D102", "D100"] ∧
    Located source resolver ∅ ∧
    ∃ groups, checkSource source resolver ∅ = groups.flatten ∧
      List.Forall₂ (fun p group => group.Perm (p.evaluate resolver ∅).diagnostics ∧
        Arranged p group) (placeholdersOf source.toList) groups := by
  intro source resolver
  have hlimit : byteSize source.toList ≤ Span.limit := by decide
  obtain ⟨hlocated, -, hgroups⟩ := checkSource_arranged hlimit resolver ∅
  exact ⟨hlimit, by cbv, by cbv, hlocated, hgroups⟩

end StyleTemplate
