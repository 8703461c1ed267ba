import Mathlib.Data.List.ReduceOption
import StyleTemplate.Filter.Builtin
import StyleTemplate.Proofs.Problems

/-! Calls that are skipped. A call with a problem leaves the value as it was, so a chain comes to the
same without such calls, and a call of an unregistered filter may be put in anywhere: it shows in
nothing but its own problem, in its own place (`FilterCall.applyAll_skipping`). -/

namespace StyleTemplate.FilterCall

variable {filters : Filters} {call : FilterCall} {v : Value}

/-- The problem with a call on a value, if there is one. -/
def problem? (call : FilterCall) (filters : Filters) (v : Value) : Option Diagnostic :=
  (call.apply filters v).diagnostics.head?

/-- The problems of a chain by position: one entry for each call, empty where it succeeds. -/
def problemsAt (filters : Filters) : Value → List FilterCall → List (Option Diagnostic)
  | _, [] => []
  | v, call :: chain =>
    call.problem? filters v :: problemsAt filters (call.apply filters v).value chain

/-- The chain without the positions at which it has a problem. -/
def withoutFaults (filters : Filters) (v : Value) (chain : List FilterCall) : List FilterCall :=
  ((chain.zip (problemsAt filters v chain)).filter fun entry => entry.2.isNone).map Prod.fst

/-- What a call does is a step, with its problem. -/
theorem step_apply (filters : Filters) (call : FilterCall) (v : Value) :
    Step filters call v (call.apply filters v).value (call.problem? filters v) := by
  obtain ⟨result, problem, hstep⟩ := exists_step filters call v
  have hproblem : call.problem? filters v = problem := by
    rw [problem?, hstep.apply_eq]
    cases problem <;> rfl
  rwa [hproblem, hstep.apply_eq]

theorem apply_eq (filters : Filters) (call : FilterCall) (v : Value) :
    call.apply filters v =
      ⟨(call.apply filters v).value, (call.problem? filters v).toList⟩ :=
  (step_apply filters call v).apply_eq

/-- A call with a problem leaves the value as it was. -/
theorem Step.value_eq {result : Value} {problem : Diagnostic}
    (h : Step filters call v result (some problem)) : result = v := by
  cases h with
  | unknown => rfl
  | failed => rfl

/-- A call of an unregistered filter does nothing, and this is its problem. -/
theorem apply_unregistered (h : filters.get? call.name = none) (v : Value) :
    call.apply filters v = ⟨v, [.filterNotFound call.name call.span]⟩ := by
  rw [apply, h]

theorem length_problemsAt (v : Value) (chain : List FilterCall) :
    (problemsAt filters v chain).length = chain.length := by
  induction chain generalizing v with
  | nil => rfl
  | cons call chain ih => rw [problemsAt, List.length_cons, ih, List.length_cons]

theorem diagnostics_applyAll (v : Value) (chain : List FilterCall) :
    (applyAll filters v chain).diagnostics = (problemsAt filters v chain).reduceOption := by
  induction chain generalizing v with
  | nil => rfl
  | cons call chain ih =>
    rw [applyAll, problemsAt, ih]
    conv_lhs => rw [apply_eq]
    cases call.problem? filters v with
    | none => rfl
    | some problem => rfl

theorem withoutFaults_cons (v : Value) (call : FilterCall) (chain : List FilterCall) :
    withoutFaults filters v (call :: chain) =
      if (call.problem? filters v).isNone then
        call :: withoutFaults filters (call.apply filters v).value chain
      else withoutFaults filters (call.apply filters v).value chain := by
  unfold withoutFaults
  rw [problemsAt, List.zip_cons_cons, List.filter_cons]
  split <;> rfl

/-- Without the calls that have a problem the chain meets the same values and has no problem. -/
theorem applyAll_withoutFaults (v : Value) (chain : List FilterCall) :
    applyAll filters v (withoutFaults filters v chain) = ⟨(applyAll filters v chain).value, []⟩ := by
  induction chain generalizing v with
  | nil => rfl
  | cons call chain ih =>
    have hstep := step_apply filters call v
    have happly := apply_eq filters call v
    rw [withoutFaults_cons, applyAll]
    cases hproblem : call.problem? filters v with
    | none =>
      rw [hproblem] at happly
      rw [if_pos Option.isNone_none, applyAll, ih, happly]
      rfl
    | some problem =>
      rw [hproblem] at hstep
      rw [if_neg (by simp), hstep.value_eq, ih]

/-- The calls behind are on the value that the calls before them leave. -/
theorem problemsAt_append (v : Value) (front back : List FilterCall) :
    problemsAt filters v (front ++ back) =
      problemsAt filters v front ++ problemsAt filters (applyAll filters v front).value back := by
  induction front generalizing v with
  | nil => rfl
  | cons call front ih =>
    rw [List.cons_append, problemsAt, problemsAt, ih, applyAll, List.cons_append]

/-- A call of an unregistered filter between two parts of a chain. -/
theorem applyAll_inserted (hcall : filters.get? call.name = none) (v : Value)
    (front back : List FilterCall) :
    applyAll filters v (front ++ call :: back) =
      ⟨(applyAll filters v (front ++ back)).value, (applyAll filters v front).diagnostics ++
        .filterNotFound call.name call.span ::
          (applyAll filters (applyAll filters v front).value back).diagnostics⟩ := by
  simp only [applyAll_append, applyAll, apply_unregistered hcall, List.cons_append, List.nil_append]

/-- The problems of a chain stand at positions, one for each call at most. Without the calls at these
positions the chain ends with the same value and nothing is reported. With a call of an unregistered
filter put in anywhere it ends with the same value too, and nothing is added but the problem of that
call, at its position. -/
theorem applyAll_skipping (filters : Filters) (v : Value) (chain : List FilterCall) :
    (problemsAt filters v chain).length = chain.length ∧
    (applyAll filters v chain).diagnostics = (problemsAt filters v chain).reduceOption ∧
    applyAll filters v (withoutFaults filters v chain) = ⟨(applyAll filters v chain).value, []⟩ ∧
    ∀ (front back : List FilterCall) (call : FilterCall), chain = front ++ back →
      filters.get? call.name = none →
      ∃ before behind, before.length = front.length ∧
        problemsAt filters v chain = before ++ behind ∧
        problemsAt filters v (front ++ call :: back) =
          before ++ some (.filterNotFound call.name call.span) :: behind ∧
        applyAll filters v (front ++ call :: back) =
          ⟨(applyAll filters v chain).value, before.reduceOption ++
            .filterNotFound call.name call.span :: behind.reduceOption⟩ := by
  refine ⟨length_problemsAt v chain, diagnostics_applyAll v chain, applyAll_withoutFaults v chain, ?_⟩
  rintro front back call rfl hcall
  have hbehind : problemsAt filters v (front ++ call :: back) = _ :=
    problemsAt_append v front (call :: back)
  rw [problemsAt, problem?, apply_unregistered hcall] at hbehind
  refine ⟨problemsAt filters v front, problemsAt filters (applyAll filters v front).value back,
    length_problemsAt v front, problemsAt_append v front back, hbehind, ?_⟩
  rw [applyAll_inserted hcall, diagnostics_applyAll, diagnostics_applyAll]

/-- `|down` put in behind `|up` and `|add(1)`, which have problems of their own, and before `|trim`. -/
theorem applyAll_skipping_down :
    Filter.builtins.get? "down" = none ∧
    withoutFaults Filter.builtins (.string " a")
        [⟨"up", [], ⟨3, 2⟩⟩, ⟨"add", [.integer 1], ⟨6, 6⟩⟩, ⟨"trim", [], ⟨13, 4⟩⟩] =
      [⟨"trim", [], ⟨13, 4⟩⟩] ∧
    ∃ before behind, before.length = 2 ∧
      problemsAt Filter.builtins (.string " a")
        [⟨"up", [], ⟨3, 2⟩⟩, ⟨"add", [.integer 1], ⟨6, 6⟩⟩, ⟨"trim", [], ⟨13, 4⟩⟩] =
          before ++ behind ∧
      problemsAt Filter.builtins (.string " a")
        [⟨"up", [], ⟨3, 2⟩⟩, ⟨"add", [.integer 1], ⟨6, 6⟩⟩, ⟨"down", [], ⟨13, 4⟩⟩,
          ⟨"trim", [], ⟨13, 4⟩⟩] =
          before ++ some (.filterNotFound "down" ⟨13, 4⟩) :: behind ∧
      applyAll Filter.builtins (.string " a")
        [⟨"up", [], ⟨3, 2⟩⟩, ⟨"add", [.integer 1], ⟨6, 6⟩⟩, ⟨"down", [], ⟨13, 4⟩⟩,
          ⟨"trim", [], ⟨13, 4⟩⟩] =
        ⟨(applyAll Filter.builtins (.string " a")
          [⟨"up", [], ⟨3, 2⟩⟩, ⟨"add", [.integer 1], ⟨6, 6⟩⟩, ⟨"trim", [], ⟨13, 4⟩⟩]).value,
          before.reduceOption ++ .filterNotFound "down" ⟨13, 4⟩ :: behind.reduceOption⟩ :=
  have hdown : Filter.builtins.get? "down" = none := rfl
  ⟨hdown, rfl,
    (applyAll_skipping Filter.builtins (.string " a") _).2.2.2
      [⟨"up", [], ⟨3, 2⟩⟩, ⟨"add", [.integer 1], ⟨6, 6⟩⟩] [⟨"trim", [], ⟨13, 4⟩⟩]
      ⟨"down", [], ⟨13, 4⟩⟩ rfl hdown⟩

end StyleTemplate.FilterCall
