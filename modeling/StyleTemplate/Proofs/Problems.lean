import StyleTemplate.Proofs.Evaluation

/-! What is reported about a placeholder. A chain of calls relates the value that it begins with to the
value and the problems that it ends with, call by call (`FilterCall.runs_iff`). A placeholder adds the
problems of its variable, of its whole chain and of its value to those there are, in this order
(`Placeholder.evaluate_appends`), each one on the span that it is about (`Placeholder.isOn_of_evaluate`). -/

namespace StyleTemplate

variable {resolver : Resolver} {filters : Filters} {p : Placeholder}

/-! ### Chains -/

namespace FilterCall

/-- What a call makes of a value, and the problem with it: an unknown filter and one that fails leave the
value as it was. -/
inductive Step (filters : Filters) (call : FilterCall) (v : Value) :
    Value → Option Diagnostic → Prop
  | unknown (h : filters.get? call.name = none) :
    Step filters call v v (some (.filterNotFound call.name call.span))
  | failed {filter : Filter} {reason : FilterError} (h : filters.get? call.name = some filter)
      (hfailed : filter v (call.args.map Value.ofLiteral) = .error reason) :
    Step filters call v v (some (.filterFailed call.name reason call.span))
  | passed {filter : Filter} {result : Value} (h : filters.get? call.name = some filter)
      (hpassed : filter v (call.args.map Value.ofLiteral) = .ok result) :
    Step filters call v result none

/-- What a chain makes of a value, each call on what the one before it leaves, and the problems in the
order of the calls. -/
inductive Runs (filters : Filters) : Value → List FilterCall → Value → List Diagnostic → Prop
  | done (v : Value) : Runs filters v [] v []
  | call {call : FilterCall} {chain : List FilterCall} {v next result : Value}
      {problem : Option Diagnostic} {problems : List Diagnostic}
      (hstep : Step filters call v next problem) (hrest : Runs filters next chain result problems) :
    Runs filters v (call :: chain) result (problem.toList ++ problems)

variable {call : FilterCall} {chain : List FilterCall} {v result : Value}

theorem Step.apply_eq {problem : Option Diagnostic} (h : Step filters call v result problem) :
    call.apply filters v = ⟨result, problem.toList⟩ := by
  cases h with
  | unknown h => simp only [apply, h, Option.toList_some]
  | failed h hfailed => simp only [apply, h, hfailed, Option.toList_some]
  | passed h hpassed => simp only [apply, h, hpassed, Option.toList_none]

theorem exists_step (filters : Filters) (call : FilterCall) (v : Value) :
    ∃ result problem, Step filters call v result problem := by
  cases h : filters.get? call.name with
  | none => exact ⟨_, _, .unknown h⟩
  | some filter =>
    cases hresult : filter v (call.args.map Value.ofLiteral) with
    | ok result => exact ⟨_, _, .passed h hresult⟩
    | error reason => exact ⟨_, _, .failed h hresult⟩

/-- The relation is what chains compute. -/
theorem runs_iff {problems : List Diagnostic} :
    Runs filters v chain result problems ↔ applyAll filters v chain = ⟨result, problems⟩ := by
  constructor
  · intro h
    induction h with
    | done v => rfl
    | call hstep hrest ih => simp only [applyAll, hstep.apply_eq, ih]
  · intro h
    induction chain generalizing v result problems with
    | nil =>
      obtain ⟨rfl, rfl⟩ := Filtered.mk.inj h
      exact .done v
    | cons call chain ih =>
      obtain ⟨next, problem, hstep⟩ := exists_step filters call v
      simp only [applyAll, hstep.apply_eq] at h
      obtain ⟨rfl, rfl⟩ := Filtered.mk.inj h
      exact .call hstep (ih rfl)

end FilterCall

/-! ### Placeholders -/

/-- A compilation with one more segment behind. -/
def Compilation.extend (resolver : Resolver) (filters : Filters) (c : Compilation) (s : Segment) :
    Compilation :=
  ⟨c.output ++ (s.evaluate resolver filters).text,
    c.diagnostics ++ (s.evaluate resolver filters).diagnostics⟩

/-- A template is filled in segment by segment, each one behind those before it. -/
theorem compile_eq_foldl (source : String) :
    compile source resolver filters =
      (segmentsOf source.toList).foldl (Compilation.extend resolver filters) ⟨"", []⟩ := by
  have hfold (segments : List Segment) (c : Compilation) :
      segments.foldl (Compilation.extend resolver filters) c =
        ⟨c.output ++ String.join (segments.map fun s => (s.evaluate resolver filters).text),
          c.diagnostics ++ segments.flatMap fun s => (s.evaluate resolver filters).diagnostics⟩ := by
    induction segments generalizing c with
    | nil => simp
    | cons s segments ih =>
      rw [List.foldl_cons, ih, Compilation.extend, List.map_cons, String.join_cons,
        List.flatMap_cons, String.append_assoc, List.append_assoc]
  rw [hfold, compile, List.map_map, List.flatMap_map, String.empty_append, List.nil_append]
  rfl

namespace Placeholder

/-- The problems with a variable, by the answer to it: a subscript that cannot be followed is always one,
and a variable that is undefined may be. -/
inductive VariableReport (p : Placeholder) : Except TraversalError Value → List Diagnostic → Prop
  | unfollowed (reason : TraversalError) :
    VariableReport p (.error reason) [.subscriptTraversal p.path reason p.span]
  | undefined : VariableReport p (.ok .undefined) [.undefinedVariable p.path p.span]
  | quiet (v : Value) : VariableReport p (.ok v) []

/-- The text of a value and the problems with it: a sequence or mapping has no text. -/
inductive ValueReport (p : Placeholder) : Value → String → List Diagnostic → Prop
  | scalar {v : Value} {text : String} (h : v.render? = some text) : ValueReport p v text []
  | sequence (items : List Value) :
    ValueReport p (.sequence items) "" [.nonScalarValue p.path .sequence p.span]
  | mapping (entries : Entries none) :
    ValueReport p (.mapping entries) "" [.nonScalarValue p.path .mapping p.span]

theorem variableReport : p.VariableReport (resolver p.name p.subscripts)
    (p.variableProblems resolver filters) := by
  unfold variableProblems
  split
  · rename_i reason hanswer
    rw [hanswer]
    exact .unfollowed reason
  · rename_i v hanswer
    split
    · rename_i hreported
      rw [missing_iff.mp (Bool.and_eq_true_iff.mp hreported).1]
      exact .undefined
    · rw [hanswer]
      exact .quiet v

theorem valueReport (v : Value) : p.ValueReport v v.text (p.valueProblems v) := by
  cases v with
  | sequence items => exact .sequence items
  | mapping entries => exact .mapping entries
  | _ => exact .scalar rfl

end Placeholder

/-! ### What problems are about -/

/-- The problem has one of some codes and is about a span. -/
structure Diagnostic.IsOn (d : Diagnostic) (codes : List String) (span : Span) : Prop where
  code : d.code ∈ codes
  span : d.span = span

theorem Diagnostic.IsOn.mono {d : Diagnostic} {codes codes' : List String} {span : Span}
    (h : d.IsOn codes span) (hcodes : codes ⊆ codes') : d.IsOn codes' span := ⟨hcodes h.code, h.span⟩

theorem FilterCall.isOn_of_applyAll {chain : List FilterCall} {v : Value} {d : Diagnostic}
    (h : d ∈ (FilterCall.applyAll filters v chain).diagnostics) :
    ∃ call ∈ chain, d.IsOn ["D102", "D103"] call.span := by
  induction chain generalizing v with
  | nil => exact absurd h List.not_mem_nil
  | cons call chain ih =>
    obtain ⟨next, problem, hstep⟩ := exists_step filters call v
    rw [applyAll, hstep.apply_eq] at h
    rcases List.mem_append.mp h with h | h
    · refine ⟨call, List.mem_cons_self, ?_⟩
      cases hstep with
      | unknown =>
        rw [List.mem_singleton.mp h]
        exact ⟨by simp [Diagnostic.code], rfl⟩
      | failed =>
        rw [List.mem_singleton.mp h]
        exact ⟨by simp [Diagnostic.code], rfl⟩
      | passed => exact absurd h List.not_mem_nil
    · obtain ⟨later, hmem, hd⟩ := ih h
      exact ⟨later, List.mem_cons_of_mem _ hmem, hd⟩

namespace Placeholder

theorem VariableReport.isOn {answer : Except TraversalError Value} {problems : List Diagnostic}
    (h : p.VariableReport answer problems) : ∀ d ∈ problems, d.IsOn ["D100", "D101"] p.span := by
  cases h with
  | unfollowed => simpa using ⟨by simp [Diagnostic.code], rfl⟩
  | undefined => simpa using ⟨by simp [Diagnostic.code], rfl⟩
  | quiet => exact nofun

theorem ValueReport.isOn {v : Value} {text : String} {problems : List Diagnostic}
    (h : p.ValueReport v text problems) : ∀ d ∈ problems, d.IsOn ["D104"] p.span := by
  cases h with
  | scalar => exact nofun
  | sequence => simpa using ⟨by simp [Diagnostic.code], rfl⟩
  | mapping => simpa using ⟨by simp [Diagnostic.code], rfl⟩

/-- A problem is about the placeholder or about one of its calls. -/
theorem isOn_of_evaluate {d : Diagnostic} (h : d ∈ (p.evaluate resolver filters).diagnostics) :
    d.IsOn ["D100", "D101", "D104"] p.span ∨
      ∃ call ∈ p.filters, d.IsOn ["D102", "D103"] call.span := by
  rw [evaluate_eq] at h
  rcases List.mem_append.mp h with h | h
  · rcases List.mem_append.mp h with h | h
    · exact .inl ((variableReport.isOn d h).mono (by simp))
    · exact .inr (FilterCall.isOn_of_applyAll h)
  · exact .inl (((valueReport _).isOn d h).mono (by simp))

/-- Whatever was filled in before, a placeholder adds the text of the value at the end of its whole chain,
and behind the problems there are those of its variable, of the calls and of that value. -/
theorem evaluate_appends (p : Placeholder) (resolver : Resolver) (filters : Filters)
    (before : Compilation) :
    ∃ result text ofVariable ofChain ofValue,
      FilterCall.applyAll filters (p.initial resolver) p.filters = ⟨result, ofChain⟩ ∧
      p.VariableReport (resolver p.name p.subscripts) ofVariable ∧
      FilterCall.Runs filters (p.initial resolver) p.filters result ofChain ∧
      p.ValueReport result text ofValue ∧
      before.extend resolver filters (.placeholder p) =
        ⟨before.output ++ text, before.diagnostics ++ (ofVariable ++ ofChain ++ ofValue)⟩ := by
  refine ⟨_, _, p.variableProblems resolver filters, _, _, rfl, variableReport,
    FilterCall.runs_iff.mpr rfl, valueReport _, ?_⟩
  rw [Compilation.extend, Segment.evaluate, evaluate_eq]
  rfl

end Placeholder

end StyleTemplate
