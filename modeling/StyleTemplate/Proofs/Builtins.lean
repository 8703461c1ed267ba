import Mathlib
import StyleTemplate.Proofs.Fallback
import StyleTemplate.Proofs.Skipping

/-! The built-in filters and the undefined value. None of them makes it of another value
(`Filter.keepsText_of_builtins`), and some of them leave it undefined, with or without a problem
(`FilterCall.OnUndefined`). So behind such calls a fallback is supplied as if the variable held it
(`Placeholder.evaluate_fallback`). -/

namespace StyleTemplate

variable {resolver other : Resolver} {v : Value}

/-! ### Values with a text -/

namespace Value

/-- A value that is there and can be written: not undefined, and no sequence or mapping. -/
structure Textual (v : Value) : Prop where
  defined : v ≠ .undefined
  written : v.render?.isSome

theorem textual_ofLiteral (l : Literal) : (ofLiteral l).Textual := by
  cases l <;> exact ⟨nofun, rfl⟩

theorem textual_concat (v w : Value) : (v.concat w).Textual := ⟨nofun, rfl⟩

theorem Textual.foldl_concat (hv : v.Textual) (args : List Value) :
    (args.foldl Value.concat v).Textual := by
  induction args generalizing v with
  | nil => exact hv
  | cons arg args ih => exact ih (textual_concat v arg)

theorem textual_combine (f : Int → Int → Int) (g : Float → Float → Float)
    (a b : Number) : (combine f g a b).Textual := by
  unfold combine
  split
  · split <;> exact ⟨nofun, rfl⟩
  · exact ⟨nofun, rfl⟩

theorem textual_arithmetic? {f : Int → Int → Int} {g : Float → Float → Float} {v w result : Value}
    (h : arithmetic? f g v w = some result) : result.Textual := by
  unfold arithmetic? at h
  split at h
  · obtain rfl := Option.some.inj h
    exact textual_combine f g _ _
  · exact nomatch h

end Value

namespace Filter

/-- From a value with a text and such arguments comes another one, if the filter does not fail. -/
def KeepsText (f : Filter) : Prop :=
  ∀ ⦃v args w⦄, v.Textual → (∀ arg ∈ args, arg.Textual) → f v args = .ok w → w.Textual

theorem keepsText_default : KeepsText default := by
  intro v args w hv hargs h
  cases args with
  | nil => exact nomatch h
  | cons fallback args =>
    obtain rfl := Except.ok.inj h
    split
    · exact hargs fallback List.mem_cons_self
    · exact hv

theorem keepsText_onText (f : List Char → List Char) : KeepsText (onText f) := by
  intro v args w hv _ h
  unfold onText at h
  split at h
  · obtain rfl := Except.ok.inj h
    exact hv
  · split at h
    · obtain rfl := Except.ok.inj h
      exact ⟨nofun, rfl⟩
    · exact nomatch h

theorem keepsText_append : KeepsText append := by
  intro v args w hv _ h
  unfold append at h
  split at h
  · obtain rfl := Except.ok.inj h
    exact hv.foldl_concat args
  · exact nomatch h

theorem keepsText_prepend : KeepsText prepend := by
  intro v args w _ _ h
  unfold prepend at h
  split at h
  · obtain rfl := Except.ok.inj h
    exact Value.textual_concat _ v
  · exact nomatch h

theorem keepsText_arithmetic (f : Int → Int → Int) (g : Float → Float → Float) :
    KeepsText (arithmetic (Value.arithmetic? f g)) := by
  intro v args w _ _ h
  unfold arithmetic at h
  split at h
  · exact nomatch h
  · split at h
    · rename_i hresult
      obtain rfl := Except.ok.inj h
      exact Value.textual_arithmetic? hresult
    · split at h <;> exact nomatch h

theorem keepsText_round : KeepsText round := by
  intro v args w _ _ h
  simp only [round] at h
  split at h
  · exact nomatch h
  · split at h
    · obtain rfl := Except.ok.inj h
      exact ⟨nofun, rfl⟩
    · obtain rfl := Except.ok.inj h
      exact ⟨nofun, rfl⟩
    · exact nomatch h

theorem entries_builtins : builtins.entries =
    [("add", add), ("append", append), ("default", default), ("lower", lower),
      ("multiply", multiply), ("prepend", prepend), ("round", round), ("trim", trim),
      ("upper", upper)] := rfl

theorem keepsText_of_builtins {name : String} {f : Filter} (h : builtins.get? name = some f) :
    KeepsText f := by
  have hmem := Table.mem_entries_iff.mpr h
  simp only [entries_builtins, List.mem_cons, Prod.mk.injEq, List.not_mem_nil, or_false] at hmem
  rcases hmem with ⟨-, rfl⟩ | ⟨-, rfl⟩ | ⟨-, rfl⟩ | ⟨-, rfl⟩ | ⟨-, rfl⟩ | ⟨-, rfl⟩ | ⟨-, rfl⟩ |
    ⟨-, rfl⟩ | ⟨-, rfl⟩
  · exact keepsText_arithmetic _ _
  · exact keepsText_append
  · exact keepsText_default
  · exact keepsText_onText _
  · exact keepsText_arithmetic _ _
  · exact keepsText_prepend
  · exact keepsText_round
  · exact keepsText_onText _
  · exact keepsText_onText _

end Filter

namespace FilterCall

variable {call : FilterCall} {chain : List FilterCall} {problem : Option Diagnostic}

theorem textual_apply (hv : v.Textual) (call : FilterCall) :
    (call.apply Filter.builtins v).value.Textual := by
  have hstep := step_apply Filter.builtins call v
  generalize call.problem? Filter.builtins v = problem, (call.apply Filter.builtins v).value = w at hstep
  cases hstep with
  | unknown => exact hv
  | failed => exact hv
  | passed hfilter hresult =>
    refine Filter.keepsText_of_builtins hfilter hv (fun arg harg => ?_) hresult
    obtain ⟨l, -, rfl⟩ := List.mem_map.mp harg
    exact Value.textual_ofLiteral l

theorem textual_applyAll (hv : v.Textual) (chain : List FilterCall) :
    (applyAll Filter.builtins v chain).value.Textual := by
  induction chain generalizing v with
  | nil => exact hv
  | cons call chain ih => exact ih (textual_apply hv call)

/-! ### Calls on the undefined value -/

/-- A call of a text or number filter, or of none that is known. -/
def PassesUndefined (call : FilterCall) : Prop :=
  call.name ∈ ["upper", "lower", "trim", "add", "multiply", "round"] ∨
    Filter.builtins.get? call.name = none

/-- The problem with such a call on the undefined value: text filters have none, and number filters
look at their argument first. -/
inductive OnUndefined (call : FilterCall) : Option Diagnostic → Prop
  | unknown (h : Filter.builtins.get? call.name = none) :
    OnUndefined call (some (.filterNotFound call.name call.span))
  | text (h : call.name ∈ ["upper", "lower", "trim"]) : OnUndefined call none
  | bare (h : call.name ∈ ["add", "multiply"]) (hargs : call.args = []) :
    OnUndefined call (some (.filterFailed call.name (.missingArgument 1) call.span))
  | operand (h : call.name ∈ ["add", "multiply"]) (hargs : call.args ≠ []) :
    OnUndefined call
      (some (.filterFailed call.name (.invalidValue .numeric .undefined) call.span))
  | precision {l : Literal} (h : call.name = "round") (hargs : call.args.head? = some l)
      (hl : (Value.ofLiteral l).toInteger? = none) :
    OnUndefined call (some (.filterFailed call.name
      (.invalidArgument 1 .integer (Value.ofLiteral l).kind) call.span))
  | places (h : call.name = "round")
      (hargs : ∀ l ∈ call.args.head?, (Value.ofLiteral l).toInteger?.isSome) :
    OnUndefined call
      (some (.filterFailed call.name (.invalidValue .numeric .undefined) call.span))

theorem exists_onUndefined (h : call.PassesUndefined) : ∃ problem, OnUndefined call problem := by
  rcases h with h | h
  · have hgroups : call.name ∈ ["upper", "lower", "trim"] ++ (["add", "multiply"] ++ ["round"]) := h
    rcases List.mem_append.mp hgroups with h | h
    · exact ⟨_, .text h⟩
    rcases List.mem_append.mp h with h | h
    · by_cases hargs : call.args = []
      · exact ⟨_, .bare h hargs⟩
      · exact ⟨_, .operand h hargs⟩
    · have hround := List.mem_singleton.mp h
      by_cases hplaces : ∀ l ∈ call.args.head?, (Value.ofLiteral l).toInteger?.isSome
      · exact ⟨_, .places hround hplaces⟩
      · push Not at hplaces
        obtain ⟨l, hargs, hl⟩ := hplaces
        exact ⟨_, .precision hround hargs (Option.not_isSome_iff_eq_none.mp hl)⟩
  · exact ⟨_, .unknown h⟩

theorem get?_textFilter {name : String} (h : name ∈ ["upper", "lower", "trim"]) :
    ∃ f, Filter.builtins.get? name = some (Filter.onText f) := by
  simp only [List.mem_cons, List.not_mem_nil, or_false] at h
  rcases h with rfl | rfl | rfl
  · exact ⟨Text.upper, rfl⟩
  · exact ⟨Text.lower, rfl⟩
  · exact ⟨Text.trim, rfl⟩

theorem get?_arithmeticFilter {name : String} (h : name ∈ ["add", "multiply"]) :
    ∃ f g, Filter.builtins.get? name = some (Filter.arithmetic (Value.arithmetic? f g)) := by
  simp only [List.mem_cons, List.not_mem_nil, or_false] at h
  rcases h with rfl | rfl
  · exact ⟨(· + ·), (· + ·), rfl⟩
  · exact ⟨(· * ·), (· * ·), rfl⟩

/-- Such a call leaves the undefined value undefined. -/
theorem OnUndefined.step (h : OnUndefined call problem) :
    Step Filter.builtins call .undefined .undefined problem := by
  cases h with
  | unknown h => exact .unknown h
  | text h =>
    obtain ⟨f, hfilter⟩ := get?_textFilter h
    exact .passed hfilter rfl
  | bare h hargs =>
    obtain ⟨f, g, hfilter⟩ := get?_arithmeticFilter h
    exact .failed hfilter (by rw [hargs]; rfl)
  | operand h hargs =>
    obtain ⟨f, g, hfilter⟩ := get?_arithmeticFilter h
    obtain ⟨l, args, hargs⟩ := List.exists_cons_of_ne_nil hargs
    exact .failed hfilter (by rw [hargs]; rfl)
  | precision h hargs hl =>
    have hfilter : Filter.builtins.get? call.name = some Filter.round := by rw [h]; rfl
    obtain ⟨args, hargs⟩ := List.head?_eq_some_iff.mp hargs
    exact .failed hfilter (by simp only [hargs, List.map_cons, Filter.round, hl])
  | places h hargs =>
    have hfilter : Filter.builtins.get? call.name = some Filter.round := by rw [h]; rfl
    refine .failed hfilter ?_
    cases hlist : call.args with
    | nil => rfl
    | cons l args =>
      obtain ⟨n, hn⟩ := Option.isSome_iff_exists.mp (hargs l (by rw [hlist]; rfl))
      simp only [List.map_cons, Filter.round, hn]
      rfl

theorem exists_forall₂_onUndefined (h : ∀ call ∈ chain, call.PassesUndefined) :
    ∃ problems, List.Forall₂ OnUndefined chain problems := by
  induction chain with
  | nil => exact ⟨[], .nil⟩
  | cons call chain ih =>
    obtain ⟨hcall, hchain⟩ := List.forall_mem_cons.mp h
    obtain ⟨problem, hproblem⟩ := exists_onUndefined hcall
    obtain ⟨problems, hproblems⟩ := ih hchain
    exact ⟨problem :: problems, .cons hproblem hproblems⟩

theorem PassesUndefined.not_isFallback (h : call.PassesUndefined) :
    ¬Placeholder.isFallback Filter.builtins call := by
  intro hfallback
  obtain ⟨hname, hregistered⟩ := Bool.and_eq_true_iff.mp hfallback
  rcases h with h | h
  · rw [eq_of_beq hname] at h
    exact absurd h (by decide)
  · rw [Table.contains, h] at hregistered
    exact nomatch hregistered

theorem applyAll_onUndefined {problems : List (Option Diagnostic)}
    (h : List.Forall₂ OnUndefined chain problems) :
    applyAll Filter.builtins .undefined chain = ⟨.undefined, problems.reduceOption⟩ := by
  induction h with
  | nil => rfl
  | @cons call problem chain problems hcall _ ih =>
    rw [applyAll, hcall.step.apply_eq, ih]
    cases problem <;> rfl

end FilterCall

/-! ### Fallbacks for the undefined value -/

namespace Placeholder

variable {p : Placeholder}

/-- `p` is filled in as any variable with the value `v` is that goes through `chain`, and `skipped`
is reported besides. -/
structure FilledAs (p : Placeholder) (resolver : Resolver) (v : Value) (chain : List FilterCall)
    (skipped : List Diagnostic) : Prop where
  text : (FilterCall.applyAll Filter.builtins v chain).value.render? =
    some (p.evaluate resolver Filter.builtins).text
  diagnostics : (p.evaluate resolver Filter.builtins).diagnostics =
    skipped ++ (FilterCall.applyAll Filter.builtins v chain).diagnostics
  quiet : ¬p.ReportsUndefined resolver Filter.builtins
  likewise : ∀ (q : Placeholder) (other : Resolver), q.filters = chain →
    other q.name q.subscripts = .ok v →
    q.evaluate other Filter.builtins =
      ⟨(p.evaluate resolver Filter.builtins).text,
        (FilterCall.applyAll Filter.builtins v chain).diagnostics⟩

/-- Where the variable is not reported and the chain ends with a text, its own problems are left. -/
theorem evaluate_of_textual {filters : Filters}
    (hvariable : p.variableProblems resolver filters = [])
    (htext : (p.chain resolver filters).value.Textual) :
    p.evaluate resolver filters =
      ⟨(p.chain resolver filters).value.text, (p.chain resolver filters).diagnostics⟩ := by
  rw [evaluate_eq, hvariable, valueProblems, if_pos htext.written, List.append_nil, List.nil_append]

theorem evaluate_of_resolved (hv : v.Textual) (hresolved : resolver p.name p.subscripts = .ok v) :
    p.evaluate resolver Filter.builtins =
      ⟨(FilterCall.applyAll Filter.builtins v p.filters).value.text,
        (FilterCall.applyAll Filter.builtins v p.filters).diagnostics⟩ := by
  have hchain : p.chain resolver Filter.builtins =
      FilterCall.applyAll Filter.builtins v p.filters := by
    rw [chain, initial, hresolved]
  have hmissing : ¬p.missing resolver := by
    rw [missing_iff, hresolved]
    exact fun h => hv.defined (Except.ok.inj h)
  rw [← hchain]
  refine evaluate_of_textual ?_ (hchain ▸ FilterCall.textual_applyAll hv p.filters)
  simp [variableProblems, hresolved, hmissing]

section

variable {pre post : List FilterCall} {l : Literal} {args : List Literal} {span : Span}
  (hmissing : resolver p.name p.subscripts = .ok .undefined)
  (hfilters : p.filters = pre ++ ⟨fallbackFilter, l :: args, span⟩ :: post)
  (hpre : ∀ call ∈ pre, call.PassesUndefined)

include hmissing hfilters

theorem chain_fallback {problems : List (Option Diagnostic)}
    (hproblems : List.Forall₂ FilterCall.OnUndefined pre problems) :
    p.chain resolver Filter.builtins =
      ⟨(FilterCall.applyAll Filter.builtins (.ofLiteral l) post).value,
        problems.reduceOption ++
          (FilterCall.applyAll Filter.builtins (.ofLiteral l) post).diagnostics⟩ := by
  rw [chain, initial, hmissing, hfilters, FilterCall.applyAll_append,
    FilterCall.applyAll_onUndefined hproblems]
  rfl

include hpre in
/-- The fallback is the first one, and it receives the undefined value. -/
theorem firstFallback?_fallback :
    p.firstFallback? resolver Filter.builtins =
      some (⟨fallbackFilter, l :: args, span⟩, .undefined) := by
  have hnot : ∀ call ∈ pre, !isFallback Filter.builtins call := fun call hcall => by
    simpa using (hpre call hcall).not_isFallback
  have hfallback : isFallback Filter.builtins ⟨fallbackFilter, l :: args, span⟩ := rfl
  have hnone : pre.find? (isFallback Filter.builtins) = none :=
    List.find?_eq_none.mpr fun call hcall => (hpre call hcall).not_isFallback
  obtain ⟨problems, hproblems⟩ := FilterCall.exists_forall₂_onUndefined hpre
  rw [firstFallback?, steps, FilterCall.find?_received, hfilters, List.find?_append, hnone,
    Option.none_or, List.find?_cons_of_pos hfallback, List.takeWhile_append_of_pos hnot,
    List.takeWhile_cons_of_neg (by simp [hfallback]), List.append_nil, initial, hmissing,
    Option.map_some, FilterCall.applyAll_onUndefined hproblems]

end

/-- Behind calls that leave the undefined value as it is, a fallback fills in the placeholder as if
the variable held it. What is reported of those calls is what each reports of the undefined value. -/
theorem evaluate_fallback {p : Placeholder} {resolver : Resolver} {pre post : List FilterCall}
    {l : Literal} {args : List Literal} {span : Span}
    (hmissing : resolver p.name p.subscripts = .ok .undefined)
    (hfilters : p.filters = pre ++ ⟨fallbackFilter, l :: args, span⟩ :: post)
    (hpre : ∀ call ∈ pre, call.PassesUndefined) :
    ∃ problems, List.Forall₂ FilterCall.OnUndefined pre problems ∧
      p.FilledAs resolver (.ofLiteral l) post problems.reduceOption := by
  obtain ⟨problems, hproblems⟩ := FilterCall.exists_forall₂_onUndefined hpre
  have hchain := chain_fallback hmissing hfilters hproblems
  have htextual := FilterCall.textual_applyAll (Value.textual_ofLiteral l) post
  have hquieted : p.quieted resolver Filter.builtins := by
    refine quieted_iff.mpr ⟨⟨_, firstFallback?_fallback hmissing hfilters hpre⟩, ?_⟩
    rw [hchain]
    exact htextual.defined
  have hvariable : p.variableProblems resolver Filter.builtins = [] := by
    simp [variableProblems, hmissing, hquieted]
  have heval := evaluate_of_textual hvariable (hchain ▸ htextual)
  rw [hchain] at heval
  refine ⟨problems, hproblems, ⟨?_, ?_, fun h => ?_, fun q other hq hresolved => ?_⟩⟩
  · obtain ⟨text, htext⟩ := Option.isSome_iff_exists.mp htextual.written
    rw [heval, Value.text, htext]
    rfl
  · rw [heval]
  · exact (reportsUndefined_iff.mp h).2 hquieted
  · rw [evaluate_of_resolved (Value.textual_ofLiteral l) hresolved, hq, heval]

/-- `$x|trim|down|add|default('a')|append('b')`: one call says nothing, one is unknown, and one has no
argument. -/
theorem evaluate_fallback_behind :
    ∃ p, segmentsOf "$x|trim|down|add|default('a')|append('b')".toList = [.placeholder p] ∧
      Resolver.ofValue (.ofPairs []) p.name p.subscripts = .ok .undefined ∧
      p.filters = [⟨"trim", [], ⟨3, 4⟩⟩, ⟨"down", [], ⟨8, 4⟩⟩, ⟨"add", [], ⟨13, 3⟩⟩] ++
        ⟨"default", [.string "a"], ⟨17, 12⟩⟩ :: [⟨"append", [.string "b"], ⟨30, 11⟩⟩] ∧
      ∃ problems,
        List.Forall₂ FilterCall.OnUndefined
          [⟨"trim", [], ⟨3, 4⟩⟩, ⟨"down", [], ⟨8, 4⟩⟩, ⟨"add", [], ⟨13, 3⟩⟩] problems ∧
        p.FilledAs (.ofValue (.ofPairs [])) (.ofLiteral (.string "a"))
          [⟨"append", [.string "b"], ⟨30, 11⟩⟩] problems.reduceOption := by
  refine ⟨⟨"x", [], [⟨"trim", [], ⟨3, 4⟩⟩, ⟨"down", [], ⟨8, 4⟩⟩, ⟨"add", [], ⟨13, 3⟩⟩,
    ⟨"default", [.string "a"], ⟨17, 12⟩⟩, ⟨"append", [.string "b"], ⟨30, 11⟩⟩], ⟨0, 41⟩⟩,
    by cbv, rfl, rfl, evaluate_fallback rfl rfl fun call hcall => ?_⟩
  simp only [List.mem_cons, List.not_mem_nil, or_false] at hcall
  rcases hcall with rfl | rfl | rfl
  · exact .inl (by decide)
  · exact .inr rfl
  · exact .inl (by decide)

end Placeholder

end StyleTemplate
