import Mathlib
import StyleTemplate.Filter.Builtin
import StyleTemplate.Proofs.Problems

/-! When an undefined variable is reported. It should be unless a call of the fallback filter puts
its argument in the place of the undefined value. What decides instead is the value at two points of
the chain, before the first fallback call and at the end, and these do not tell which call put what
there: the two agree exactly where no other filter makes up for a fallback call without an argument
or undoes one with an argument (`reportsUndefined_agrees_iff`). -/

namespace StyleTemplate

variable {resolver : Resolver} {filters : Filters}

theorem Value.ofLiteral_ne_undefined (l : Literal) : Value.ofLiteral l ≠ .undefined := by
  cases l <;> exact nofun

namespace FilterCall

/-- The calls of a chain, each with the value that it receives. -/
def received (filters : Filters) : Value → List FilterCall → List (FilterCall × Value)
  | _, [] => []
  | v, call :: chain => (call, v) :: received filters (call.apply filters v).value chain

/-- A fallback call that receives the undefined value and puts its argument in the place. -/
def Supplies (filters : Filters) (call : FilterCall) (v : Value) : Prop :=
  call.name = fallbackFilter ∧ v = .undefined ∧
    ∃ fallback ∈ call.args.head?, (call.apply filters v).value = Value.ofLiteral fallback

/-- The first call of a kind receives what the calls before it make of the value. -/
theorem find?_received (q : FilterCall → Bool) (v : Value) (chain : List FilterCall) :
    (received filters v chain).find? (fun step => q step.1) =
      (chain.find? q).map fun call =>
        (call, (applyAll filters v (chain.takeWhile fun c => !q c)).value) := by
  induction chain generalizing v with
  | nil => rfl
  | cons call chain ih =>
    cases hq : q call with
    | true => simp [received, hq, applyAll]
    | false => simp [received, hq, applyAll, ih]

theorem supplies_iff {call : FilterCall} {v : Value}
    (hdefault : ∀ f ∈ filters.get? fallbackFilter, f = Filter.default) :
    Supplies filters call v ↔
      Placeholder.isFallback filters call ∧ v = .undefined ∧ call.args ≠ [] := by
  unfold Supplies Placeholder.isFallback Table.contains apply
  rw [Bool.and_eq_true, beq_iff_eq, and_assoc]
  refine and_congr_right fun hname => ?_
  rw [hname, and_left_comm]
  refine and_congr_right fun hv => ?_
  subst hv
  cases hget : filters.get? fallbackFilter with
  | none => simpa using fun l _ => (Value.ofLiteral_ne_undefined l).symm
  | some f =>
    obtain rfl := hdefault f hget
    cases hargs : call.args with
    | nil => simp
    | cons l args => simp [Filter.default, requiredArgument, Value.isEmpty]

end FilterCall

namespace Placeholder

/-- The calls of the chain, each with the value that it receives. -/
def steps (p : Placeholder) (resolver : Resolver) (filters : Filters) :
    List (FilterCall × Value) :=
  FilterCall.received filters (p.initial resolver) p.filters

/-- The first fallback call of the chain, with the value that it receives. -/
def firstFallback? (p : Placeholder) (resolver : Resolver) (filters : Filters) :
    Option (FilterCall × Value) :=
  (p.steps resolver filters).find? fun step => isFallback filters step.1

/-- Some fallback call of the chain supplies its argument. -/
def Supplied (p : Placeholder) (resolver : Resolver) (filters : Filters) : Prop :=
  ∃ step ∈ p.steps resolver filters, FilterCall.Supplies filters step.1 step.2

def ReportsUndefined (p : Placeholder) (resolver : Resolver) (filters : Filters) : Prop :=
  ∃ d ∈ (p.evaluate resolver filters).diagnostics, d.code = "D100"

/-- No fallback is supplied, but the first fallback call receives the undefined value, and another
filter makes a value of it. -/
structure MadeUp (p : Placeholder) (resolver : Resolver) (filters : Filters) : Prop where
  bare : ∀ step ∈ p.steps resolver filters,
    isFallback filters step.1 → step.2 = .undefined → step.1.args = []
  reached : ∃ call, p.firstFallback? resolver filters = some (call, .undefined)
  ends : (p.chain resolver filters).value ≠ .undefined

/-- A fallback is supplied, but by a later call than the first, which receives another value, or the
chain ends with the undefined value all the same. -/
structure Undone (p : Placeholder) (resolver : Resolver) (filters : Filters) : Prop where
  supplied : ∃ step ∈ p.steps resolver filters,
    isFallback filters step.1 ∧ step.2 = .undefined ∧ step.1.args ≠ []
  late : (∃ call v, p.firstFallback? resolver filters = some (call, v) ∧ v ≠ .undefined) ∨
    (p.chain resolver filters).value = .undefined

theorem quieted_iff {p : Placeholder} :
    p.quieted resolver filters ↔
      (∃ call, p.firstFallback? resolver filters = some (call, .undefined)) ∧
        (p.chain resolver filters).value ≠ .undefined := by
  unfold quieted firstFallback? steps
  rw [FilterCall.find?_received, ← List.isSome_find?, Bool.and_eq_true, Bool.and_eq_true,
    Bool.not_eq_true', Value.isUndefined_iff, ← Bool.not_eq_true, Value.isUndefined_iff]
  refine and_congr_left fun _ => ?_
  cases p.filters.find? (isFallback filters) with
  | none => simp
  | some call => simp [beforeFallback]

theorem reportsUndefined_iff {p : Placeholder} :
    p.ReportsUndefined resolver filters ↔
      resolver p.name p.subscripts = .ok .undefined ∧ ¬p.quieted resolver filters := by
  have hchain : ∀ d ∈ (p.chain resolver filters).diagnostics, d.code ≠ "D100" := by
    rintro d hd hcode
    obtain ⟨call, -, hcall, -⟩ := FilterCall.isOn_of_applyAll hd
    simp [hcode] at hcall
  have hvalue (v : Value) : ∀ d ∈ p.valueProblems v, d.code ≠ "D100" := by
    rintro d hd hcode
    have hcodes := ((valueReport v).isOn d hd).code
    simp [hcode] at hcodes
  have hvariable : (∃ d ∈ p.variableProblems resolver filters, d.code = "D100") ↔
      p.missing resolver ∧ ¬p.quieted resolver filters := by
    unfold variableProblems
    cases h : resolver p.name p.subscripts with
    | error reason => simp [missing, h, Diagnostic.code]
    | ok v =>
      cases p.missing resolver <;> cases p.quieted resolver filters <;> simp [Diagnostic.code]
  rw [← missing_iff, ← hvariable]
  unfold ReportsUndefined
  rw [evaluate_eq]
  constructor
  · rintro ⟨d, hd, hcode⟩
    rcases List.mem_append.mp hd with hd | hd
    · rcases List.mem_append.mp hd with hd | hd
      · exact ⟨d, hd, hcode⟩
      · exact absurd hcode (hchain d hd)
    · exact absurd hcode (hvalue _ d hd)
  · rintro ⟨d, hd, hcode⟩
    exact ⟨d, List.mem_append_left _ (List.mem_append_left _ hd), hcode⟩

theorem supplied_iff {p : Placeholder}
    (hdefault : ∀ f ∈ filters.get? fallbackFilter, f = Filter.default) :
    p.Supplied resolver filters ↔ ∃ step ∈ p.steps resolver filters,
      isFallback filters step.1 ∧ step.2 = .undefined ∧ step.1.args ≠ [] :=
  exists_congr fun _ => and_congr_right fun _ => FilterCall.supplies_iff hdefault

/-- A chain that supplies a fallback has a first fallback call. -/
theorem Supplied.firstFallback {p : Placeholder}
    (hdefault : ∀ f ∈ filters.get? fallbackFilter, f = Filter.default)
    (h : p.Supplied resolver filters) :
    ∃ call v, p.firstFallback? resolver filters = some (call, v) := by
  obtain ⟨step, hmem, hstep, -⟩ := (supplied_iff hdefault).mp h
  have hsome : (p.firstFallback? resolver filters).isSome :=
    List.find?_isSome.mpr ⟨step, hmem, hstep⟩
  obtain ⟨⟨call, v⟩, hfirst⟩ := Option.isSome_iff_exists.mp hsome
  exact ⟨call, v, hfirst⟩

theorem madeUp_iff {p : Placeholder}
    (hdefault : ∀ f ∈ filters.get? fallbackFilter, f = Filter.default) :
    p.MadeUp resolver filters ↔ p.quieted resolver filters ∧ ¬p.Supplied resolver filters := by
  rw [quieted_iff, supplied_iff hdefault]
  constructor
  · rintro ⟨bare, reached, ends⟩
    refine ⟨⟨reached, ends⟩, ?_⟩
    rintro ⟨step, hmem, hstep, hundefined, hargs⟩
    exact hargs (bare step hmem hstep hundefined)
  · rintro ⟨⟨reached, ends⟩, hnone⟩
    refine ⟨fun step hmem hstep hundefined => ?_, reached, ends⟩
    exact Classical.byContradiction fun hargs => hnone ⟨step, hmem, hstep, hundefined, hargs⟩

theorem undone_iff {p : Placeholder}
    (hdefault : ∀ f ∈ filters.get? fallbackFilter, f = Filter.default) :
    p.Undone resolver filters ↔ p.Supplied resolver filters ∧ ¬p.quieted resolver filters := by
  rw [quieted_iff]
  constructor
  · rintro ⟨supplied, late⟩
    refine ⟨(supplied_iff hdefault).mpr supplied, ?_⟩
    rintro ⟨⟨call, hfirst⟩, ends⟩
    rcases late with ⟨call', v, hfirst', hv⟩ | hends
    · rw [hfirst, Option.some.injEq, Prod.mk.injEq] at hfirst'
      exact hv hfirst'.2.symm
    · exact ends hends
  · rintro ⟨supplied, hquiet⟩
    obtain ⟨call, v, hfirst⟩ := supplied.firstFallback hdefault
    refine ⟨(supplied_iff hdefault).mp supplied, ?_⟩
    by_cases hv : v = .undefined
    · subst hv
      exact .inr (Classical.byContradiction fun ends => hquiet ⟨⟨call, hfirst⟩, ends⟩)
    · exact .inl ⟨call, v, hfirst, hv⟩

/-- With the built-in fallback filter or none, an undefined variable is reported exactly when no
fallback is supplied for it, except where the other filters make up for one or undo it. -/
theorem reportsUndefined_agrees_iff {p : Placeholder}
    (hdefault : ∀ f ∈ filters.get? fallbackFilter, f = Filter.default) :
    (p.ReportsUndefined resolver filters ↔
        resolver p.name p.subscripts = .ok .undefined ∧ ¬p.Supplied resolver filters) ↔
      (resolver p.name p.subscripts = .ok .undefined →
        ¬p.MadeUp resolver filters ∧ ¬p.Undone resolver filters) := by
  rw [reportsUndefined_iff, madeUp_iff hdefault, undone_iff hdefault]
  by_cases hmissing : resolver p.name p.subscripts = .ok .undefined
  · rw [and_iff_right hmissing, and_iff_right hmissing, forall_prop_of_true hmissing]
    constructor
    · intro h
      exact ⟨fun made => h.mpr made.2 made.1, fun undone => h.mp undone.2 undone.1⟩
    · rintro ⟨hmade, hundone⟩
      exact ⟨fun hquiet hsupplied => hundone ⟨hsupplied, hquiet⟩,
        fun hsupplied hquiet => hmade ⟨hquiet, hsupplied⟩⟩
  · simp [hmissing]

/-- `$x|default|append('px')`: the fallback call fails without an argument, and yet no undefined
variable is reported. -/
theorem madeUp_disagrees :
    ∃ p, segmentsOf "$x|default|append('px')".toList = [.placeholder p] ∧
      Filter.builtins.get? fallbackFilter = some Filter.default ∧
      ¬(p.ReportsUndefined (.ofValue (.ofPairs [])) Filter.builtins ↔
        Resolver.ofValue (.ofPairs []) p.name p.subscripts = .ok .undefined ∧
          ¬p.Supplied (.ofValue (.ofPairs [])) Filter.builtins) := by
  refine ⟨⟨"x", [], [⟨"default", [], ⟨3, 7⟩⟩, ⟨"append", [.string "px"], ⟨11, 12⟩⟩], ⟨0, 23⟩⟩,
    by cbv, rfl, fun h => ?_⟩
  have hsupplied : ¬Supplied
      ⟨"x", [], [⟨"default", [], ⟨3, 7⟩⟩, ⟨"append", [.string "px"], ⟨11, 12⟩⟩], ⟨0, 23⟩⟩
      (.ofValue (.ofPairs [])) Filter.builtins := by
    rintro ⟨step, hmem, hname, -, fallback, hfallback, -⟩
    rcases List.mem_cons.mp hmem with rfl | hmem
    · exact nomatch hfallback
    · obtain rfl := List.mem_singleton.mp hmem
      exact absurd hname (by decide)
  obtain ⟨d, hd, hcode⟩ := h.mpr ⟨rfl, hsupplied⟩
  have hdiagnostics : d = .filterFailed "default" (.missingArgument 1) ⟨3, 7⟩ :=
    List.mem_singleton.mp hd
  subst hdiagnostics
  exact absurd hcode (by decide)

/-- Two fallback calls, of which the second supplies its argument. -/
theorem agrees_second_fallback :
    (∀ f ∈ Filter.builtins.get? fallbackFilter, f = Filter.default) ∧
      ∃ p, segmentsOf "$x|default|upper|default(0)".toList = [.placeholder p] ∧
        ((p.ReportsUndefined (.ofValue (.ofPairs [])) Filter.builtins ↔
            Resolver.ofValue (.ofPairs []) p.name p.subscripts = .ok .undefined ∧
              ¬p.Supplied (.ofValue (.ofPairs [])) Filter.builtins) ↔
          (Resolver.ofValue (.ofPairs []) p.name p.subscripts = .ok .undefined →
            ¬p.MadeUp (.ofValue (.ofPairs [])) Filter.builtins ∧
              ¬p.Undone (.ofValue (.ofPairs [])) Filter.builtins)) :=
  have hdefault : ∀ f ∈ Filter.builtins.get? fallbackFilter, f = Filter.default :=
    fun _ h => (Option.some.inj h).symm
  ⟨hdefault,
    ⟨"x", [], [⟨"default", [], ⟨3, 7⟩⟩, ⟨"upper", [], ⟨11, 5⟩⟩, ⟨"default", [.integer 0], ⟨17, 10⟩⟩],
      ⟨0, 27⟩⟩,
    by cbv, reportsUndefined_agrees_iff hdefault⟩

end Placeholder

end StyleTemplate
