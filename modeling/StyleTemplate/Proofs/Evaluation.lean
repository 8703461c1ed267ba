import StyleTemplate.Compilation

/-! What a placeholder is filled in with, said of its whole chain: the text is that of the value at
the end of the chain, and the problems are those of the variable, of the calls and of the value, in
this order (`Placeholder.evaluate_eq`). -/

namespace StyleTemplate

variable {resolver : Resolver} {filters : Filters}

theorem Value.isUndefined_iff {v : Value} : v.isUndefined ↔ v = .undefined := by
  cases v <;> simp [Value.isUndefined]

/-- A chain runs as its parts do, one on what the other leaves. -/
theorem FilterCall.applyAll_append (v : Value) (front back : List FilterCall) :
    FilterCall.applyAll filters v (front ++ back) =
      let first := FilterCall.applyAll filters v front
      let second := FilterCall.applyAll filters first.value back
      ⟨second.value, first.diagnostics ++ second.diagnostics⟩ := by
  induction front generalizing v with
  | nil => rfl
  | cons call front ih =>
    simp only [List.cons_append, FilterCall.applyAll, ih, List.append_assoc]

namespace Placeholder

/-- The value that the chain begins with. -/
def initial (p : Placeholder) (resolver : Resolver) : Value :=
  match resolver p.name p.subscripts with
  | .ok v => v
  | .error _ => .undefined

def chain (p : Placeholder) (resolver : Resolver) (filters : Filters) : Filtered :=
  FilterCall.applyAll filters (p.initial resolver) p.filters

/-- The value that reaches the first fallback call, or the end of a chain without one. -/
def beforeFallback (p : Placeholder) (resolver : Resolver) (filters : Filters) : Value :=
  (FilterCall.applyAll filters (p.initial resolver)
    (p.filters.takeWhile fun call => !isFallback filters call)).value

/-- The variable is there and has no value. -/
def missing (p : Placeholder) (resolver : Resolver) : Bool :=
  match resolver p.name p.subscripts with
  | .ok v => v.isUndefined
  | .error _ => false

/-- The first fallback call receives the undefined value, and the chain ends with another one. -/
def quieted (p : Placeholder) (resolver : Resolver) (filters : Filters) : Bool :=
  (p.beforeFallback resolver filters).isUndefined && p.filters.any (isFallback filters) &&
    !(p.chain resolver filters).value.isUndefined

def variableProblems (p : Placeholder) (resolver : Resolver) (filters : Filters) :
    List Diagnostic :=
  match resolver p.name p.subscripts with
  | .error reason => [.subscriptTraversal p.path reason p.span]
  | .ok _ =>
    if p.missing resolver && !p.quieted resolver filters then [.undefinedVariable p.path p.span]
    else []

def valueProblems (p : Placeholder) (v : Value) : List Diagnostic :=
  if v.render?.isSome then [] else [.nonScalarValue p.path v.kind p.span]

theorem missing_iff {p : Placeholder} :
    p.missing resolver ↔ resolver p.name p.subscripts = .ok .undefined := by
  unfold missing
  split
  · rename_i v h
    rw [h, Value.isUndefined_iff, Except.ok.injEq]
  · rename_i reason h
    simp [h]

private theorem isEmpty_dropWhile_not {α : Type} (q : α → Bool) (xs : List α) :
    (xs.dropWhile fun x => !q x).isEmpty = !xs.any q := by
  induction xs with
  | nil => rfl
  | cons x xs ih => cases hx : q x <;> simp [hx, ih]

/-- The chain runs up to the first fallback call, and on from there. -/
theorem chain_eq (p : Placeholder) :
    p.chain resolver filters =
      let first := FilterCall.applyAll filters (p.initial resolver)
        (p.filters.takeWhile fun call => !isFallback filters call)
      let second := FilterCall.applyAll filters first.value
        (p.filters.dropWhile fun call => !isFallback filters call)
      ⟨second.value, first.diagnostics ++ second.diagnostics⟩ := by
  rw [← FilterCall.applyAll_append, List.takeWhile_append_dropWhile]
  rfl

theorem evaluate_eq (p : Placeholder) :
    p.evaluate resolver filters =
      ⟨(p.chain resolver filters).value.text,
        p.variableProblems resolver filters ++ (p.chain resolver filters).diagnostics ++
          p.valueProblems (p.chain resolver filters).value⟩ := by
  unfold variableProblems quieted valueProblems beforeFallback missing Value.text
  simp only [chain_eq, evaluate, isEmpty_dropWhile_not, Bool.not_not]
  unfold initial
  cases resolver p.name p.subscripts with
  | error reason => split <;> simp_all
  | ok v => split <;> simp_all

end Placeholder

end StyleTemplate
