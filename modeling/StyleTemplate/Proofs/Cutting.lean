import StyleTemplate.Proofs.Evaluation
import StyleTemplate.Proofs.Grammar.Truncation

/-! A source cut between two of its segments. Its segments are those of the part before the cut and,
moved to where they stand, those of the part behind it; and so it is with what the source compiles
to (`compile_cut`). -/

namespace StyleTemplate

open Text (byteSize takeBytes? dropBytes?)
open Grammar (Reading)

/-! ### Moving to a later byte -/

/-- The span `n` bytes later. -/
def Span.shift (n : Nat) (s : Span) : Span := ⟨n + s.start, s.length⟩

def FilterCall.shift (n : Nat) (c : FilterCall) : FilterCall := { c with span := c.span.shift n }

def Placeholder.shift (n : Nat) (p : Placeholder) : Placeholder :=
  { p with filters := p.filters.map (.shift n), span := p.span.shift n }

def Segment.shift (n : Nat) : Segment → Segment
  | text cs s => text cs (s.shift n)
  | placeholder p => placeholder (p.shift n)

def Diagnostic.shift (n : Nat) : Diagnostic → Diagnostic
  | undefinedVariable path s => undefinedVariable path (s.shift n)
  | subscriptTraversal path reason s => subscriptTraversal path reason (s.shift n)
  | filterNotFound name s => filterNotFound name (s.shift n)
  | filterFailed name reason s => filterFailed name reason (s.shift n)
  | nonScalarValue path kind s => nonScalarValue path kind (s.shift n)

variable {n start stop : Nat}

theorem Span.ofBounds_add (h : start ≤ stop) (hlimit : n + stop ≤ Span.limit) :
    Span.ofBounds (n + start) (n + stop) = (Span.ofBounds start stop).shift n := by
  simp only [Span.ofBounds, Span.shift, Span.mk.injEq]
  omega

theorem CallText.locate_add {c : CallText}
    (hlimit : n + (start + byteSize c.written) ≤ Span.limit) :
    c.locate (n + start) = (c.locate start).shift n := by
  have hpos : 0 < byteSize c.written := Text.byteSize_pos (List.cons_ne_nil _ _)
  simp only [CallText.locate, FilterCall.shift, Nat.add_assoc]
  rw [Span.ofBounds_add (by omega) hlimit]

theorem CallText.locateAll_add {calls : List CallText}
    (hlimit : n + (start + byteSize (calls.flatMap CallText.written)) ≤ Span.limit) :
    CallText.locateAll (n + start) calls = (CallText.locateAll start calls).map (.shift n) := by
  induction calls generalizing start with
  | nil => rfl
  | cons c calls ih =>
    rw [List.flatMap_cons, Text.byteSize_append, ← Nat.add_assoc start] at hlimit
    rw [CallText.locateAll, CallText.locateAll, List.map_cons, CallText.locate_add (by omega),
      Nat.add_assoc, ih hlimit]

theorem PlaceholderText.locate_add {p : PlaceholderText}
    (hlimit : n + (start + byteSize p.written) ≤ Span.limit) :
    p.locate (n + start) = (p.locate start).shift n := by
  have hwritten : byteSize p.written =
      1 + byteSize p.writtenPath + byteSize (p.calls.flatMap CallText.written) := by
    rw [PlaceholderText.written, Text.byteSize_cons, Text.byteSize_append, Nat.add_assoc]
    rfl
  simp only [PlaceholderText.locate, Placeholder.shift, Nat.add_assoc]
  rw [Span.ofBounds_add (Nat.le_add_right _ _) hlimit, CallText.locateAll_add (by omega)]

theorem Grammar.Reading.shift {text : List Char} {segments : List Segment}
    (h : Reading start text segments) (hlimit : n + (start + byteSize text) ≤ Span.limit) :
    Reading (n + start) text (segments.map (.shift n)) := by
  induction h with
  | nil => exact .nil
  | @text start cs rest segments nonempty plain stops _ ih =>
    rw [Text.byteSize_append] at hlimit
    have hspan := Span.ofBounds_add (n := n) (Nat.le_add_right start (byteSize cs)) (by omega)
    have htail := ih (by omega)
    rw [← Nat.add_assoc] at hspan htail
    rw [List.map_cons, Segment.shift, ← hspan]
    exact .text nonempty plain stops htail
  | @placeholder start text rest p segments begins _ ih =>
    rw [begins.split, Text.byteSize_append] at hlimit
    have htail := ih (by omega)
    rw [← Nat.add_assoc] at htail
    rw [List.map_cons, Segment.shift, ← PlaceholderText.locate_add (by omega)]
    exact .placeholder begins htail

/-! ### What a moved placeholder compiles to -/

variable {resolver : Resolver} {filters : Filters}

theorem FilterCall.apply_shift (c : FilterCall) (v : Value) :
    (c.shift n).apply filters v =
      ⟨(c.apply filters v).value, (c.apply filters v).diagnostics.map (.shift n)⟩ := by
  simp only [FilterCall.apply, FilterCall.shift]
  split
  · rfl
  · split <;> rfl

theorem FilterCall.applyAll_shift (chain : List FilterCall) (v : Value) :
    FilterCall.applyAll filters v (chain.map (.shift n)) =
      ⟨(FilterCall.applyAll filters v chain).value,
        (FilterCall.applyAll filters v chain).diagnostics.map (.shift n)⟩ := by
  induction chain generalizing v with
  | nil => rfl
  | cons c chain ih =>
    simp only [List.map_cons, FilterCall.applyAll, FilterCall.apply_shift, ih, List.map_append]

namespace Placeholder

variable (p : Placeholder)

theorem chain_shift : (p.shift n).chain resolver filters =
    ⟨(p.chain resolver filters).value, (p.chain resolver filters).diagnostics.map (.shift n)⟩ :=
  FilterCall.applyAll_shift p.filters (p.initial resolver)

theorem quieted_shift : (p.shift n).quieted resolver filters = p.quieted resolver filters := by
  have hfallback : isFallback filters ∘ FilterCall.shift n = isFallback filters := rfl
  have hbefore : (p.shift n).beforeFallback resolver filters = p.beforeFallback resolver filters := by
    simp only [beforeFallback, Placeholder.shift, List.takeWhile_map, FilterCall.applyAll_shift]
    rfl
  simp only [quieted, hbefore, chain_shift]
  simp only [Placeholder.shift, List.any_map, hfallback]

/-- A placeholder is filled in the same way wherever it stands; its problems move with it. -/
theorem evaluate_shift : (p.shift n).evaluate resolver filters =
    ⟨(p.evaluate resolver filters).text,
      (p.evaluate resolver filters).diagnostics.map (.shift n)⟩ := by
  have hvariable : (p.shift n).variableProblems resolver filters =
      (p.variableProblems resolver filters).map (.shift n) := by
    have hmissing : (p.shift n).missing resolver = p.missing resolver := rfl
    have hresolver : resolver (p.shift n).name (p.shift n).subscripts =
      resolver p.name p.subscripts := rfl
    unfold variableProblems
    rw [hmissing, quieted_shift, hresolver]
    cases resolver p.name p.subscripts with
    | error reason => rfl
    | ok v =>
      simp only
      split <;> rfl
  have hvalue (v : Value) : (p.shift n).valueProblems v = (p.valueProblems v).map (.shift n) := by
    unfold valueProblems
    split <;> rfl
  rw [evaluate_eq, evaluate_eq, chain_shift, hvariable, hvalue]
  simp only [List.map_append]

end Placeholder

theorem Segment.evaluate_shift (s : Segment) :
    (s.shift n).evaluate resolver filters =
      ⟨(s.evaluate resolver filters).text,
        (s.evaluate resolver filters).diagnostics.map (.shift n)⟩ := by
  cases s with
  | text => rfl
  | placeholder p => exact p.evaluate_shift

/-! ### Cutting a source -/

private theorem cut_position {a b : List Char} {front back : List Segment} {s t : Segment}
    (hlimit : byteSize (a ++ b) ≤ Span.limit) (ha : Reading 0 a (front ++ [s]))
    (hb : Reading (byteSize a) b (t :: back)) :
    s.span.stop = byteSize a ∧ t.span.start = byteSize a := by
  constructor
  · obtain ⟨c, d, rfl, -, hd⟩ := ha.split
    rw [Nat.zero_add] at hd
    obtain ⟨piece, rest, rfl, hstands, htail⟩ := hd.head
    obtain rfl := htail.eq_nil
    rw [hstands.stop_eq rfl (Nat.le_trans (by simp) hlimit), List.append_nil]
  · obtain ⟨piece, rest, rfl, hstands, -⟩ := hb.head
    exact hstands.start_eq rfl hlimit

/-- The segments of a later part of a source, read by itself and moved to where the part stands. -/
theorem segments_behind {a b : List Char} {back : List Segment}
    (hlimit : byteSize (a ++ b) ≤ Span.limit) (hb : Reading (byteSize a) b back) :
    (segmentsOf b).map (.shift (byteSize a)) = back := by
  rw [Text.byteSize_append] at hlimit
  have hb' : Reading 0 b (segmentsOf b) := Grammar.reading_segmentsOf (by omega)
  have hmoved : Reading (byteSize a) b ((segmentsOf b).map (.shift (byteSize a))) :=
    hb'.shift (by omega)
  exact hmoved.unique hb

/-- The segments of a source read as two parts. -/
private theorem segments_of_parts {a b : List Char} {front back : List Segment}
    (hlimit : byteSize (a ++ b) ≤ Span.limit) (ha : Reading 0 a front)
    (hb : Reading (byteSize a) b back) :
    segmentsOf a = front ∧ (segmentsOf b).map (.shift (byteSize a)) = back := by
  refine ⟨?_, segments_behind hlimit hb⟩
  rw [Text.byteSize_append] at hlimit
  exact (Grammar.reading_segmentsOf (by omega)).unique ha

/-- A source that falls into the segments of two others is filled in as they are. -/
private theorem compile_of_segments {source a b : String}
    (h : segmentsOf source.toList = segmentsOf a.toList ++ (segmentsOf b.toList).map (.shift n)) :
    (compile source resolver filters).output =
        (compile a resolver filters).output ++ (compile b resolver filters).output ∧
      (compile source resolver filters).diagnostics =
        (compile a resolver filters).diagnostics ++
          (compile b resolver filters).diagnostics.map (.shift n) := by
  constructor
  · simp only [compile, h, List.map_append, List.map_map, String.join_append, Function.comp_def,
      Segment.evaluate_shift]
  · simp only [compile, h, List.map_append, List.flatMap_append, List.map_flatMap, List.flatMap_map,
      Segment.evaluate_shift]

/-- At byte `p` a source falls into two others: its segments are those of both, the later ones moved
by `p`, and so are its output and its problems. -/
structure CutInto (source : String) (p : Nat) (a b : String) : Prop where
  before : takeBytes? p source.toList = some a.toList
  behind : dropBytes? p source.toList = some b.toList
  segments : segmentsOf source.toList = segmentsOf a.toList ++ (segmentsOf b.toList).map (.shift p)
  output : ∀ resolver filters, (compile source resolver filters).output =
    (compile a resolver filters).output ++ (compile b resolver filters).output
  diagnostics : ∀ resolver filters, (compile source resolver filters).diagnostics =
    (compile a resolver filters).diagnostics ++
      (compile b resolver filters).diagnostics.map (.shift p)

/-- A source falls into two wherever one of its segments ends and the next begins. -/
theorem compile_cut {source : String} {front back : List Segment} {s t : Segment} {p : Nat}
    (hlimit : byteSize source.toList ≤ Span.limit)
    (hsegments : segmentsOf source.toList = front ++ s :: t :: back) (hp : s.span.stop = p) :
    t.span.start = p ∧ ∃ a b, CutInto source p a b := by
  have hreading := Grammar.reading_segmentsOf hlimit
  rw [hsegments, ← List.singleton_append (l := t :: back), ← List.append_assoc] at hreading
  obtain ⟨a, b, hsource, ha, hb⟩ := hreading.split
  rw [Nat.zero_add] at hb
  rw [hsource] at hlimit
  obtain ⟨hstop, hstart⟩ := cut_position hlimit ha hb
  obtain ⟨hfront, hback⟩ := segments_of_parts hlimit ha hb
  have hparts : segmentsOf source.toList = segmentsOf (String.ofList a).toList ++
      (segmentsOf (String.ofList b).toList).map (.shift p) := by
    rw [hsegments, String.toList_ofList, String.toList_ofList, ← hp, hstop, hfront, hback]
    simp
  refine ⟨by rw [hstart, ← hp, hstop], String.ofList a, String.ofList b, ?_, ?_, hparts,
    fun _ _ => (compile_of_segments hparts).1, fun _ _ => (compile_of_segments hparts).2⟩
  · rw [hsource, ← hp, hstop, String.toList_ofList]
    exact Text.takeBytes?_append a b
  · rw [hsource, ← hp, hstop, String.toList_ofList]
    exact Text.dropBytes?_append a b

/-- A cut between a call that is not closed and the placeholder in what would be its arguments. -/
theorem compile_cut_unclosed :
    byteSize "$a|f('$b[k]|up )".toList ≤ Span.limit ∧
      segmentsOf "$a|f('$b[k]|up )".toList =
        [.placeholder ⟨"a", [], [], ⟨0, 2⟩⟩] ++ .text "|f('".toList ⟨2, 4⟩ ::
          .placeholder ⟨"b", ["k"], [⟨"up", [], ⟨12, 2⟩⟩], ⟨6, 8⟩⟩ :: [.text " )".toList ⟨14, 2⟩] ∧
      (⟨6, 8⟩ : Span).start = 6 ∧ ∃ a b, CutInto "$a|f('$b[k]|up )" 6 a b :=
  have h : segmentsOf "$a|f('$b[k]|up )".toList =
        [.placeholder ⟨"a", [], [], ⟨0, 2⟩⟩] ++ .text "|f('".toList ⟨2, 4⟩ ::
          .placeholder ⟨"b", ["k"], [⟨"up", [], ⟨12, 2⟩⟩], ⟨6, 8⟩⟩ :: [.text " )".toList ⟨14, 2⟩] :=
    by cbv
  ⟨by decide, h, compile_cut (by decide) h rfl⟩

end StyleTemplate
