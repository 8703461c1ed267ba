import StyleTemplate.Proofs.Cutting
import StyleTemplate.Proofs.Problems
import StyleTemplate.Proofs.Tiling

/-! A placeholder that goes wrong leaves the rest of the output alone: what is written around it is
what the source before it and behind it compiles to by itself, and its problems are those inside its
span (`compile_contained`). -/

namespace StyleTemplate

open Text (byteSize takeBytes? dropBytes?)
open Grammar (Reading Stands)

/-- No part of `inner` is outside `outer`. -/
def Span.Inside (inner outer : Span) : Prop := outer.start ≤ inner.start ∧ inner.stop ≤ outer.stop

instance (inner outer : Span) : Decidable (inner.Inside outer) :=
  inferInstanceAs (Decidable (_ ∧ _))

variable {resolver r₁ r₂ : Resolver} {filters f₁ f₂ : Filters}

/-! ### Segments filled in -/

/-- Segments filled in, in order. -/
def fill (segments : List Segment) (resolver : Resolver) (filters : Filters) : Compilation :=
  ⟨String.join (segments.map fun s => (s.evaluate resolver filters).text),
    segments.flatMap fun s => (s.evaluate resolver filters).diagnostics⟩

theorem compile_eq_fill (source : String) :
    compile source resolver filters = fill (segmentsOf source.toList) resolver filters := by
  simp only [compile, fill, List.map_map, List.flatMap_map, Function.comp_def]

theorem fill_around (front back : List Segment) (p : Placeholder) :
    fill (front ++ .placeholder p :: back) resolver filters =
      ⟨(fill front resolver filters).output ++ (p.evaluate resolver filters).text ++
          (fill back resolver filters).output,
        (fill front resolver filters).diagnostics ++ (p.evaluate resolver filters).diagnostics ++
          (fill back resolver filters).diagnostics⟩ := by
  simp only [fill, List.map_append, List.map_cons, String.join_append, String.join_cons,
    List.flatMap_append, List.flatMap_cons, String.append_assoc, List.append_assoc]
  rfl

theorem fill_shift (n : Nat) (segments : List Segment) :
    fill (segments.map (.shift n)) resolver filters =
      ⟨(fill segments resolver filters).output,
        (fill segments resolver filters).diagnostics.map (.shift n)⟩ := by
  simp only [fill, List.map_map, Function.comp_def, List.flatMap_map, List.map_flatMap,
    Segment.evaluate_shift]

/-- Segments are filled in alike where their placeholders are. -/
theorem fill_congr {segments : List Segment}
    (h : ∀ q, .placeholder q ∈ segments → q.evaluate r₁ f₁ = q.evaluate r₂ f₂) :
    fill segments r₁ f₁ = fill segments r₂ f₂ := by
  have heach : ∀ s ∈ segments, s.evaluate r₁ f₁ = s.evaluate r₂ f₂ := by
    intro s hs
    cases s with
    | text => rfl
    | placeholder q => exact h q hs
  rw [fill, fill, Compilation.mk.injEq]
  constructor
  · rw [List.map_congr_left fun s hs => congrArg Substitution.text (heach s hs)]
  · exact List.flatMap_congr fun s hs => congrArg Substitution.diagnostics (heach s hs)

/-! ### The bytes that problems are about -/

/-- Every problem is about some bytes from `start` on, up to `stop` at most. -/
def ReportedWithin (start : Nat) (diagnostics : List Diagnostic) (stop : Nat) : Prop :=
  ∀ d ∈ diagnostics, start ≤ d.span.start ∧ d.span.start < d.span.stop ∧ d.span.stop ≤ stop

variable {source before piece text rest : List Char}

/-- Problems with a placeholder are about some bytes of it. -/
theorem Placeholder.PlacedIn.covers {p : Placeholder} (h : p.PlacedIn source) {d : Diagnostic}
    (hd : d ∈ (p.evaluate resolver filters).diagnostics) :
    d.span.start < d.span.stop ∧ d.span.Inside p.span ∧ (d.span.text? source).isSome := by
  rcases Placeholder.isOn_of_evaluate hd with ⟨-, hspan⟩ | ⟨call, hcall, -, hspan⟩
  · rw [hspan]
    exact ⟨h.nonempty, ⟨Nat.le_refl _, Nat.le_refl _⟩, h.text⟩
  · obtain ⟨hafter, hnonempty, hstop, htext⟩ := h.call hcall
    rw [hspan]
    exact ⟨hnonempty, ⟨hafter.le, hstop⟩, htext⟩

theorem Grammar.Stands.reportedWithin {s : Segment} (h : Stands before s piece rest)
    (resolver : Resolver) (filters : Filters) (hsource : source = before ++ (piece ++ rest))
    (hlimit : byteSize source ≤ Span.limit) :
    ReportedWithin (byteSize before) (s.evaluate resolver filters).diagnostics
      (byteSize (before ++ piece)) := by
  intro d hd
  have hstart := h.start_eq hsource hlimit
  have hstop := h.stop_eq hsource hlimit
  cases s with
  | text => exact nomatch hd
  | placeholder p =>
    obtain ⟨hnonempty, ⟨hafter, hbefore⟩, -⟩ := (h.placedIn hsource hlimit).covers hd
    simp only [Segment.span] at hstart hstop
    exact ⟨by omega, hnonempty, by omega⟩

theorem Grammar.Reading.reportedWithin {segments : List Segment}
    (h : Reading (byteSize before) text segments) (resolver : Resolver) (filters : Filters)
    (hsource : source = before ++ text) (hlimit : byteSize source ≤ Span.limit) :
    ReportedWithin (byteSize before) (fill segments resolver filters).diagnostics
      (byteSize source) := by
  induction segments generalizing before text with
  | nil => exact fun d hd => nomatch hd
  | cons s segments ih =>
    obtain ⟨piece, rest, rfl, hstands, htail⟩ := h.head
    have hhead := hstands.reportedWithin resolver filters hsource hlimit
    have htail := ih htail (by rw [hsource, List.append_assoc])
    have hle : byteSize (before ++ piece) ≤ byteSize source := by
      rw [hsource, ← List.append_assoc, Text.byteSize_append (before ++ piece)]
      omega
    have hge : byteSize before ≤ byteSize (before ++ piece) := by
      rw [Text.byteSize_append]
      omega
    intro d hd
    rcases List.mem_append.mp hd with hd | hd
    · have := hhead d hd
      omega
    · have := htail d hd
      omega

theorem ReportedWithin.filter_eq_self {start stop : Nat} {span : Span} {ds : List Diagnostic}
    (h : ReportedWithin start ds stop) (hstart : span.start = start) (hstop : span.stop = stop) :
    ds.filter (fun d => d.span.Inside span) = ds ∧
      ds.filter (fun d => ¬d.span.Inside span) = [] := by
  have hinside : ∀ d ∈ ds, d.span.Inside span := fun d hd => by
    have := h d hd
    exact ⟨by omega, by omega⟩
  constructor
  · exact List.filter_eq_self.mpr fun d hd => decide_eq_true (hinside d hd)
  · exact List.filter_eq_nil_iff.mpr fun d hd hnot => of_decide_eq_true hnot (hinside d hd)

/-- Problems before a span or behind it are not inside it, as their spans are not empty. -/
theorem ReportedWithin.filter_eq_nil {start stop : Nat} {span : Span} {ds : List Diagnostic}
    (h : ReportedWithin start ds stop) (hapart : stop ≤ span.start ∨ span.stop ≤ start) :
    ds.filter (fun d => d.span.Inside span) = [] ∧
      ds.filter (fun d => ¬d.span.Inside span) = ds := by
  have hnot : ∀ d ∈ ds, ¬d.span.Inside span := by
    rintro d hd ⟨hstart, hstop⟩
    have := h d hd
    omega
  constructor
  · exact List.filter_eq_nil_iff.mpr fun d hd hinside => hnot d hd (of_decide_eq_true hinside)
  · exact List.filter_eq_self.mpr fun d hd => decide_eq_true (hnot d hd)

/-! ### What stands around a placeholder -/

/-- What a segment of a source leaves in the output: plain text as it stands in the source. -/
def Segment.content (source : List Char) (resolver : Resolver) (filters : Filters) :
    Segment → String
  | .text _ span => String.ofList ((span.text? source).getD [])
  | .placeholder p => (p.evaluate resolver filters).text

/-- The source before placeholder `p` is `a` and the source behind it is `b`. Whatever `p` is filled
in with is written between what they compile to, and is not read again. -/
structure Contained (source : String) (p : Placeholder) (a b : String) : Prop where
  before : takeBytes? p.span.start source.toList = some a.toList
  behind : dropBytes? p.span.stop source.toList = some b.toList
  output : ∀ resolver filters, (compile source resolver filters).output =
    (compile a resolver filters).output ++ (p.evaluate resolver filters).text ++
      (compile b resolver filters).output
  diagnostics : ∀ resolver filters, (compile source resolver filters).diagnostics =
    (compile a resolver filters).diagnostics ++ (p.evaluate resolver filters).diagnostics ++
      (compile b resolver filters).diagnostics.map (.shift p.span.stop)
  own : ∀ resolver filters,
    (compile source resolver filters).diagnostics.filter (fun d => d.span.Inside p.span) =
      (p.evaluate resolver filters).diagnostics
  others : ∀ resolver filters,
    (compile source resolver filters).diagnostics.filter (fun d => ¬d.span.Inside p.span) =
      (compile a resolver filters).diagnostics ++
        (compile b resolver filters).diagnostics.map (.shift p.span.stop)
  verbatim : ∀ resolver filters, (compile source resolver filters).output =
    String.join ((segmentsOf source.toList).map (Segment.content source.toList resolver filters))

/-- Two runs that differ in what `p` is filled in with, and in its problems, at most. -/
structure AgreeAround (source : String) (p : Placeholder) (r₁ r₂ : Resolver) (f₁ f₂ : Filters) :
    Prop where
  output : ∃ before behind,
    (compile source r₁ f₁).output = before ++ (p.evaluate r₁ f₁).text ++ behind ∧
      (compile source r₂ f₂).output = before ++ (p.evaluate r₂ f₂).text ++ behind
  diagnostics : (compile source r₁ f₁).diagnostics.filter (fun d => ¬d.span.Inside p.span) =
    (compile source r₂ f₂).diagnostics.filter (fun d => ¬d.span.Inside p.span)

theorem output_eq_content {source : String} (hlimit : byteSize source.toList ≤ Span.limit) :
    (compile source resolver filters).output =
      String.join ((segmentsOf source.toList).map (Segment.content source.toList resolver filters)) := by
  have hnothing : source.toList = [] ++ source.toList := rfl
  have hstands := (Grammar.reading_segmentsOf hlimit).stands hnothing
  rw [compile_eq_fill, fill]
  refine congrArg String.join (List.map_congr_left fun s hs => ?_)
  obtain ⟨before, piece, rest, hsource, hs⟩ := hstands s hs
  have htext := hs.text?_eq hsource hlimit
  cases hs with
  | placeholder => rfl
  | text =>
    rw [Segment.span] at htext
    rw [Segment.content, htext]
    rfl

/-- A source with a placeholder between two parts of it, and the segments of both. -/
structure Surrounds (source : String) (front : List Segment) (p : Placeholder) (back : List Segment)
    (a : String) (piece : List Char) (b : String) : Prop where
  split : source.toList = a.toList ++ (piece ++ b.toList)
  limit : byteSize source.toList ≤ Span.limit
  segments : segmentsOf source.toList = front ++ .placeholder p :: back
  read_front : Reading (byteSize []) a.toList front
  stands : Stands a.toList (.placeholder p) piece b.toList
  read_back : Reading (byteSize (a.toList ++ piece)) b.toList back

theorem exists_surrounds {source : String} {front back : List Segment} {p : Placeholder}
    (hlimit : byteSize source.toList ≤ Span.limit)
    (hsegments : segmentsOf source.toList = front ++ .placeholder p :: back) :
    ∃ a piece b, Surrounds source front p back a piece b := by
  have hreading := Grammar.reading_segmentsOf hlimit
  rw [hsegments] at hreading
  obtain ⟨a, rest, hsource, ha, hrest⟩ := hreading.split
  rw [Nat.zero_add] at hrest
  obtain ⟨piece, b, rfl, hp, hb⟩ := hrest.head
  refine ⟨String.ofList a, piece, String.ofList b, ?_, hlimit, hsegments, ?_, ?_, ?_⟩
  · simpa using hsource
  · simpa using ha
  · simpa using hp
  · simpa using hb

namespace Surrounds

variable {source a b : String} {front back : List Segment} {p : Placeholder}
  (h : Surrounds source front p back a piece b)
include h

theorem split_behind : source.toList = (a.toList ++ piece) ++ b.toList := by
  rw [h.split, List.append_assoc]

theorem start_eq : p.span.start = byteSize a.toList := h.stands.start_eq h.split h.limit

theorem stop_eq : p.span.stop = byteSize (a.toList ++ piece) := h.stands.stop_eq h.split h.limit

theorem limit_before : byteSize a.toList ≤ Span.limit := by
  have hlimit := h.limit
  rw [h.split, Text.byteSize_append] at hlimit
  omega

theorem fill_front (resolver : Resolver) (filters : Filters) :
    fill front resolver filters = compile a resolver filters := by
  rw [compile_eq_fill, (Grammar.reading_segmentsOf h.limit_before).unique h.read_front]

theorem fill_back (resolver : Resolver) (filters : Filters) : fill back resolver filters =
    ⟨(compile b resolver filters).output,
      (compile b resolver filters).diagnostics.map (.shift p.span.stop)⟩ := by
  have hback := segments_behind (h.split_behind ▸ h.limit) h.read_back
  rw [compile_eq_fill, ← hback, fill_shift, h.stop_eq]

theorem compile_eq (resolver : Resolver) (filters : Filters) : compile source resolver filters =
    ⟨(fill front resolver filters).output ++ (p.evaluate resolver filters).text ++
        (fill back resolver filters).output,
      (fill front resolver filters).diagnostics ++ (p.evaluate resolver filters).diagnostics ++
        (fill back resolver filters).diagnostics⟩ := by
  rw [compile_eq_fill, h.segments, fill_around]

/-- Spans tell the problems of the placeholder from those of what is around it. -/
theorem filter_diagnostics (resolver : Resolver) (filters : Filters) :
    (compile source resolver filters).diagnostics.filter (fun d => d.span.Inside p.span) =
        (p.evaluate resolver filters).diagnostics ∧
      (compile source resolver filters).diagnostics.filter (fun d => ¬d.span.Inside p.span) =
        (fill front resolver filters).diagnostics ++ (fill back resolver filters).diagnostics := by
  have hfront := h.read_front.reportedWithin resolver filters rfl h.limit_before
  have hown : ReportedWithin _ (p.evaluate resolver filters).diagnostics _ :=
    h.stands.reportedWithin resolver filters h.split h.limit
  have hback := h.read_back.reportedWithin resolver filters h.split_behind h.limit
  have hleft := hfront.filter_eq_nil (.inl h.start_eq.ge)
  have hright := hback.filter_eq_nil (.inr h.stop_eq.le)
  have hmiddle := hown.filter_eq_self h.start_eq h.stop_eq
  rw [h.compile_eq, List.filter_append, List.filter_append, List.filter_append, List.filter_append]
  constructor
  · rw [hleft.1, hmiddle.1, hright.1, List.nil_append, List.append_nil]
  · rw [hleft.2, hmiddle.2, hright.2, List.append_nil]

theorem contained : Contained source p a b where
  before := by
    rw [h.start_eq, h.split]
    exact Text.takeBytes?_append a.toList _
  behind := by
    rw [h.stop_eq, h.split_behind]
    exact Text.dropBytes?_append (a.toList ++ piece) b.toList
  output resolver filters := by rw [h.compile_eq, h.fill_front, h.fill_back]
  diagnostics resolver filters := by rw [h.compile_eq, h.fill_front, h.fill_back]
  own resolver filters := (h.filter_diagnostics resolver filters).1
  others resolver filters := by
    rw [(h.filter_diagnostics resolver filters).2, h.fill_front, h.fill_back]
  verbatim resolver filters := output_eq_content h.limit

theorem agreeAround
    (hothers : ∀ q, .placeholder q ∈ front ++ back → q.evaluate r₁ f₁ = q.evaluate r₂ f₂) :
    AgreeAround source p r₁ r₂ f₁ f₂ := by
  have hfront : fill front r₁ f₁ = fill front r₂ f₂ :=
    fill_congr fun q hq => hothers q (List.mem_append_left _ hq)
  have hback : fill back r₁ f₁ = fill back r₂ f₂ :=
    fill_congr fun q hq => hothers q (List.mem_append_right _ hq)
  constructor
  · refine ⟨(fill front r₁ f₁).output, (fill back r₁ f₁).output, ?_, ?_⟩
    · rw [h.compile_eq]
    · rw [h.compile_eq, hfront, hback]
  · rw [(h.filter_diagnostics r₁ f₁).2, (h.filter_diagnostics r₂ f₂).2, hfront, hback]

end Surrounds

/-- Up to the limit of spans a placeholder has no part in what is written around it. -/
theorem compile_contained {source : String} {front back : List Segment} {p : Placeholder}
    (hlimit : byteSize source.toList ≤ Span.limit)
    (hsegments : segmentsOf source.toList = front ++ .placeholder p :: back)
    (hothers : ∀ q, .placeholder q ∈ front ++ back → q.evaluate r₁ f₁ = q.evaluate r₂ f₂) :
    (∃ a b, Contained source p a b) ∧ AgreeAround source p r₁ r₂ f₁ f₂ := by
  obtain ⟨a, piece, b, h⟩ := exists_surrounds hlimit hsegments
  exact ⟨⟨a, b, h.contained⟩, h.agreeAround hothers⟩

/-- A text with a `$` in it, against an unknown variable in a chain that is unknown too; what is
behind it fails in either run. -/
theorem compile_contained_dollar :
    let source := "é$x|mark(']')$y $z|nope"
    let p : Placeholder := ⟨"x", [], [⟨"mark", [.string "]"], ⟨5, 9⟩⟩], ⟨2, 12⟩⟩
    let back : List Segment := [.placeholder ⟨"y", [], [], ⟨14, 2⟩⟩, .text [' '] ⟨16, 1⟩,
      .placeholder ⟨"z", [], [⟨"nope", [], ⟨20, 4⟩⟩], ⟨17, 7⟩⟩]
    let r₁ := Resolver.ofValue (.ofPairs [("x", .string "$y"), ("y", .string "1")])
    let r₂ := Resolver.ofValue (.ofPairs [("y", .string "1")])
    let f₁ : Filters := Table.ofList [("mark", fun v _ => .ok v)]
    byteSize source.toList ≤ Span.limit ∧
      segmentsOf source.toList = [.text ['é'] ⟨0, 2⟩] ++ .placeholder p :: back ∧
      (∀ q, .placeholder q ∈ [.text ['é'] ⟨0, 2⟩] ++ back → q.evaluate r₁ f₁ = q.evaluate r₂ ∅) ∧
      (p.evaluate r₁ f₁).text = "$y" ∧
      (∃ a b, Contained source p a b) ∧ AgreeAround source p r₁ r₂ f₁ ∅ := by
  intro source p back r₁ r₂ f₁
  have hlimit : byteSize source.toList ≤ Span.limit := by decide
  have hsegments : segmentsOf source.toList = [.text ['é'] ⟨0, 2⟩] ++ .placeholder p :: back := by
    cbv
  have hothers : ∀ q, .placeholder q ∈ [.text ['é'] ⟨0, 2⟩] ++ back →
      q.evaluate r₁ f₁ = q.evaluate r₂ ∅ := by
    intro q hq
    simp [back] at hq
    rcases hq with rfl | rfl
    · cbv
    · cbv
  exact ⟨hlimit, hsegments, hothers, by cbv, compile_contained hlimit hsegments hothers⟩

end StyleTemplate
