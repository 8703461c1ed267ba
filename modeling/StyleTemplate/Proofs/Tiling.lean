import Mathlib.Data.List.Chain
import StyleTemplate.Proofs.Grammar.Segments

/-! The segments of a source cover it: every byte lies in one segment, in order, and inside a
placeholder the calls lie one behind the other up to its end (`tiling_segmentsOf`). -/

namespace StyleTemplate

open Text (byteSize slice?)
open Grammar (Begins Chain Call le_limit)

/-- Spans one right behind the other from byte `start` to byte `stop`, none of them empty. -/
inductive Tiles : Nat → List Span → Nat → Prop where
  | nil {start : Nat} : Tiles start [] start
  | cons {start stop : Nat} {span : Span} {spans : List Span} (begins : span.start = start)
      (nonempty : start < span.stop) : Tiles span.stop spans stop → Tiles start (span :: spans) stop

namespace Tiles

variable {start stop : Nat} {spans : List Span}

theorem start_le (h : Tiles start spans stop) : ∀ span ∈ spans, start ≤ span.start := by
  induction h with
  | nil => simp
  | cons begins nonempty _ ih =>
    refine List.forall_mem_cons.mpr ⟨begins.ge, fun span hspan => ?_⟩
    exact Nat.le_trans nonempty.le (ih span hspan)

/-- No two of the spans overlap. -/
theorem apart (h : Tiles start spans stop) : spans.Pairwise fun a b => a.stop ≤ b.start := by
  induction h with
  | nil => exact .nil
  | cons _ _ htail ih => exact List.pairwise_cons.mpr ⟨htail.start_le, ih⟩

end Tiles

/-- The calls of a placeholder lie in it one behind the other, each with a `|` before it, and the
last one ends where the placeholder ends. -/
structure CallsTile (source : List Char) (p : Placeholder) : Prop where
  inside : ∀ call ∈ p.filters, p.span.start < call.span.start ∧ call.span.stop ≤ p.span.stop
  bar : ∀ call ∈ p.filters, slice? (call.span.start - 1) call.span.start source = some ['|']
  name : ∀ call ∈ p.filters, ∃ args, call.span.text? source = some (call.name.toList ++ args)
  increasing : p.filters.Pairwise fun a b => a.span.stop < b.span.start
  adjacent : p.filters.IsChain fun a b => b.span.start = a.span.stop + 1
  last : ∀ call ∈ p.filters.getLast?, call.span.stop = p.span.stop

/-- `segments` cover `source`: their spans from its first byte to its last, their texts all of it. -/
structure Tiling (source : List Char) (segments : List Segment) : Prop where
  covers : Tiles 0 (segments.map Segment.span) (byteSize source)
  boundaries : ∀ s ∈ segments, (s.span.text? source).isSome
  text : ∀ cs span, Segment.text cs span ∈ segments → span.text? source = some cs
  alternate : segments.IsChain fun s t => s.placeholder? = none → t.placeholder?.isSome
  joined : segments.flatMap (fun s => (s.span.text? source).getD []) = source
  calls : ∀ p, Segment.placeholder p ∈ segments → CallsTile source p

/-! ### The calls of a chain -/

/-- Calls one behind the other, the `|` of the first at byte `start`, the last one up to `stop`. -/
inductive CallsFrom (source : List Char) : Nat → List FilterCall → Nat → Prop where
  | nil {start : Nat} : CallsFrom source start [] start
  | cons {start stop : Nat} {call : FilterCall} {calls : List FilterCall}
      (begins : call.span.start = start + 1) (nonempty : start + 1 < call.span.stop)
      (bar : slice? start (start + 1) source = some ['|'])
      (name : ∃ args, call.span.text? source = some (call.name.toList ++ args)) :
      CallsFrom source call.span.stop calls stop → CallsFrom source start (call :: calls) stop

namespace CallsFrom

variable {source : List Char} {start stop : Nat} {calls : List FilterCall}

theorem start_le (h : CallsFrom source start calls stop) : start ≤ stop := by
  induction h with
  | nil => exact Nat.le_refl _
  | cons _ nonempty _ _ _ ih => omega

theorem inside (h : CallsFrom source start calls stop) :
    ∀ call ∈ calls, start < call.span.start ∧ call.span.stop ≤ stop := by
  induction h with
  | nil => simp
  | cons begins nonempty _ _ htail ih =>
    intro call hcall
    rcases List.mem_cons.mp hcall with rfl | hcall
    · exact ⟨by omega, htail.start_le⟩
    · obtain ⟨hstart, hstop⟩ := ih call hcall
      exact ⟨by omega, hstop⟩

theorem nonempty (h : CallsFrom source start calls stop) :
    ∀ call ∈ calls, call.span.start < call.span.stop := by
  induction h with
  | nil => simp
  | cons begins nonempty _ _ _ ih => exact List.forall_mem_cons.mpr ⟨by omega, ih⟩

theorem bar (h : CallsFrom source start calls stop) :
    ∀ call ∈ calls, slice? (call.span.start - 1) call.span.start source = some ['|'] := by
  induction h with
  | nil => simp
  | cons begins _ bar _ _ ih =>
    refine List.forall_mem_cons.mpr ⟨?_, ih⟩
    rw [begins, Nat.add_sub_cancel]
    exact bar

theorem name (h : CallsFrom source start calls stop) :
    ∀ call ∈ calls, ∃ args, call.span.text? source = some (call.name.toList ++ args) := by
  induction h with
  | nil => simp
  | cons _ _ _ name _ ih => exact List.forall_mem_cons.mpr ⟨name, ih⟩

theorem increasing (h : CallsFrom source start calls stop) :
    calls.Pairwise fun a b => a.span.stop < b.span.start := by
  induction h with
  | nil => exact .nil
  | cons _ _ _ _ htail ih =>
    exact List.pairwise_cons.mpr ⟨fun call hcall => (htail.inside call hcall).1, ih⟩

theorem adjacent (h : CallsFrom source start calls stop) :
    calls.IsChain fun a b => b.span.start = a.span.stop + 1 := by
  induction h with
  | nil => exact .nil
  | cons _ _ _ _ htail ih =>
    cases htail with
    | nil => exact .singleton _
    | cons begins => exact .cons_cons begins ih

theorem last (h : CallsFrom source start calls stop) :
    ∀ call ∈ calls.getLast?, call.span.stop = stop := by
  induction h with
  | nil => simp
  | cons _ _ _ _ htail ih =>
    cases htail with
    | nil => simp
    | cons => simpa [List.getLast?_cons_cons] using ih

end CallsFrom

/-- A placeholder covers some bytes of a source, and its calls follow each other up to its end. -/
structure Placeholder.PlacedIn (p : Placeholder) (source : List Char) : Prop where
  nonempty : p.span.start < p.span.stop
  text : (p.span.text? source).isSome
  calls : ∃ start, p.span.start < start ∧ CallsFrom source start p.filters p.span.stop

namespace Placeholder.PlacedIn

variable {p : Placeholder} {source : List Char} (h : p.PlacedIn source)
include h

theorem call {call : FilterCall} (hcall : call ∈ p.filters) :
    p.span.start < call.span.start ∧ call.span.start < call.span.stop ∧
      call.span.stop ≤ p.span.stop ∧ (call.span.text? source).isSome := by
  obtain ⟨start, hstart, hcalls⟩ := h.calls
  have hinside := hcalls.inside call hcall
  have hnonempty := hcalls.nonempty call hcall
  obtain ⟨args, hname⟩ := hcalls.name call hcall
  exact ⟨by omega, hnonempty, hinside.2, by rw [hname]; rfl⟩

/-- Later calls begin later. -/
theorem increasing : (p.filters.map (·.span)).Pairwise fun s t => s.start ≤ t.start := by
  obtain ⟨start, -, hcalls⟩ := h.calls
  refine List.pairwise_map.mpr (hcalls.increasing.imp_of_mem fun {a b} ha _ hab => ?_)
  have := hcalls.nonempty a ha
  omega

end Placeholder.PlacedIn

private theorem name_nonempty {c : CallText} {rest : List Char} (h : Grammar.IsCall c rest) :
    c.name ≠ [] := by
  cases h with
  | plain name_ends _ => exact name_ends.nonempty
  | applied name_ends _ => exact name_ends.nonempty

/-- A call that stands behind `before` is where `locate` puts it. -/
private theorem locate_call {source before text rest : List Char} {c : CallText}
    {calls : List FilterCall} {stop : Nat} (hsource : source = before ++ text)
    (hlimit : byteSize source ≤ Span.limit) (h : Call text c rest)
    (htail : CallsFrom source (byteSize before + byteSize c.written) calls stop) :
    CallsFrom source (byteSize before) (c.locate (byteSize before) :: calls) stop := by
  obtain ⟨args, hwritten⟩ : ∃ args, c.written = '|' :: (c.name ++ args) := ⟨_, rfl⟩
  have hname := Text.byteSize_pos (name_nonempty h.form)
  have hsize : byteSize c.written = 1 + byteSize (c.name ++ args) := by
    rw [hwritten, Text.byteSize_cons]
    rfl
  rw [h.split] at hsource
  have hlimit := le_limit hsource hlimit
  have hle : byteSize before + 1 ≤ byteSize before + byteSize c.written := by omega
  have hstart : (c.locate (byteSize before)).span.start = byteSize before + 1 :=
    Span.start_ofBounds hle hlimit
  have hstop : (c.locate (byteSize before)).span.stop = byteSize before + byteSize c.written :=
    Span.stop_ofBounds hle hlimit
  refine .cons hstart ?_ ?_ ⟨args, ?_⟩ (hstop ▸ htail)
  · rw [hstop, hsize, Text.byteSize_append]
    omega
  · have := Text.slice?_append before ['|'] (c.name ++ args ++ rest)
    rw [hsource, hwritten]
    exact this
  · have := Span.text?_ofBounds (before ++ ['|']) (c.name ++ args) rest (by
      rw [Text.byteSize_append]
      simp only [Text.byteSize_append] at hsize ⊢
      have : byteSize ['|'] = 1 := rfl
      omega)
    have hbar : '|'.utf8Size = 1 := rfl
    rw [hsource, hwritten]
    simpa [CallText.locate, hsize, hbar, Nat.add_assoc] using this

theorem callsFrom_locateAll {source before text rest : List Char} {calls : List CallText}
    (hsource : source = before ++ text) (hlimit : byteSize source ≤ Span.limit)
    (h : Chain Call text calls rest) :
    CallsFrom source (byteSize before) (CallText.locateAll (byteSize before) calls)
      (byteSize before + byteSize (calls.flatMap CallText.written)) := by
  induction h generalizing before with
  | nil => exact .nil
  | @cons text mid rest c calls hcall _ ih =>
    have hmid : source = (before ++ c.written) ++ mid := by
      rw [hsource, hcall.split, List.append_assoc]
    have hsize : byteSize before + byteSize ((c :: calls).flatMap CallText.written) =
        byteSize (before ++ c.written) + byteSize (calls.flatMap CallText.written) := by
      simp [Nat.add_assoc]
    rw [hsize]
    refine locate_call hsource hlimit hcall ?_
    rw [← Text.byteSize_append]
    exact ih hmid

/-- The calls of a placeholder that stands behind `before` follow its path. -/
theorem callsFrom_locate {source before text rest : List Char} {p : PlaceholderText}
    (hsource : source = before ++ text) (hlimit : byteSize source ≤ Span.limit)
    (h : Begins text p rest) :
    CallsFrom source (byteSize before + 1 + byteSize p.writtenPath)
      (p.locate (byteSize before)).filters (byteSize before + byteSize p.written) := by
  obtain ⟨afterPath, htext, hcalls⟩ := h.calls
  rw [htext, ← List.append_assoc] at hsource
  have hfrom := callsFrom_locateAll hsource hlimit hcalls.chain
  have hstart : byteSize (before ++ '$' :: p.writtenPath) =
      byteSize before + 1 + byteSize p.writtenPath := by
    rw [Text.byteSize_append, Text.byteSize_cons, ← Nat.add_assoc]
    rfl
  have hend : byteSize before + byteSize p.written =
      byteSize (before ++ '$' :: p.writtenPath) + byteSize (p.calls.flatMap CallText.written) := by
    simp [PlaceholderText.written, Nat.add_assoc]
  rwa [← hend, hstart] at hfrom

theorem callsTile_locate {source before text rest : List Char} {p : PlaceholderText}
    (hsource : source = before ++ text) (hlimit : byteSize source ≤ Span.limit)
    (h : Begins text p rest) : CallsTile source (p.locate (byteSize before)) := by
  have hpiece := le_limit (h.split ▸ hsource) hlimit
  have hfrom := callsFrom_locate hsource hlimit h
  have hspanStart : (p.locate (byteSize before)).span.start = byteSize before :=
    Span.start_ofBounds (Nat.le_add_right _ _) hpiece
  have hspanStop : (p.locate (byteSize before)).span.stop = byteSize before + byteSize p.written :=
    Span.stop_ofBounds (Nat.le_add_right _ _) hpiece
  rw [← hspanStop] at hfrom
  refine ⟨fun call hcall => ?_, hfrom.bar, hfrom.name, hfrom.increasing, hfrom.adjacent, hfrom.last⟩
  obtain ⟨hlt, hle⟩ := hfrom.inside call hcall
  exact ⟨by omega, hle⟩

/-! ### The segments of a reading -/

namespace Grammar.Stands

variable {source before piece rest : List Char} {p : Placeholder}

theorem placedIn (h : Stands before (.placeholder p) piece rest)
    (hsource : source = before ++ (piece ++ rest)) (hlimit : byteSize source ≤ Span.limit) :
    p.PlacedIn source := by
  have hstart := h.start_eq hsource hlimit
  have hstop := h.stop_eq hsource hlimit
  have htext := h.text?_eq hsource hlimit
  have hpos := Text.byteSize_pos h.nonempty
  simp only [Segment.span, Text.byteSize_append] at hstart hstop htext
  cases h with
  | placeholder begins =>
    have hcalls := callsFrom_locate hsource hlimit begins
    refine ⟨by omega, by rw [htext]; rfl, _, ?_, hstop ▸ hcalls⟩
    omega

end Grammar.Stands

namespace Grammar.Reading

variable {source before text : List Char} {segments : List Segment}

theorem tiles (hsource : source = before ++ text) (hlimit : byteSize source ≤ Span.limit)
    (h : Reading (byteSize before) text segments) :
    Tiles (byteSize before) (segments.map Segment.span) (byteSize source) := by
  induction segments generalizing before text with
  | nil =>
    rw [hsource, h.eq_nil, List.append_nil]
    exact .nil
  | cons s segments ih =>
    obtain ⟨piece, rest, rfl, hstands, htail⟩ := h.head
    have hstop := hstands.stop_eq hsource hlimit
    refine .cons (hstands.start_eq hsource hlimit) ?_ ?_
    · have := Text.byteSize_pos hstands.nonempty
      rw [hstop, Text.byteSize_append]
      omega
    · rw [hstop]
      exact ih (by rw [hsource, List.append_assoc]) htail

theorem joined (hsource : source = before ++ text) (hlimit : byteSize source ≤ Span.limit)
    (h : Reading (byteSize before) text segments) :
    segments.flatMap (fun s => (s.span.text? source).getD []) = text := by
  induction segments generalizing before text with
  | nil => exact h.eq_nil.symm
  | cons s segments ih =>
    obtain ⟨piece, rest, rfl, hstands, htail⟩ := h.head
    rw [List.flatMap_cons, hstands.text?_eq hsource hlimit, Option.getD_some,
      ih (by rw [hsource, List.append_assoc]) htail]

/-- Behind plain text there is a placeholder or nothing. -/
theorem alternate {start : Nat} (h : Reading start text segments) :
    segments.IsChain fun s t => s.placeholder? = none → t.placeholder?.isSome := by
  induction h with
  | nil => exact .nil
  | text _ _ stops htail ih =>
    have hrest := htail
    cases htail with
    | nil => exact .singleton _
    | text => exact (hrest.not_stops stops).elim
    | placeholder => exact .cons_cons (fun _ => rfl) ih
  | placeholder _ htail ih =>
    cases htail with
    | nil => exact .singleton _
    | text => exact .cons_cons (fun h => nomatch h) ih
    | placeholder => exact .cons_cons (fun h => nomatch h) ih

end Grammar.Reading

section Placeholders

variable {source : List Char} {p : Placeholder}

theorem placedIn_of_mem (hlimit : byteSize source ≤ Span.limit) (h : p ∈ placeholdersOf source) :
    p.PlacedIn source := by
  obtain ⟨s, hs, hplaceholder⟩ := List.mem_filterMap.mp h
  have hnothing : source = [] ++ source := rfl
  obtain ⟨before, piece, rest, hsource, hstands⟩ :=
    (Grammar.reading_segmentsOf hlimit).stands hnothing s hs
  cases s with
  | text => exact nomatch hplaceholder
  | placeholder q =>
    obtain rfl := Option.some.inj hplaceholder
    exact hstands.placedIn hsource hlimit

/-- The placeholders of a source come in order and do not overlap. -/
theorem pairwise_placeholdersOf (hlimit : byteSize source ≤ Span.limit) :
    (placeholdersOf source).Pairwise fun p q => p.span.stop ≤ q.span.start := by
  have hnothing : source = [] ++ source := rfl
  have htiles := (Grammar.reading_segmentsOf hlimit).tiles hnothing hlimit
  refine List.Pairwise.filterMap Segment.placeholder? ?_ (List.pairwise_map.mp htiles.apart)
  rintro (_ | p) (_ | q) h _ ⟨⟩ _ ⟨⟩
  exact h

end Placeholders

/-- Up to the limit of spans the segments of a source cover it. -/
theorem tiling_segmentsOf {source : List Char} (h : byteSize source ≤ Span.limit) :
    Tiling source (segmentsOf source) := by
  have hreading := Grammar.reading_segmentsOf h
  have hsource : source = [] ++ source := rfl
  have hstands := hreading.stands hsource
  refine ⟨hreading.tiles hsource h, fun s hs => ?_, fun cs span hs => ?_,
    hreading.alternate, hreading.joined hsource h, fun p hs => ?_⟩
  · obtain ⟨before, piece, rest, hsource, hs⟩ := hstands s hs
    rw [hs.text?_eq hsource h]
    rfl
  · obtain ⟨before, piece, rest, hsource, hs⟩ := hstands _ hs
    have := hs.text?_eq hsource h
    cases hs with
    | text _ => exact this
  · obtain ⟨before, piece, rest, hsource, hs⟩ := hstands _ hs
    cases hs with
    | placeholder begins => exact callsTile_locate hsource h begins

/-- Text beyond ASCII, a quoted key, a call without and one with arguments, and one left open. -/
theorem tiling_segmentsOf_multibyte :
    byteSize "é$a[\"→\"]|up|f('|')|g('x) →".toList ≤ Span.limit ∧
      Tiling "é$a[\"→\"]|up|f('|')|g('x) →".toList
        (segmentsOf "é$a[\"→\"]|up|f('|')|g('x) →".toList) :=
  ⟨by decide, tiling_segmentsOf (by decide)⟩

end StyleTemplate
