import StyleTemplate.Proofs.Cutting
import StyleTemplate.Proofs.Literals
import StyleTemplate.Proofs.Quoting
import StyleTemplate.Proofs.Scanning

/-! Placeholders that are written out: keys in any quotes that they allow, arguments with spaces and
tabs around them. What is written is what a scan finds, up to its last character, and two ways to
write a placeholder are filled in alike (`scan_written`). Past the limit of spans they need not be
(`quotes_tell_at_limit`). -/

namespace StyleTemplate

open Text (byteSize isBlank isQuote trim Sealed)
open Grammar (NameChar LineBreak IsSubscript Subscript Inner IsCall Call Chain Begins Reading)

/-! ### Ways to write a placeholder -/

/-- A literal with spaces and tabs around it. -/
structure ArgumentSpelling where
  before : List Char
  literal : Literal
  after : List Char
  gaps : ∀ c ∈ before ++ after, c = ' ' ∨ c = '\t'
  spellable : literal.Spellable

def ArgumentSpelling.written (a : ArgumentSpelling) : List Char :=
  a.before ++ a.literal.spelled ++ a.after

/-- A filter call, its arguments in parentheses. A call without arguments may do without these. -/
structure CallSpelling where
  name : List Char
  args : Option (List ArgumentSpelling)
  nonempty : name ≠ []
  chars : ∀ c ∈ name, NameChar c

namespace CallSpelling

def literals (c : CallSpelling) : List Literal := (c.args.getD []).map (·.literal)

def writtenArgs (args : List ArgumentSpelling) : List Char :=
  [','].intercalate (args.map ArgumentSpelling.written)

def text (c : CallSpelling) : CallText := ⟨c.name, c.args.map writtenArgs⟩

end CallSpelling

/-- A variable with its subscripts and its filter calls. -/
structure PlaceholderSpelling where
  name : List Char
  subscripts : List SubscriptText
  calls : List CallSpelling
  nonempty : name ≠ []
  chars : ∀ c ∈ name, NameChar c
  admissible : ∀ s ∈ subscripts, IsSubscript s

/-- What a placeholder says, apart from where and in which spelling it says so. -/
structure PlaceholderContent where
  name : String
  subscripts : List String
  calls : List (String × List Literal)
deriving DecidableEq

def Placeholder.content (p : Placeholder) : PlaceholderContent :=
  ⟨p.name, p.subscripts, p.filters.map fun call => (call.name, call.args)⟩

namespace PlaceholderSpelling

def text (p : PlaceholderSpelling) : PlaceholderText :=
  ⟨p.name, p.subscripts, p.calls.map CallSpelling.text⟩

def written (p : PlaceholderSpelling) : List Char := p.text.written

def content (p : PlaceholderSpelling) : PlaceholderContent :=
  ⟨String.ofList p.name, p.subscripts.map fun s => String.ofList s.key,
    p.calls.map fun call => (String.ofList call.name, call.literals)⟩

end PlaceholderSpelling

/-- `rest` does not go on with a placeholder that stands before it. -/
def Grammar.Ends (rest : List Char) : Prop :=
  ∀ c ∈ rest.head?, ¬NameChar c ∧ c ≠ '[' ∧ c ≠ '(' ∧ c ≠ '|'

/-! ### Arguments -/

theorem Literal.sealed_spelled {l : Literal} (h : l.Spellable) {target : Char}
    (hname : ¬isNameChar target) : Sealed target l.spelled := by
  by_cases hstring : ∃ s, l = .string s
  · obtain ⟨s, rfl⟩ := hstring
    cases h with
    | string quote _ => exact .quoted (by decide) quote
  · refine .of_plain fun c hc => ?_
    have hc := isNameChar_of_mem_spelled h (fun s hs => hstring ⟨s, hs⟩) c hc
    refine ⟨fun hcomma => hname (hcomma ▸ hc), fun hquote => ?_⟩
    rcases Grammar.isQuote_iff.mp hquote with rfl | rfl
    · exact absurd hc (by decide)
    · exact absurd hc (by decide)

theorem Literal.one_line {l : Literal} (h : l.Spellable) : ∀ c ∈ l.spelled, ¬LineBreak c := by
  by_cases hstring : ∃ s, l = .string s
  · obtain ⟨s, rfl⟩ := hstring
    cases h with
    | string _ line =>
      have hquote : ¬LineBreak '\'' := by simp [LineBreak]
      simpa [spelled, hquote, or_imp, forall_and] using line
  · intro c hc
    have hc := isNameChar_of_mem_spelled h (fun s hs => hstring ⟨s, hs⟩) c hc
    rintro (rfl | rfl)
    · exact absurd hc (by decide)
    · exact absurd hc (by decide)

namespace ArgumentSpelling

variable (a : ArgumentSpelling)

theorem trim_written : trim a.written = a.literal.spelled := by
  have hblank : ∀ c ∈ a.before ++ a.after, isBlank c := fun c hc => by
    rcases a.gaps c hc with rfl | rfl
    · rfl
    · rfl
  exact Literal.trim_spelled a.spellable (fun c hc => hblank c (List.mem_append_left _ hc))
    (fun c hc => hblank c (List.mem_append_right _ hc))

theorem sealed_written {target : Char} (hname : ¬isNameChar target) (hblank : ¬isBlank target) :
    Sealed target a.written := by
  have hgap : ∀ c ∈ a.before ++ a.after, c ≠ target ∧ ¬isQuote c := fun c hc => by
    rcases a.gaps c hc with rfl | rfl
    · exact ⟨fun h => hblank (h ▸ rfl), by decide⟩
    · exact ⟨fun h => hblank (h ▸ rfl), by decide⟩
  have hbefore : Sealed target a.before :=
    .of_plain fun c hc => hgap c (List.mem_append_left _ hc)
  have hafter : Sealed target a.after :=
    .of_plain fun c hc => hgap c (List.mem_append_right _ hc)
  exact (hbefore.append (Literal.sealed_spelled a.spellable hname)).append hafter

theorem one_line : ∀ c ∈ a.written, ¬LineBreak c := by
  have hgap : ∀ c ∈ a.before ++ a.after, ¬LineBreak c := fun c hc => by
    rcases a.gaps c hc with rfl | rfl
    · simp [LineBreak]
    · simp [LineBreak]
  intro c hc
  rcases List.mem_append.mp hc with hc | hc
  · rcases List.mem_append.mp hc with hc | hc
    · exact hgap c (List.mem_append_left _ hc)
    · exact Literal.one_line a.spellable c hc
  · exact hgap c (List.mem_append_right _ hc)

end ArgumentSpelling

private theorem forall_mem_intercalate {p : Char → Prop} {separator : Char}
    {pieces : List (List Char)} (hs : p separator) (h : ∀ piece ∈ pieces, ∀ c ∈ piece, p c) :
    ∀ c ∈ [separator].intercalate pieces, p c := by
  induction pieces with
  | nil => simp
  | cons piece pieces ih =>
    obtain ⟨hpiece, htail⟩ := List.forall_mem_cons.mp h
    cases pieces with
    | nil => simpa using hpiece
    | cons next pieces =>
      rw [List.intercalate_cons_cons]
      intro c hc
      rcases List.mem_append.mp hc with hc | hc
      · rcases List.mem_append.mp hc with hc | hc
        · exact hpiece c hc
        · exact List.mem_singleton.mp hc ▸ hs
      · exact ih htail c hc

namespace CallSpelling

variable (args : List ArgumentSpelling)

private theorem forall_written {p : List Char → Prop} (h : ∀ a : ArgumentSpelling, p a.written) :
    ∀ piece ∈ args.map ArgumentSpelling.written, p piece := by
  intro piece hpiece
  obtain ⟨a, -, rfl⟩ := List.mem_map.mp hpiece
  exact h a

/-- No `)` between the parentheses closes them. -/
theorem inner_written : Inner (writtenArgs args) := by
  have hsealed : Sealed ')' (writtenArgs args) :=
    .intercalate (by decide) (by decide)
      (forall_written args fun a => a.sealed_written (by decide) (by decide))
  refine (Grammar.inner_iff []).mpr ⟨?_, ?_⟩
  · exact forall_mem_intercalate (by simp [LineBreak]) (forall_written args fun a => a.one_line)
  · exact Text.cutUnquoted?_append (by decide) hsealed.hides hsealed.closed []

/-- The commas between written arguments are those at which they are taken apart. -/
theorem splitUnquoted_written (hne : args ≠ []) :
    Text.splitUnquoted ',' .outside (writtenArgs args) = args.map ArgumentSpelling.written := by
  have hsealed : ∀ piece ∈ args.map ArgumentSpelling.written, Sealed ',' piece :=
    forall_written args fun a => a.sealed_written (by decide) (by decide)
  refine Text.splitUnquoted_intercalate (by decide) (by simpa using hne)
    (fun piece hpiece => (hsealed piece hpiece).hides) (fun piece hpiece => ?_)
  exact (hsealed piece ((List.dropLast_subset _) hpiece)).closed

private theorem trim_writtenArgs_ne_nil (hne : args ≠ []) : trim (writtenArgs args) ≠ [] := by
  -- the first argument is not blank, and all of it is there
  obtain ⟨a, args, rfl⟩ := List.exists_cons_of_ne_nil hne
  intro hnil
  have hblank := Text.trim_eq_nil_iff.mp hnil
  have hwritten : trim a.written = [] := Text.trim_eq_nil_iff.mpr fun c hc => hblank c <| by
    cases args with
    | nil => simpa [writtenArgs] using hc
    | cons b args => simp [writtenArgs, List.intercalate_cons_cons, hc]
  rw [a.trim_written] at hwritten
  exact Literal.spelled_ne_nil a.spellable hwritten

theorem argumentsOf_written : CallText.argumentsOf (writtenArgs args) = args.map (·.literal) := by
  by_cases hne : args = []
  · subst hne
    rfl
  · rw [CallText.argumentsOf, if_neg (trim_writtenArgs_ne_nil args hne),
      splitUnquoted_written args hne, List.map_map]
    refine List.map_congr_left fun a _ => ?_
    rw [Function.comp_apply, a.trim_written, Literal.ofText_spelled a.spellable]

/-- What a written call means, wherever it stands. -/
theorem locate_text (c : CallSpelling) (start : Nat) :
    (c.text.locate start).name = String.ofList c.name ∧ (c.text.locate start).args = c.literals := by
  refine ⟨rfl, ?_⟩
  obtain ⟨name, args, -, -⟩ := c
  cases args with
  | none => rfl
  | some args => exact argumentsOf_written args

end CallSpelling

/-! ### Placeholders -/

namespace Grammar

variable {rest : List Char}

theorem Ends.not_call (h : Ends rest) (c : CallText) (other : List Char) : ¬Call rest c other := by
  rintro ⟨-, rfl⟩
  exact (h '|' rfl).2.2.2 rfl

/-- What can stand behind a name, a subscript or a call: more of the placeholder, or its end. -/
private theorem head?_calls (calls : List CallSpelling) :
    ∀ c ∈ ((calls.map CallSpelling.text).flatMap CallText.written ++ rest).head?,
      c = '|' ∨ c ∈ rest.head? := by
  cases calls with
  | nil => exact fun c hc => .inr hc
  | cons call calls => exact fun c hc => .inl (Option.some.inj hc).symm

private theorem head?_subscripts (subscripts : List SubscriptText) :
    ∀ c ∈ (subscripts.flatMap SubscriptText.written ++ rest).head?, c = '[' ∨ c ∈ rest.head? := by
  cases subscripts with
  | nil => exact fun c hc => .inr hc
  | cons s subscripts => exact fun c hc => .inl (Option.some.inj hc).symm

private theorem isCall_text (c : CallSpelling)
    (hrest : ∀ d ∈ rest.head?, ¬NameChar d ∧ d ≠ '(') : IsCall c.text rest := by
  obtain ⟨name, args, nonempty, chars⟩ := c
  cases args with
  | none =>
    exact .plain ⟨nonempty, chars, fun d hd => (hrest d hd).1⟩ fun h => (hrest _ h).2 rfl
  | some args =>
    exact .applied ⟨nonempty, chars, by simp [NameChar]⟩ (CallSpelling.inner_written args)

private theorem chain_calls (h : Ends rest) (calls : List CallSpelling) :
    Chain Call ((calls.map CallSpelling.text).flatMap CallText.written ++ rest)
      (calls.map CallSpelling.text) rest := by
  induction calls with
  | nil => exact .nil
  | cons c calls ih =>
    refine .cons ⟨isCall_text c fun d hd => ?_, by simp⟩ ih
    rcases head?_calls calls d hd with rfl | hd
    · simp [NameChar]
    · exact ⟨(h d hd).1, (h d hd).2.2.1⟩

private theorem chain_subscripts {subscripts : List SubscriptText}
    (h : ∀ s ∈ subscripts, IsSubscript s) :
    Chain Subscript (subscripts.flatMap SubscriptText.written ++ rest) subscripts rest := by
  induction subscripts with
  | nil => exact .nil
  | cons s subscripts ih =>
    obtain ⟨hs, htail⟩ := List.forall_mem_cons.mp h
    exact .cons ⟨hs, by simp⟩ (ih htail)

end Grammar

/-- What a placeholder says does not depend on where it stands. -/
theorem PlaceholderText.content_locate (p : PlaceholderText) (start : Nat) :
    (p.locate start).content =
      ⟨String.ofList p.name, p.subscripts.map fun s => String.ofList s.key,
        p.calls.map fun c => (String.ofList c.name, (c.inner.map CallText.argumentsOf).getD [])⟩ := by
  have hcalls (start : Nat) (calls : List CallText) :
      (CallText.locateAll start calls).map (fun call => (call.name, call.args)) =
        calls.map fun c => (String.ofList c.name, (c.inner.map CallText.argumentsOf).getD []) := by
    induction calls generalizing start with
    | nil => rfl
    | cons c calls ih =>
      rw [CallText.locateAll, List.map_cons, List.map_cons, ih]
      rfl
  simp only [Placeholder.content, locate, hcalls]

namespace PlaceholderSpelling

variable (p : PlaceholderSpelling) {rest : List Char}

/-- The longest placeholder that begins with a written one is this one. -/
theorem begins (h : Grammar.Ends rest) : Begins (p.written ++ rest) p.text rest := by
  have hsplit : p.written ++ rest = '$' :: (p.name ++ (p.subscripts.flatMap SubscriptText.written ++
      ((p.calls.map CallSpelling.text).flatMap CallText.written ++ rest))) := by
    simp [written, text, PlaceholderText.written, PlaceholderText.writtenPath]
  rw [hsplit]
  refine .intro ⟨p.nonempty, p.chars, fun c hc => ?_⟩
    (.of_stops Grammar.subscript_functional (Grammar.chain_subscripts p.admissible) ?_)
    (.of_stops Grammar.call_functional (Grammar.chain_calls h p.calls) h.not_call)
  · rcases Grammar.head?_subscripts p.subscripts c hc with rfl | hc
    · simp [NameChar]
    · rcases Grammar.head?_calls p.calls c hc with rfl | hc
      · simp [NameChar]
      · exact (h c hc).1
  · rintro s other ⟨-, hs⟩
    have hhead := congrArg List.head? hs
    rcases Grammar.head?_calls p.calls '[' (by rw [hhead]; rfl) with hc | hc
    · exact absurd hc (by decide)
    · exact (h _ hc).2.1 rfl

theorem content_locate (start : Nat) : (p.text.locate start).content = p.content := by
  rw [PlaceholderText.content_locate, text, content, List.map_map]
  congr 1
  exact List.map_congr_left fun call _ => Prod.ext rfl (call.locate_text start).2

theorem findPlaceholder?_written (h : Grammar.Ends rest) :
    findPlaceholder? (p.written ++ rest) = some ([], p.text, rest) :=
  Grammar.findPlaceholder?_append (Grammar.noSigil_nil _) (p.begins h)

theorem head?_segmentsOf_written (h : Grammar.Ends rest) :
    (segmentsOf (p.written ++ rest)).head? = some (.placeholder (p.text.locate 0)) := by
  obtain ⟨fuel, hfuel⟩ : ∃ fuel, (p.written ++ rest).length = fuel + 1 := ⟨_, rfl⟩
  have hne : p.written ++ rest ≠ [] := by
    intro hnil
    rw [hnil] at hfuel
    exact nomatch hfuel
  rw [segmentsOf, hfuel, Cursor.segments, Cursor.next?, if_neg hne, p.findPlaceholder?_written h]
  rfl

/-- The segments of a source that begins with a written placeholder: this one, and what is read of the
rest from there on. -/
theorem segmentsOf_written (h : Grammar.Ends rest) (hbounded : Bounded 0 (p.written ++ rest)) :
    ∃ more, segmentsOf (p.written ++ rest) = .placeholder (p.text.locate 0) :: more ∧
      Reading (byteSize p.written) rest more := by
  have hreading := (reading_segmentsOf_of_bounded hbounded).of_begins (p.begins h)
  rwa [Nat.zero_add] at hreading

end PlaceholderSpelling

/-! ### What a written placeholder compiles to -/

variable {resolver : Resolver} {filters : Filters}

/-- What a chain makes of a value does not depend on where the calls stand. -/
theorem FilterCall.value_applyAll_congr {calls others : List FilterCall}
    (h : calls.map (fun c => (c.name, c.args)) = others.map fun c => (c.name, c.args)) (v : Value) :
    (FilterCall.applyAll filters v calls).value = (FilterCall.applyAll filters v others).value := by
  induction calls generalizing others v with
  | nil =>
    rw [List.map_nil] at h
    rw [List.map_eq_nil_iff.mp h.symm]
  | cons c calls ih =>
    cases others with
    | nil => exact nomatch h
    | cons d others =>
      simp only [List.map_cons, List.cons.injEq, Prod.mk.injEq] at h
      obtain ⟨⟨hname, hargs⟩, htail⟩ := h
      have hfirst : (c.apply filters v).value = (d.apply filters v).value := by
        unfold FilterCall.apply
        rw [hname, hargs]
        split
        · rfl
        · split <;> rfl
      simp only [FilterCall.applyAll]
      rw [hfirst, ih htail]

theorem Placeholder.text_evaluate_congr {p q : Placeholder} (h : p.content = q.content) :
    (p.evaluate resolver filters).text = (q.evaluate resolver filters).text := by
  simp only [Placeholder.content, PlaceholderContent.mk.injEq] at h
  obtain ⟨hname, hsubscripts, hcalls⟩ := h
  have hinitial : p.initial resolver = q.initial resolver := by
    simp only [Placeholder.initial, hname, hsubscripts]
  have hchain : (p.chain resolver filters).value = (q.chain resolver filters).value := by
    rw [Placeholder.chain, Placeholder.chain, hinitial, FilterCall.value_applyAll_congr hcalls]
  rw [Placeholder.evaluate_eq, Placeholder.evaluate_eq, hchain]

/-- A placeholder is filled in with the same text wherever it stands. -/
theorem PlaceholderText.text_evaluate_locate (p : PlaceholderText) (start other : Nat) :
    ((p.locate start).evaluate resolver filters).text =
      ((p.locate other).evaluate resolver filters).text :=
  Placeholder.text_evaluate_congr (by rw [p.content_locate, p.content_locate])

/-- What takes the place of a text when its segments are filled in. -/
def Segment.texts (resolver : Resolver) (filters : Filters) (segments : List Segment) :
    List String :=
  segments.map fun s => (s.evaluate resolver filters).text

@[simp] theorem Segment.texts_cons (s : Segment) (segments : List Segment) :
    texts resolver filters (s :: segments) =
      (s.evaluate resolver filters).text :: texts resolver filters segments := rfl

/-- Every segment of a source is filled in, in its place. -/
theorem compile_eq (source : List Char) :
    compile (String.ofList source) resolver filters =
      ⟨String.join (Segment.texts resolver filters (segmentsOf source)),
        (segmentsOf source).flatMap fun s => (s.evaluate resolver filters).diagnostics⟩ := by
  rw [compile, String.toList_ofList, List.flatMap_map, Segment.texts, List.map_map]
  rfl

/-- Plain text takes its own place, and there is nothing to report about it. -/
theorem Segment.evaluate_plain (resolver : Resolver) (filters : Filters) (start : Nat)
    (cs : List Char) :
    String.join (texts resolver filters (plain start cs)) = String.ofList cs ∧
      ((plain start cs).flatMap fun s => (s.evaluate resolver filters).diagnostics) = [] := by
  rw [plain]
  split
  · rename_i hcs
    rw [hcs]
    exact ⟨rfl, rfl⟩
  · exact ⟨by simp [texts, evaluate], rfl⟩

/-- What takes the place of a text does not depend on where the text stands. -/
theorem Grammar.Reading.texts_eq {start other : Nat} {text : List Char}
    {segments others : List Segment} (h : Reading start text segments)
    (h' : Reading other text others) :
    Segment.texts resolver filters segments = Segment.texts resolver filters others := by
  obtain ⟨moved, hmoved, htexts⟩ : ∃ moved, Reading other text moved ∧
      Segment.texts resolver filters segments = Segment.texts resolver filters moved := by
    clear h' others
    induction h generalizing other with
    | nil => exact ⟨[], .nil, rfl⟩
    | text nonempty plain stops _ ih =>
      obtain ⟨moved, hmoved, htexts⟩ := ih
      exact ⟨_, .text nonempty plain stops hmoved, congrArg (List.cons _) htexts⟩
    | @placeholder start _ _ p _ begins _ ih =>
      obtain ⟨moved, hmoved, htexts⟩ := ih
      refine ⟨_, .placeholder begins hmoved, ?_⟩
      rw [Segment.texts_cons, Segment.texts_cons, htexts]
      exact congrArg (· :: _) (p.text_evaluate_locate start other)
  rw [htexts, hmoved.unique h']

namespace PlaceholderSpelling

variable (p : PlaceholderSpelling) {rest : List Char}

/-- As long as no placeholder runs past the limit, a source that begins with a written placeholder is
filled in with the text of that placeholder and with what takes the place of the rest. -/
theorem output_compile_written (h : Grammar.Ends rest) (hbounded : Bounded 0 (p.written ++ rest)) :
    ∃ more, Reading (byteSize p.written) rest more ∧
      (compile (String.ofList (p.written ++ rest)) resolver filters).output =
        ((p.text.locate 0).evaluate resolver filters).text ++
          String.join (Segment.texts resolver filters more) := by
  obtain ⟨more, hsegments, hmore⟩ := p.segmentsOf_written h hbounded
  refine ⟨more, hmore, ?_⟩
  rw [compile_eq, hsegments, Segment.texts_cons, String.join_cons]
  rfl

/-- In front of `rest` a scan first finds `q`, which says what `p` says and takes up what is written
of `p`. Its span covers exactly that text, unless the text is too long for a span. -/
structure ReadsAs (rest : List Char) (q : Placeholder) : Prop where
  first : (segmentsOf (p.written ++ rest)).head? = some (.placeholder q)
  content : q.content = p.content
  stops : findPlaceholder? (p.written ++ rest) = some ([], p.text, rest)
  span : q.span = Span.ofBounds 0 (byteSize p.written)
  covers : q.span.text? (p.written ++ rest) = some p.written ↔ byteSize p.written ≤ Span.limit

theorem readsAs_locate (h : Grammar.Ends rest) : p.ReadsAs rest (p.text.locate 0) := by
  have hspan : (p.text.locate 0).span = Span.ofBounds 0 (byteSize p.written) := by
    change Span.ofBounds 0 (0 + byteSize p.written) = _
    rw [Nat.zero_add]
  refine ⟨p.head?_segmentsOf_written h, p.content_locate 0, p.findPlaceholder?_written h, hspan, ?_⟩
  rw [hspan]
  exact Span.text?_ofBounds_zero_iff

end PlaceholderSpelling

/-- A written placeholder is what a scan finds first. Whatever spelling says the same is filled in with
the same text, and so is a source that begins with it, unless a placeholder runs past the limit of spans:
then a scan goes on where the clamped span stops. -/
theorem scan_written (p : PlaceholderSpelling) {rest : List Char} (h : Grammar.Ends rest) :
    ∃ q, p.ReadsAs rest q ∧ ∀ other : PlaceholderSpelling, other.content = p.content →
      (∃ q', other.ReadsAs rest q' ∧ ∀ resolver filters,
        (q'.evaluate resolver filters).text = (q.evaluate resolver filters).text) ∧
      (Bounded 0 (p.written ++ rest) → Bounded 0 (other.written ++ rest) →
        ∀ resolver filters,
          (compile (String.ofList (other.written ++ rest)) resolver filters).output =
            (compile (String.ofList (p.written ++ rest)) resolver filters).output) := by
  refine ⟨p.text.locate 0, p.readsAs_locate h, fun other hcontent => ?_⟩
  have htext (resolver : Resolver) (filters : Filters) :
      ((other.text.locate 0).evaluate resolver filters).text =
        ((p.text.locate 0).evaluate resolver filters).text :=
    Placeholder.text_evaluate_congr (by rw [other.content_locate, hcontent, p.content_locate])
  refine ⟨⟨other.text.locate 0, other.readsAs_locate h, htext⟩,
    fun hbounded hbounded' resolver filters => ?_⟩
  obtain ⟨more, hmore, houtput⟩ := p.output_compile_written h hbounded
  obtain ⟨more', hmore', houtput'⟩ := other.output_compile_written h hbounded'
  rw [houtput, houtput', htext, hmore.texts_eq hmore']

private def plainSpelling : PlaceholderSpelling where
  name := ['x']
  subscripts := [⟨['k'], none⟩, ⟨['é', ']', '\''], some '"'⟩]
  calls :=
    [⟨['f'], some
        [⟨[' '], .string ",)\"$|é", ['\t'], by simp, .string (by decide) (by simp [LineBreak])⟩,
          ⟨[], .integer (-5), [], by simp, .integer _⟩, ⟨[], .boolean true, [' '], by simp, .boolean _⟩],
        by decide, by simp [NameChar]⟩,
      ⟨['g'], none, by decide, by simp [NameChar]⟩, ⟨['h'], some [], by decide, by simp [NameChar]⟩]
  nonempty := by decide
  chars := by simp [NameChar]
  admissible := by
    simp only [List.forall_mem_cons]
    have hbare : ∀ c ∈ ['k'], isBareKeyChar c := List.forall_mem_singleton.mpr (by decide)
    exact ⟨.bare (by decide) hbare, .quoted (.inr rfl) (by decide), by simp⟩

private def quotedSpelling : PlaceholderSpelling where
  name := ['x']
  subscripts := [⟨['k'], some '\''⟩, ⟨['é', ']', '\''], some '"'⟩]
  calls := plainSpelling.calls
  nonempty := by decide
  chars := by simp [NameChar]
  admissible := by
    simp only [List.forall_mem_cons]
    exact ⟨.quoted (.inl rfl) (by decide), .quoted (.inr rfl) (by decide), by simp⟩

/-- A key without and with quotes, in front of a bracket that comes one character too late. -/
theorem scan_written_quoted_key :
    Grammar.Ends [' ', '['] ∧ quotedSpelling.content = plainSpelling.content ∧
      Bounded 0 (plainSpelling.written ++ [' ', '[']) ∧
      Bounded 0 (quotedSpelling.written ++ [' ', '[']) ∧
      ∃ q, plainSpelling.ReadsAs [' ', '['] q ∧ ∀ resolver filters,
        (compile (String.ofList (quotedSpelling.written ++ [' ', '['])) resolver filters).output =
          (compile (String.ofList (plainSpelling.written ++ [' ', '['])) resolver filters).output := by
  have hends : Grammar.Ends [' ', '['] := by simp [Grammar.Ends, NameChar]
  have hplain : Bounded 0 (plainSpelling.written ++ [' ', '[']) :=
    bounded_of_le_limit (by decide +kernel)
  have hquoted : Bounded 0 (quotedSpelling.written ++ [' ', '[']) :=
    bounded_of_le_limit (by decide +kernel)
  obtain ⟨q, hq, hother⟩ := scan_written plainSpelling hends
  exact ⟨hends, rfl, hplain, hquoted, q, hq, (hother quotedSpelling rfl).2 hplain hquoted⟩

/-! ### Past the limit -/

/-- What a source compiles to that is one written placeholder, in ASCII and with no `$` but the first.
What is behind the limit of spans is read once more, as plain text. -/
theorem PlaceholderSpelling.compile_written (p : PlaceholderSpelling)
    (hascii : ∀ c ∈ p.written, c.toNat < 0x80) (hsigil : ∀ c ∈ p.written.tail, c ≠ '$')
    (resolver : Resolver) (filters : Filters) :
    compile (String.ofList p.written) resolver filters =
      ⟨((p.text.locate 0).evaluate resolver filters).text ++
          String.ofList (p.written.drop Span.limit),
        ((p.text.locate 0).evaluate resolver filters).diagnostics⟩ := by
  have hends : Grammar.Ends [] := fun c hc => nomatch hc
  have hlength := Text.byteSize_eq_length hascii
  have hsegments : segmentsOf p.written =
      .placeholder (p.text.locate 0) :: Segment.plain Span.limit (p.written.drop Span.limit) := by
    by_cases hlimit : byteSize p.written ≤ Span.limit
    · have hbounded : Bounded 0 (p.written ++ []) :=
        bounded_of_le_limit (by rwa [Nat.zero_add, List.append_nil])
      obtain ⟨more, hsegments, hmore⟩ := p.segmentsOf_written hends hbounded
      rw [List.append_nil] at hsegments
      rw [hsegments, hmore.unique .nil, List.drop_eq_nil_of_le (hlength ▸ hlimit)]
      rfl
    · rw [Nat.not_le] at hlimit
      have hbegins := p.begins hends
      rw [List.append_nil] at hbegins
      have hfront : byteSize (p.written.take Span.limit) = Span.limit := by
        rw [Text.byteSize_eq_length fun c hc => hascii c (List.mem_of_mem_take hc),
          List.length_take_of_le (hlength ▸ Nat.le_of_lt hlimit)]
      refine segmentsOf_past_limit hbegins hlimit (List.take_append_drop _ _).symm hfront ?_
      -- the `$` is the first character, and is not behind the limit
      refine Grammar.noSigil_of_forall_ne (fun c hc => hsigil c ?_) []
      rw [← List.drop_one]
      exact List.drop_subset_drop_left _ (by decide) hc
  obtain ⟨htext, hnothing⟩ :=
    Segment.evaluate_plain resolver filters Span.limit (p.written.drop Span.limit)
  rw [compile_eq, hsegments, Segment.texts_cons, String.join_cons, htext, List.flatMap_cons,
    hnothing, List.append_nil]
  rfl

/-- The letters of a name that has room, below the limit, for a `$` and a key of one letter with one
quote. -/
private def longName : List Char := .replicate (Span.limit - 5) 'a'

private theorem length_longName : longName.length + 5 = Span.limit := by
  rw [longName, List.length_replicate]
  exact Nat.sub_add_cancel (by decide)

private theorem eq_of_mem_longName {c : Char} (h : c ∈ longName) : c = 'a' :=
  List.eq_of_mem_replicate h

/-- A variable with this name and one key. -/
private def longSpelling (quote : Option Char) (h : IsSubscript ⟨['k'], quote⟩) :
    PlaceholderSpelling where
  name := longName
  subscripts := [⟨['k'], quote⟩]
  calls := []
  nonempty := by
    intro hnil
    have hlength := length_longName
    rw [hnil] at hlength
    exact absurd hlength (by decide)
  chars := fun c hc => by
    rw [eq_of_mem_longName hc]
    simp [NameChar]
  admissible := List.forall_mem_singleton.mpr h

private def bareLong : PlaceholderSpelling :=
  longSpelling none (.bare (by decide) (List.forall_mem_singleton.mpr (by decide)))

private def quotedLong : PlaceholderSpelling :=
  longSpelling (some '\'') (.quoted (.inl rfl) (by decide))

private theorem written_longSpelling {quote : Option Char} (h : IsSubscript ⟨['k'], quote⟩) :
    (longSpelling quote h).written =
      '$' :: (longName ++ SubscriptText.written ⟨['k'], quote⟩) := by
  simp [longSpelling, PlaceholderSpelling.written, PlaceholderSpelling.text,
    PlaceholderText.written, PlaceholderText.writtenPath]

/-- All of it is ASCII, and only the first character is a `$`, if that is so of the key. -/
private theorem ascii_longSpelling {quote : Option Char} (h : IsSubscript ⟨['k'], quote⟩)
    (hkey : ∀ c ∈ SubscriptText.written ⟨['k'], quote⟩, c.toNat < 0x80 ∧ c ≠ '$') :
    (∀ c ∈ (longSpelling quote h).written, c.toNat < 0x80) ∧
      ∀ c ∈ (longSpelling quote h).written.tail, c ≠ '$' := by
  have htail : ∀ c ∈ longName ++ SubscriptText.written ⟨['k'], quote⟩,
      c.toNat < 0x80 ∧ c ≠ '$' := by
    intro c hc
    rcases List.mem_append.mp hc with hc | hc
    · rw [eq_of_mem_longName hc]
      decide
    · exact hkey c hc
  rw [written_longSpelling h]
  refine ⟨List.forall_mem_cons.mpr ⟨by decide, fun c hc => ?_⟩, fun c hc => ?_⟩
  · exact (htail c hc).1
  · exact (htail c hc).2

/-- What stands behind the limit, with any name of that length. -/
private theorem drop_keyed {name : List Char} (hname : name.length + 5 = Span.limit) :
    ('$' :: (name ++ SubscriptText.written ⟨['k'], none⟩)).drop Span.limit = [] ∧
      ('$' :: (name ++ SubscriptText.written ⟨['k'], some '\''⟩)).drop Span.limit = [']'] := by
  constructor
  · refine List.drop_eq_nil_of_le ?_
    simp only [List.length_cons, List.length_append, SubscriptText.written, Option.toList_none,
      List.nil_append, List.append_nil, List.length_nil]
    omega
  · have hsplit : '$' :: (name ++ SubscriptText.written ⟨['k'], some '\''⟩) =
        ('$' :: (name ++ ['[', '\'', 'k', '\''])) ++ [']'] := by
      simp [SubscriptText.written]
    rw [hsplit]
    refine List.drop_left' ?_
    rw [← hname, List.length_cons, List.length_append]
    rfl

private theorem drop_bareLong : bareLong.written.drop Span.limit = [] := by
  rw [bareLong, written_longSpelling]
  exact (drop_keyed length_longName).1

private theorem drop_quotedLong : quotedLong.written.drop Span.limit = [']'] := by
  rw [quotedLong, written_longSpelling]
  exact (drop_keyed length_longName).2

private theorem ascii_bareLong :
    (∀ c ∈ bareLong.written, c.toNat < 0x80) ∧ ∀ c ∈ bareLong.written.tail, c ≠ '$' :=
  ascii_longSpelling _ (by simp [SubscriptText.written])

private theorem ascii_quotedLong :
    (∀ c ∈ quotedLong.written, c.toNat < 0x80) ∧ ∀ c ∈ quotedLong.written.tail, c ≠ '$' :=
  ascii_longSpelling _ (by simp [SubscriptText.written])

/-- With quotes around its key a placeholder takes one byte more than spans can hold. Its span does not
cover it, and its last character is read again as text. -/
theorem quotes_tell_at_limit :
    quotedLong.content = bareLong.content ∧ Grammar.Ends [] ∧
      (∀ q, (segmentsOf quotedLong.written).head? = some (.placeholder q) →
        q.span.text? quotedLong.written ≠ some quotedLong.written) ∧
      ∀ resolver filters,
        (compile (String.ofList quotedLong.written) resolver filters).output =
          (compile (String.ofList bareLong.written) resolver filters).output ++ "]" := by
  have hends : Grammar.Ends [] := fun c hc => nomatch hc
  obtain ⟨hascii, hsigil⟩ := ascii_bareLong
  obtain ⟨hascii', hsigil'⟩ := ascii_quotedLong
  refine ⟨rfl, hends, fun q hq hcovers => ?_, fun resolver filters => ?_⟩
  · obtain ⟨hfirst, -, -, -, hexact⟩ := quotedLong.readsAs_locate hends
    rw [List.append_nil] at hfirst hexact
    rw [hq] at hfirst
    obtain rfl := Segment.placeholder.inj (Option.some.inj hfirst)
    -- a text that spans can hold has nothing behind the limit
    have hlimit := hexact.mp hcovers
    rw [Text.byteSize_eq_length hascii'] at hlimit
    have hnothing := drop_quotedLong
    rw [List.drop_eq_nil_of_le hlimit] at hnothing
    exact nomatch hnothing
  · have htext : ((quotedLong.text.locate 0).evaluate resolver filters).text =
        ((bareLong.text.locate 0).evaluate resolver filters).text :=
      Placeholder.text_evaluate_congr (by
        rw [PlaceholderSpelling.content_locate, PlaceholderSpelling.content_locate]
        rfl)
    rw [bareLong.compile_written hascii hsigil, quotedLong.compile_written hascii' hsigil',
      drop_bareLong, drop_quotedLong, htext]
    simp

end StyleTemplate
