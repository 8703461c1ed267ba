import StyleTemplate.Minify

/-! How a stylesheet falls into units, which are its quoted strings and its other characters, and the
gaps between them, which are its blanks and comments. Every text does so in one way and no other
(`exists_lexing`, `Lexing.unique`). -/

namespace StyleTemplate.Minify

open Text (isBlank isQuote)

/-- `comment` stands in front of `rest`: it ends with the first `*/` behind its opening, or with the
text. -/
inductive Comment : List Char → List Char → Prop where
  | closed {body rest : List Char} (inside : ¬['*', '/'] <:+: body ++ ['*']) :
      Comment ('/' :: '*' :: (body ++ ['*', '/'])) rest
  | unclosed {body : List Char} (inside : ¬['*', '/'] <:+: body) : Comment ('/' :: '*' :: body) []

/-- `text` is what belongs to a string behind its opening quote, in front of `rest`: up to the first
quote of the same kind that no backslash escapes, or all there is. -/
inductive Quotation (quote : Char) : List Char → List Char → Prop where
  | close {rest : List Char} : Quotation quote [quote] rest
  | plain {c : Char} {text rest : List Char} (quote_ne : c ≠ quote) (escape : c ≠ '\\') :
      Quotation quote text rest → Quotation quote (c :: text) rest
  | escaped {c : Char} {text rest : List Char} :
      Quotation quote text rest → Quotation quote ('\\' :: c :: text) rest
  | unclosed : Quotation quote [] []
  | dangling : Quotation quote ['\\'] []

/-- `unit` stands in front of `rest`: a string, or one character that begins nothing else. -/
inductive IsUnit : List Char → List Char → Prop where
  | string {quote : Char} {text rest : List Char} (opens : isQuote quote) :
      Quotation quote text rest → IsUnit (quote :: text) rest
  | char {c : Char} {rest : List Char} (quote : ¬isQuote c) (blank : ¬isBlank c)
      (comment : c = '/' → rest.head? ≠ some '*') : IsUnit [c] rest

/-- `gap` stands in front of `rest`: blanks and comments. -/
inductive Gap : List Char → List Char → Prop where
  | nil {rest : List Char} : Gap [] rest
  | blank {c : Char} {gap rest : List Char} (blank : isBlank c) : Gap gap rest → Gap (c :: gap) rest
  | comment {text gap rest : List Char} (comment : Comment text (gap ++ rest)) :
      Gap gap rest → Gap (text ++ gap) rest

/-- A unit with the gap in front of it. -/
structure Placed where
  gap : List Char
  unit : List Char
deriving DecidableEq

def joined (placed : List Placed) : List Char := placed.flatMap fun p => p.gap ++ p.unit

def units (placed : List Placed) : List (List Char) := placed.map (·.unit)

/-- A text as units, each with the gap in front of it, and the gap behind the last one. A gap is as
long as can be, as no unit begins with a blank or a comment. -/
inductive Lexing : List Char → List Placed → List Char → Prop where
  | done {gap : List Char} : Gap gap [] → Lexing gap [] gap
  | unit {gap unit rest trailing : List Char} {placed : List Placed} : Gap gap (unit ++ rest) →
      IsUnit unit rest → Lexing rest placed trailing →
      Lexing (gap ++ (unit ++ rest)) (⟨gap, unit⟩ :: placed) trailing

variable {text rest gap unit : List Char}

/-! ### The readers -/

private theorem afterComment_closed {body : List Char} (h : ¬['*', '/'] <:+: body ++ ['*']) :
    afterComment (body ++ '*' :: '/' :: rest) = rest := by
  induction body with
  | nil => rfl
  | cons c body ih =>
    rw [List.cons_append, List.infix_cons_iff, not_or] at h
    rw [List.cons_append, afterComment, ih h.2]
    rintro cs rfl hcs
    cases body with
    | nil => simp at hcs
    | cons d body =>
      obtain ⟨rfl, -⟩ := List.cons.inj hcs
      exact h.1 (by simp)

private theorem afterComment_unclosed {body : List Char} (h : ¬['*', '/'] <:+: body) :
    afterComment body = [] := by
  induction body with
  | nil => rfl
  | cons c body ih =>
    rw [List.infix_cons_iff, not_or] at h
    rw [afterComment, ih h.2]
    rintro cs rfl rfl
    exact h.1 (by simp)

/-- A comment is read from behind its opening up to what follows it. -/
theorem Comment.reads (h : Comment text rest) :
    ∃ body, text = '/' :: '*' :: body ∧ afterComment (body ++ rest) = rest := by
  cases h with
  | @closed body _ inside =>
    refine ⟨body ++ ['*', '/'], rfl, ?_⟩
    rw [List.append_assoc]
    exact afterComment_closed inside
  | unclosed inside => exact ⟨_, rfl, by rw [List.append_nil, afterComment_unclosed inside]⟩

theorem exists_comment (cs : List Char) :
    ∃ body, cs = body ++ afterComment cs ∧ Comment ('/' :: '*' :: body) (afterComment cs) := by
  fun_induction afterComment cs with
  | case1 cs => exact ⟨['*', '/'], rfl, @Comment.closed [] cs (by decide)⟩
  | case2 c cs hne ih =>
    -- `c` and what follows it do not close the comment
    obtain ⟨body, hcs, hcomment⟩ := ih
    refine ⟨c :: body, by rw [List.cons_append, ← hcs], ?_⟩
    have hclose (tail : List Char) (htail : tail <+: cs) : ¬['*', '/'] <+: c :: tail := by
      rw [List.cons_prefix_cons]
      rintro ⟨rfl, hslash⟩
      obtain ⟨more, hmore⟩ := hslash.trans htail
      exact hne more rfl hmore.symm
    generalize afterComment cs = rest at hcs hcomment
    subst hcs
    cases hcomment with
    | @closed body _ inside =>
      refine @Comment.closed (c :: body) _ ?_
      rw [List.cons_append, List.infix_cons_iff, not_or]
      exact ⟨hclose _ (by simp), inside⟩
    | unclosed inside =>
      refine .unclosed ?_
      rw [List.infix_cons_iff, not_or]
      exact ⟨hclose _ (by simp), inside⟩
  | case3 => exact ⟨[], rfl, .unclosed (by decide)⟩

theorem takeString_of_quotation {quote : Char} (hquote : quote ≠ '\\')
    (h : Quotation quote text rest) : takeString quote (text ++ rest) = (text, rest) := by
  induction h with
  | close => simp [takeString, hquote]
  | plain quote_ne escape _ ih => simp [takeString, quote_ne, escape, ih]
  | escaped _ ih => simp [takeString, ih]
  | unclosed => rfl
  | dangling => simp [takeString, hquote.symm]

theorem quotation_takeString (quote : Char) (cs : List Char) :
    Quotation quote (takeString quote cs).1 (takeString quote cs).2 := by
  fun_induction takeString quote cs with
  | case1 => exact .unclosed
  | case2 c cs body rest hrest ih =>
    rw [hrest] at ih
    exact .escaped ih
  | case3 cs => exact .close
  | case4 c cs hescape hne body rest hrest ih =>
    by_cases hc : c = '\\'
    · subst hc
      cases cs with
      | nil =>
        obtain ⟨rfl, rfl⟩ := Prod.mk.inj hrest
        exact .dangling
      | cons d cs => exact (hescape d cs rfl rfl).elim
    · rw [hrest] at ih
      exact .plain hne hc ih

/-! ### One way to read a text -/

/-- What begins with neither a blank nor a comment. -/
structure Tight (text : List Char) : Prop where
  blank : ∀ c ∈ text.head?, ¬isBlank c
  comment : ¬['/', '*'] <+: text

theorem tight_nil : Tight [] := ⟨by simp, by simp⟩

private theorem not_tight_of_isBlank {c : Char} (hblank : isBlank c) : ¬Tight (c :: rest) :=
  fun h => h.blank c rfl hblank

private theorem Comment.not_tight (h : Comment text rest) : ¬Tight (text ++ rest) := by
  obtain ⟨body, rfl, -⟩ := h.reads
  exact fun ht => ht.comment (by simp)

private theorem not_isBlank_of_isQuote {c : Char} (h : isQuote c) : ¬isBlank c := by
  rw [isQuote, Bool.or_eq_true, beq_iff_eq, beq_iff_eq] at h
  rcases h with rfl | rfl
  · decide
  · decide

theorem ne_of_isQuote {c d : Char} (h : isQuote c) (hd : ¬isQuote d) : c ≠ d :=
  fun hcd => hd (hcd ▸ h)

theorem IsUnit.ne_nil (h : IsUnit unit rest) : unit ≠ [] := by
  cases h with
  | string => exact List.cons_ne_nil _ _
  | char => exact List.cons_ne_nil _ _

theorem IsUnit.tight (h : IsUnit unit rest) : Tight (unit ++ rest) := by
  cases h with
  | @string quote text _ opens =>
    refine ⟨?_, ?_⟩
    · rintro c hc
      obtain rfl := Option.some.inj hc
      exact not_isBlank_of_isQuote opens
    · rw [List.cons_append, List.cons_prefix_cons]
      exact fun h => ne_of_isQuote opens (by decide) h.1.symm
  | @char c _ _ blank comment =>
    refine ⟨?_, ?_⟩
    · rintro d hd
      obtain rfl := Option.some.inj hd
      exact blank
    · rw [List.singleton_append, List.cons_prefix_cons]
      rintro ⟨rfl, cs, rfl⟩
      exact comment rfl rfl

theorem Comment.unique {other after : List Char} (h : Comment text rest) (h' : Comment other after)
    (heq : text ++ rest = other ++ after) : text = other ∧ rest = after := by
  obtain ⟨body, rfl, hrest⟩ := h.reads
  obtain ⟨body', rfl, hafter⟩ := h'.reads
  rw [List.cons_append, List.cons_append, List.cons_append, List.cons_append] at heq
  have htail : body ++ rest = body' ++ after := (List.cons.inj (List.cons.inj heq).2).2
  rw [htail, hafter] at hrest
  subst hrest
  exact ⟨by rw [List.append_cancel_right htail], rfl⟩

theorem IsUnit.unique {other after : List Char} (h : IsUnit unit rest) (h' : IsUnit other after)
    (heq : unit ++ rest = other ++ after) : unit = other ∧ rest = after := by
  cases h with
  | string opens hquotation =>
    cases h' with
    | string _ hquotation' =>
      obtain ⟨rfl, htail⟩ := List.cons.inj heq
      have hescape := ne_of_isQuote (d := '\\') opens (by decide)
      have hread := takeString_of_quotation hescape hquotation
      rw [← List.append_eq] at hread
      rw [htail, List.append_eq, takeString_of_quotation hescape hquotation'] at hread
      obtain ⟨rfl, rfl⟩ := Prod.mk.inj hread
      exact ⟨rfl, rfl⟩
    | char quote => exact (quote ((List.cons.inj heq).1 ▸ opens)).elim
  | char quote =>
    cases h' with
    | string opens => exact (quote ((List.cons.inj heq).1 ▸ opens)).elim
    | char =>
      obtain ⟨rfl, rfl⟩ := List.cons.inj heq
      exact ⟨rfl, rfl⟩

/-- A gap that is there is read, up to where no gap goes on. -/
theorem Gap.unique {other after : List Char} (h : Gap gap rest) (h' : Gap other after)
    (hrest : Tight rest) (hafter : Tight after) (heq : gap ++ rest = other ++ after) :
    gap = other ∧ rest = after := by
  induction h generalizing other with
  | nil =>
    rw [List.nil_append] at heq
    subst heq
    cases h' with
    | nil => exact ⟨rfl, rfl⟩
    | blank blank => exact (not_tight_of_isBlank blank hrest).elim
    | comment comment =>
      rw [List.append_assoc] at hrest
      exact (comment.not_tight hrest).elim
  | blank blank _ ih =>
    cases h' with
    | nil =>
      rw [List.nil_append] at heq
      subst heq
      exact (not_tight_of_isBlank blank hafter).elim
    | blank _ hgap =>
      obtain ⟨rfl, htail⟩ := List.cons.inj heq
      obtain ⟨rfl, rfl⟩ := ih hgap hrest htail
      exact ⟨rfl, rfl⟩
    | comment comment =>
      obtain ⟨body, rfl, -⟩ := comment.reads
      obtain ⟨rfl, -⟩ := List.cons.inj heq
      exact absurd blank (by decide)
  | comment comment _ ih =>
    rw [List.append_assoc] at heq
    cases h' with
    | nil =>
      rw [List.nil_append] at heq
      subst heq
      exact (comment.not_tight hafter).elim
    | blank blank =>
      obtain ⟨body, rfl, -⟩ := comment.reads
      obtain ⟨rfl, -⟩ := List.cons.inj heq
      exact absurd blank (by decide)
    | comment comment' hgap =>
      rw [List.append_assoc] at heq
      obtain ⟨rfl, htail⟩ := comment.unique comment' heq
      obtain ⟨rfl, rfl⟩ := ih hgap hrest htail
      exact ⟨rfl, rfl⟩

namespace Lexing

variable {trailing : List Char} {placed : List Placed}

/-- No character is lost between the units and the gaps. -/
theorem split (h : Lexing text placed trailing) :
    text = joined placed ++ trailing := by
  induction h with
  | done => rfl
  | unit _ _ _ ih =>
    rw [joined, List.flatMap_cons, List.append_assoc, List.append_assoc, ← joined, ← ih]

theorem unique {others : List Placed} {behind : List Char} (h : Lexing text placed trailing)
    (h' : Lexing text others behind) : placed = others ∧ trailing = behind := by
  induction h generalizing others with
  | @done gap hgap =>
    generalize htext : gap = text at h'
    cases h' with
    | done => exact ⟨rfl, rfl⟩
    | unit hgap' hunit =>
      rw [← List.append_nil gap] at htext
      obtain ⟨-, hnil⟩ := hgap.unique hgap' tight_nil hunit.tight htext
      exact (hunit.ne_nil (List.append_eq_nil_iff.mp hnil.symm).1).elim
  | @unit gap unit rest trailing placed hgap hunit _ ih =>
    generalize htext : gap ++ (unit ++ rest) = text at h'
    cases h' with
    | done hgap' =>
      rw [← List.append_nil behind] at htext
      obtain ⟨-, hnil⟩ := hgap.unique hgap' hunit.tight tight_nil htext
      exact (hunit.ne_nil (List.append_eq_nil_iff.mp hnil).1).elim
    | unit hgap' hunit' htail =>
      obtain ⟨rfl, hrest⟩ := hgap.unique hgap' hunit.tight hunit'.tight htext
      obtain ⟨rfl, rfl⟩ := hunit.unique hunit' hrest
      obtain ⟨rfl, rfl⟩ := ih htail
      exact ⟨rfl, rfl⟩

/-- What lengthens every gap at the start of a text belongs to the gap in front of its first unit. -/
theorem prepend (front : List Char) (h : Lexing text placed trailing)
    (hfront : ∀ gap rest, text = gap ++ rest → Gap gap rest → Gap (front ++ gap) rest) :
    ∃ others behind, Lexing (front ++ text) others behind := by
  cases h with
  | done hgap => exact ⟨[], _, .done (hfront _ _ (List.append_nil _).symm hgap)⟩
  | @unit gap unit rest trailing placed hgap hunit htail =>
    refine ⟨⟨front ++ gap, unit⟩ :: placed, trailing, ?_⟩
    rw [← List.append_assoc]
    exact .unit (hfront _ _ rfl hgap) hunit htail

/-- The reading goes the way of `minifyFrom`, whatever that has written. -/
private theorem exists_of_minifyFrom (output : List Char) (pending : Bool) (cs : List Char) :
    ∃ placed trailing, Lexing cs placed trailing := by
  fun_induction minifyFrom output pending cs with
  | case1 => exact ⟨[], [], .done .nil⟩
  | case2 output pending cs ih =>
    obtain ⟨placed, trailing, h⟩ := ih
    obtain ⟨body, hcs, hcomment⟩ := exists_comment cs
    generalize afterComment cs = rest at h hcs hcomment
    subst hcs
    refine h.prepend ('/' :: '*' :: body) fun gap rest hrest hgap => ?_
    exact .comment (hrest ▸ hcomment) hgap
  | case3 output pending c cs hcomment hblank ih =>
    obtain ⟨placed, trailing, h⟩ := ih
    exact h.prepend [c] fun gap rest _ hgap => .blank hblank hgap
  | case4 output pending c cs hcomment hblank ready hquote ih =>
    obtain ⟨placed, trailing, h⟩ := ih
    have hstring : Lexing (c :: ((takeString c cs).1 ++ (takeString c cs).2)) _ trailing :=
      .unit .nil (.string hquote (quotation_takeString c cs)) h
    rw [takeString_append] at hstring
    exact ⟨_, _, hstring⟩
  | case5 output pending c cs hcomment hblank ready hquote ih =>
    obtain ⟨placed, trailing, h⟩ := ih
    have hunit : IsUnit [c] cs := by
      refine .char hquote hblank ?_
      rintro rfl hstar
      obtain ⟨tail, rfl⟩ := List.head?_eq_some_iff.mp hstar
      exact hcomment tail rfl rfl
    have hchar : Lexing ([] ++ ([c] ++ cs)) _ trailing := .unit .nil hunit h
    exact ⟨_, _, hchar⟩

end Lexing

theorem exists_lexing (cs : List Char) : ∃ placed after, Lexing cs placed after :=
  Lexing.exists_of_minifyFrom [] false cs

end StyleTemplate.Minify
