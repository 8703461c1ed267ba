import StyleTemplate.Segment

/-! The grammar of placeholders, as relations between a text, what stands at its start, and the rest
of the text. Names, subscripts and calls are said by what they are made of; a chain of parts is the
longest one that is there. `Reading` puts the relations together to the segments of a source.

The readers are shown to follow the grammar in `Proofs/Grammar/Readers`, the segments of a source in
`Proofs/Grammar/Segments`. -/

namespace StyleTemplate.Grammar

open Text (byteSize)

/-- The characters of names: the letters and digits of ASCII, `_` and `-`. -/
def NameChar (c : Char) : Prop :=
  ('A' ≤ c ∧ c ≤ 'Z') ∨ ('a' ≤ c ∧ c ≤ 'z') ∨ ('0' ≤ c ∧ c ≤ '9') ∨ c = '_' ∨ c = '-'

def Quote (c : Char) : Prop := c = '\'' ∨ c = '"'

def LineBreak (c : Char) : Prop := c = '\n' ∨ c = '\r'

/-- `name` is the longest run of name characters in front of `rest`, and is not empty. -/
structure IsName (name rest : List Char) : Prop where
  nonempty : name ≠ []
  chars : ∀ c ∈ name, NameChar c
  stops : ∀ c ∈ rest.head?, ¬NameChar c

/-- A bare key is not empty; a quoted key does not hold its quote. -/
inductive IsSubscript : SubscriptText → Prop where
  | bare {key : List Char} (nonempty : key ≠ []) (chars : ∀ c ∈ key, isBareKeyChar c) :
      IsSubscript ⟨key, none⟩
  | quoted {key : List Char} {q : Char} (quote : Quote q) (inside : q ∉ key) :
      IsSubscript ⟨key, some q⟩

/-- `text` is a well-formed subscript and `rest`. -/
structure Subscript (text : List Char) (s : SubscriptText) (rest : List Char) : Prop where
  form : IsSubscript s
  split : text = s.written ++ rest

/-- What may stand between the parentheses of a call: one line, in which every quote is closed and
every `)` is in quotes. -/
inductive Inner : List Char → Prop where
  | nil : Inner []
  | plain {c : Char} {cs : List Char} (quote : ¬Quote c) (close : c ≠ ')') (line : ¬LineBreak c) :
      Inner cs → Inner (c :: cs)
  | quoted {q : Char} {body cs : List Char} (quote : Quote q) (inside : q ∉ body)
      (line : ∀ c ∈ body, ¬LineBreak c) : Inner cs → Inner (q :: (body ++ q :: cs))

/-- A call stands before `rest`: its name ends at a parenthesis that is closed, or at something that
is no parenthesis. -/
inductive IsCall : CallText → List Char → Prop where
  | plain {name rest : List Char} (name_ends : IsName name rest) (no_args : '(' ∉ rest.head?) :
      IsCall ⟨name, none⟩ rest
  | applied {name inner rest : List Char} (name_ends : IsName name ['(']) (inner_ends : Inner inner) :
      IsCall ⟨name, some inner⟩ rest

/-- `text` is a well-formed call and `rest`. -/
structure Call (text : List Char) (c : CallText) (rest : List Char) : Prop where
  form : IsCall c rest
  split : text = c.written ++ rest

section Chains

variable {α : Type} (part : List Char → α → List Char → Prop)

/-- `text` is some parts, one right behind the other, and `rest`. -/
inductive Chain : List Char → List α → List Char → Prop where
  | nil {text : List Char} : Chain text [] text
  | cons {text mid rest : List Char} {x : α} {xs : List α} :
      part text x mid → Chain mid xs rest → Chain text (x :: xs) rest

/-- A chain of parts such that none at the start of `text` has more of them. -/
structure Longest (text : List Char) (xs : List α) (rest : List Char) : Prop where
  chain : Chain part text xs rest
  longest : ∀ ys other, Chain part text ys other → ys.length ≤ xs.length

variable {part}

/-- The start of a text tells which part stands there and where it ends. -/
def Functional (part : List Char → α → List Char → Prop) : Prop :=
  ∀ ⦃text x y rest other⦄, part text x rest → part text y other → x = y ∧ rest = other

theorem Chain.snoc {text mid rest : List Char} {xs : List α} {x : α}
    (h : Chain part text xs mid) (hx : part mid x rest) : Chain part text (xs ++ [x]) rest := by
  induction h with
  | nil => exact .cons hx .nil
  | cons hy _ ih => exact .cons hy (ih hx)

/-- A chain loses nothing if its parts lose nothing. -/
theorem Chain.split {text rest : List Char} {xs : List α} {written : α → List Char}
    (hpart : ∀ ⦃text x rest⦄, part text x rest → text = written x ++ rest)
    (h : Chain part text xs rest) : text = xs.flatMap written ++ rest := by
  induction h with
  | nil => rfl
  | cons hx _ ih => rw [hpart hx, ih, List.flatMap_cons, List.append_assoc]

namespace Longest

/-- No part follows a longest chain. -/
theorem stops {text rest : List Char} {xs : List α} (h : Longest part text xs rest) (x : α)
    (other : List Char) : ¬part rest x other := by
  intro hx
  have := h.longest _ _ (h.chain.snoc hx)
  rw [List.length_append] at this
  exact Nat.not_succ_le_self _ this

/-- A chain that no part follows is the longest one. -/
theorem of_stops {text rest : List Char} {xs : List α} (hpart : Functional part)
    (h : Chain part text xs rest) (hs : ∀ x other, ¬part rest x other) :
    Longest part text xs rest := by
  refine ⟨h, fun ys other hys => ?_⟩
  induction h generalizing ys with
  | nil =>
    cases hys with
    | nil => exact Nat.le_refl _
    | cons hy _ => exact (hs _ _ hy).elim
  | cons hx _ ih =>
    cases hys with
    | nil => exact Nat.zero_le _
    | cons hy htail =>
      obtain ⟨rfl, rfl⟩ := hpart hx hy
      exact Nat.succ_le_succ (ih hs _ htail)

theorem unique {text rest other : List Char} {xs ys : List α} (hpart : Functional part)
    (hx : Longest part text xs rest) (hy : Longest part text ys other) :
    xs = ys ∧ rest = other := by
  have hs := hx.stops
  have ht := hy.stops
  obtain ⟨hx, -⟩ := hx
  obtain ⟨hy, -⟩ := hy
  induction hx generalizing ys with
  | nil =>
    cases hy with
    | nil => exact ⟨rfl, rfl⟩
    | cons hy _ => exact (hs _ _ hy).elim
  | cons hx _ ih =>
    cases hy with
    | nil => exact (ht _ _ hx).elim
    | cons hy htail =>
      obtain ⟨rfl, rfl⟩ := hpart hx hy
      obtain ⟨rfl, rfl⟩ := ih hs htail
      exact ⟨rfl, rfl⟩

end Longest
end Chains

/-- `text` is a placeholder and `rest`: a `$`, the longest name, the longest chain of subscripts and
the longest chain of calls. -/
inductive Begins : List Char → PlaceholderText → List Char → Prop where
  | intro {name afterName afterPath rest : List Char} {subscripts : List SubscriptText}
      {calls : List CallText} (name_ends : IsName name afterName)
      (path_ends : Longest Subscript afterName subscripts afterPath)
      (chain_ends : Longest Call afterPath calls rest) :
      Begins ('$' :: (name ++ afterName)) ⟨name, subscripts, calls⟩ rest

/-- A `$` with a name character right behind it. -/
def Sigil (text : List Char) : Prop := ∃ c rest, text = '$' :: c :: rest ∧ NameChar c

/-- No `$` of `cs` has a name character right behind it, be it in `cs` or in `rest`. -/
def NoSigil (cs rest : List Char) : Prop :=
  ∀ before after, cs ++ rest = before ++ after → before.length < cs.length → ¬Sigil after

/-- How a text that begins at byte `start` falls into segments. Plain text is not empty and runs up
to the next placeholder or to the end. -/
inductive Reading : Nat → List Char → List Segment → Prop where
  | nil {start : Nat} : Reading start [] []
  | text {start : Nat} {cs rest : List Char} {segments : List Segment} (nonempty : cs ≠ [])
      (plain : NoSigil cs rest) (stops : rest = [] ∨ Sigil rest) :
      Reading (start + byteSize cs) rest segments →
      Reading start (cs ++ rest)
        (.text cs (Span.ofBounds start (start + byteSize cs)) :: segments)
  | placeholder {start : Nat} {text rest : List Char} {p : PlaceholderText}
      {segments : List Segment} (begins : Begins text p rest) :
      Reading (start + byteSize p.written) rest segments →
      Reading start text (.placeholder (p.locate start) :: segments)

end StyleTemplate.Grammar
