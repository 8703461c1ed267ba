/-! Text with quoted stretches. A stretch opens at `'` or `"` and closes at the next quote of the
same kind; there are no escapes. Delimiters count only outside such stretches. -/

namespace StyleTemplate.Text

/-- Whether `c` opens a quoted stretch. -/
def isQuote (c : Char) : Bool := c == '"' || c == '\''

/-- What a reader of quoted text has to remember of the characters before it. -/
inductive Quoting where
  | outside
  | inside (quote : Char)
deriving DecidableEq, Repr

namespace Quoting

/-- The state after one more character. -/
def step : Quoting → Char → Quoting
  | outside, c => if isQuote c then inside c else outside
  | inside q, c => if c = q then outside else inside q

/-- The state after a whole text. -/
def run (q : Quoting) (cs : List Char) : Quoting := cs.foldl step q

/-- Whether `c` is read as a delimiter equal to `target`. -/
def delimits (q : Quoting) (target c : Char) : Bool :=
  q = outside && c = target && !isQuote c

@[simp] theorem run_nil (q : Quoting) : q.run [] = q := rfl

@[simp] theorem run_cons (q : Quoting) (c : Char) (cs : List Char) :
    q.run (c :: cs) = (q.step c).run cs := rfl

theorem run_append (q : Quoting) (as bs : List Char) : q.run (as ++ bs) = (q.run as).run bs :=
  List.foldl_append

end Quoting

/-- Cuts a text at its first unquoted `target`: what stands before it and what stands after it. -/
def cutUnquoted? (target : Char) (q : Quoting) : List Char → Option (List Char × List Char)
  | [] => none
  | c :: cs =>
    if q.delimits target c then some ([], cs)
    else (cutUnquoted? target (q.step c) cs).map fun (before, after) => (c :: before, after)

/-- The pieces of a text between its unquoted separators, in order. -/
def splitUnquoted (separator : Char) (q : Quoting) : List Char → List (List Char)
  | [] => [[]]
  | c :: cs =>
    if q.delimits separator c then [] :: splitUnquoted separator .outside cs
    else (splitUnquoted separator (q.step c) cs).modifyHead (c :: ·)

/-- A cut loses the delimiter and nothing else. -/
theorem eq_of_cutUnquoted? {target : Char} {q : Quoting} {cs before after : List Char}
    (h : cutUnquoted? target q cs = some (before, after)) : cs = before ++ target :: after := by
  induction cs generalizing q before with
  | nil => simp [cutUnquoted?] at h
  | cons c cs ih =>
    unfold cutUnquoted? at h
    split at h
    · rename_i hd
      simp [Quoting.delimits] at hd
      grind
    · simp only [Option.map_eq_some_iff, Prod.mk.injEq, Prod.exists] at h
      obtain ⟨b, a, hc, rfl, rfl⟩ := h
      rw [ih hc, List.cons_append]

end StyleTemplate.Text
