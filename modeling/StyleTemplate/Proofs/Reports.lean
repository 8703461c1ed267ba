import Mathlib.Data.List.TakeWhile
import StyleTemplate.Report

/-! What a printed report shows: its severity, code and message, then where the problem begins, counted in
lines and characters, then an excerpt of the source with the label, and last the notes
(`Report.displays_text`). -/

namespace StyleTemplate

open Text (byteSize takeBytes?)

/-! ### Lines and columns -/

/-- The number of the line that goes on behind a text. -/
def lineOf (before : List Char) : Nat := before.count '\n' + 1

/-- The number, in its line, of the character that follows a text. -/
def columnOf (before : List Char) : Nat := (before.reverse.takeWhile (· ≠ '\n')).length + 1

namespace SourceLine

variable {number start position : Nat} {reversed front rest : List Char} {l : SourceLine}

/-- Whether a line, with its line break, holds a byte. -/
def holds (position : Nat) (l : SourceLine) : Bool := l.start ≤ position && position < l.stop

/-- How many characters come before a byte of a line; one more if the byte is inside a line break. -/
def characters (l : SourceLine) (position : Nat) : Nat :=
  (l.before position).length + (if l.textStop < position then 1 else 0)

theorem characters_of_split (htext : l.text = front ++ rest)
    (hposition : position = l.start + byteSize front) : l.characters position = front.length := by
  have hsize : byteSize l.text = byteSize front + byteSize rest := by
    rw [htext, Text.byteSize_append]
  have hbefore : l.before position = front := by
    rw [before, hposition, Nat.add_sub_cancel_left, Nat.min_eq_left (by omega), htext,
      Text.takeBytes?_append, Option.getD_some]
  have hinside : ¬l.textStop < position := by
    simp only [textStop]
    omega
  rw [characters, hbefore, if_neg hinside, Nat.add_zero]

theorem characters_of_lt (hposition : l.textStop < position) :
    l.characters position = l.text.length + 1 := by
  have hsize : byteSize l.text ≤ position - l.start := by
    simp only [textStop] at hposition
    omega
  have hall := Text.takeBytes?_append l.text []
  rw [List.append_nil] at hall
  rw [characters, before, Nat.min_eq_right hsize, hall, Option.getD_some, if_pos hposition]

/-- A line that is closed before byte `position`, the byte of its line feed: what was read of it are the
characters before that byte. -/
theorem closed_spec (number start : Nat) (reversed : List Char) :
    (closed number start reversed).number = number ∧ (closed number start reversed).start = start ∧
      (closed number start reversed).stop = start + byteSize reversed + 1 ∧
      (closed number start reversed).characters (start + byteSize reversed) = reversed.length := by
  cases reversed with
  | nil => exact ⟨rfl, rfl, rfl, characters_of_split (List.append_nil _).symm rfl⟩
  | cons c cs =>
    by_cases hreturn : c = '\r'
    · subst hreturn
      have hsize : '\r'.utf8Size = 1 := rfl
      refine ⟨rfl, rfl, ?_, ?_⟩
      · simp only [closed, stop, textStop, Text.byteSize_reverse, Text.byteSize_cons, hsize]
        omega
      · have hbehind : (closed number start ('\r' :: cs)).textStop < start + byteSize ('\r' :: cs) := by
          simp only [closed, textStop, Text.byteSize_reverse, Text.byteSize_cons, hsize]
          omega
        rw [characters_of_lt hbehind]
        simp [closed]
    · have hclosed : closed number start (c :: cs) = ⟨number, start, (c :: cs).reverse, 1⟩ := by
        unfold closed
        split
        · rename_i heq
          exact (hreturn (List.cons.inj heq).1).elim
        · rfl
      rw [hclosed]
      refine ⟨rfl, rfl, ?_, ?_⟩
      · simp only [stop, textStop, Text.byteSize_reverse]
      · rw [← @List.length_reverse _ (c :: cs)]
        refine characters_of_split (List.append_nil _).symm ?_
        rw [Text.byteSize_reverse]

/-- The line that is being read goes on: it holds all that was read of it so far. -/
theorem linesFrom_eq_cons (number start : Nat) (c : Char) (reversed cs : List Char) :
    ∃ l lines, linesFrom number start (c :: reversed) cs = l :: lines ∧ l.number = number ∧
      l.start = start ∧ start + byteSize (c :: reversed) ≤ l.stop ∧
      ∃ rest, l.text = reversed.reverse ++ rest := by
  induction cs generalizing c reversed with
  | nil =>
    refine ⟨⟨number, start, (c :: reversed).reverse, 0⟩, [], rfl, rfl, rfl, ?_, [c], List.reverse_cons⟩
    simp only [stop, textStop, Text.byteSize_reverse]
    omega
  | cons d cs ih =>
    by_cases hbreak : d = '\n'
    · obtain ⟨hnumber, hstart, hstop, -⟩ := closed_spec number start (c :: reversed)
      refine ⟨_, _, by rw [linesFrom, if_pos hbreak], hnumber, hstart, by omega, ?_⟩
      unfold closed
      split
      · rename_i heq
        obtain ⟨-, rfl⟩ := List.cons.inj heq
        exact ⟨[], (List.append_nil _).symm⟩
      · exact ⟨[c], List.reverse_cons⟩
    · obtain ⟨l, lines, hlines, hnumber, hstart, hstop, rest, htext⟩ := ih d (c :: reversed)
      refine ⟨l, lines, by rw [linesFrom, if_neg hbreak, hlines], hnumber, hstart, ?_, c :: rest, ?_⟩
      · rw [Text.byteSize_cons] at hstop
        omega
      · rw [htext, List.reverse_cons, List.append_assoc]
        rfl

private theorem takeWhile_append_break (as bs : List Char) :
    (as ++ '\n' :: bs).takeWhile (· ≠ '\n') = as.takeWhile (· ≠ '\n') := by
  induction as with
  | nil => rfl
  | cons a as ih => simp only [List.cons_append, List.takeWhile_cons, ih]

/-- The line that holds the character `c`: as many lines come before it as line breaks, and as many
characters come before `c` in it as there are behind the last of these. -/
theorem find?_linesFrom (hline : '\n' ∉ reversed) (before : List Char) (c : Char) (after : List Char) :
    ∃ l, (linesFrom number start reversed (before ++ c :: after)).find?
        (holds (start + byteSize reversed + byteSize before)) = some l ∧
      l.number = number + before.count '\n' ∧
      l.characters (start + byteSize reversed + byteSize before) =
        ((before.reverse ++ reversed).takeWhile (· ≠ '\n')).length := by
  induction before generalizing number start reversed with
  | nil =>
    have hall : reversed.takeWhile (· ≠ '\n') = reversed :=
      List.takeWhile_eq_self_iff.mpr fun d hd => by
        simpa using fun hbreak : d = '\n' => hline (hbreak ▸ hd)
    simp only [List.nil_append, Text.byteSize_nil, Nat.add_zero, List.count_nil, List.reverse_nil,
      hall]
    by_cases hbreak : c = '\n'
    · obtain ⟨hnumber, hstart, hstop, hcharacters⟩ := closed_spec number start reversed
      refine ⟨closed number start reversed, ?_, hnumber, hcharacters⟩
      rw [linesFrom, if_pos hbreak]
      refine List.find?_cons_of_pos ?_
      simp only [holds, hstart, hstop, Bool.and_eq_true, decide_eq_true_eq]
      omega
    · obtain ⟨l, lines, hlines, hnumber, hstart, hstop, rest, htext⟩ :=
        linesFrom_eq_cons number start c reversed after
      have hsize := c.utf8Size_pos
      rw [Text.byteSize_cons] at hstop
      refine ⟨l, ?_, hnumber, ?_⟩
      · rw [linesFrom, if_neg hbreak, hlines]
        refine List.find?_cons_of_pos ?_
        simp only [holds, hstart, Bool.and_eq_true, decide_eq_true_eq]
        omega
      · rw [characters_of_split htext (by rw [hstart, Text.byteSize_reverse]), List.length_reverse]
  | cons d before ih =>
    by_cases hbreak : d = '\n'
    · subst hbreak
      have hsize : '\n'.utf8Size = 1 := rfl
      obtain ⟨-, hstart, hstop, -⟩ := closed_spec number start reversed
      obtain ⟨l, hfind, hnumber, hcharacters⟩ :=
        @ih (number + 1) (closed number start reversed).stop [] List.not_mem_nil
      have hposition : (closed number start reversed).stop + byteSize [] + byteSize before =
          start + byteSize reversed + byteSize ('\n' :: before) := by
        rw [hstop, Text.byteSize_cons, hsize, Text.byteSize_nil]
        omega
      rw [hposition] at hfind hcharacters
      refine ⟨l, ?_, ?_, ?_⟩
      · rw [List.cons_append, linesFrom, if_pos rfl, List.find?_cons_of_neg]
        · exact hfind
        · simp only [holds, hstop, Text.byteSize_cons, hsize, Bool.and_eq_true, decide_eq_true_eq]
          omega
      · rw [hnumber, List.count_cons_self]
        omega
      · rw [hcharacters, List.append_nil, List.reverse_cons, List.append_assoc,
          List.singleton_append, takeWhile_append_break]
    · obtain ⟨l, hfind, hnumber, hcharacters⟩ :=
        @ih number start (d :: reversed) (by simp [hline, Ne.symm hbreak])
      have hposition : start + byteSize (d :: reversed) + byteSize before =
          start + byteSize reversed + byteSize (d :: before) := by
        rw [Text.byteSize_cons, Text.byteSize_cons]
        omega
      rw [hposition] at hfind hcharacters
      refine ⟨l, ?_, ?_, ?_⟩
      · rw [List.cons_append, linesFrom, if_neg hbreak]
        exact hfind
      · rw [hnumber, List.count_cons_of_ne hbreak]
      · rw [hcharacters, List.reverse_cons, List.append_assoc]
        rfl

/-- A span that begins at a character begins in the line and at the column of that character. -/
theorem startPlace_eq {source before after : List Char} {c : Char}
    (hsource : source = before ++ c :: after) :
    (startPlace (linesOf source) (byteSize before)).line = lineOf before ∧
      (startPlace (linesOf source) (byteSize before)).character + 1 = columnOf before := by
  have hne : source ≠ [] := by
    rw [hsource]
    exact List.append_ne_nil_of_right_ne_nil _ (List.cons_ne_nil _ _)
  obtain ⟨l, hfind, hnumber, hcharacters⟩ :=
    @find?_linesFrom 1 0 [] List.not_mem_nil before c after
  rw [Text.byteSize_nil, Nat.zero_add] at hfind hcharacters
  rw [← hsource] at hfind
  have hholding : holding (linesOf source) (byteSize before) = l := by
    rw [linesOf, if_neg hne, holding, show (fun l : SourceLine => l.start ≤ byteSize before &&
      byteSize before < l.stop) = holds (byteSize before) from rfl, hfind]
    rfl
  rw [List.append_nil] at hcharacters
  rw [startPlace, hholding]
  refine ⟨?_, congrArg (· + 1) hcharacters⟩
  rw [hnumber, lineOf, Nat.add_comm]

end SourceLine

/-! ### The label of an excerpt -/

/-- A row whose characters from a column on are a label. -/
def EndsAt (column : Nat) (label row : List Char) : Prop :=
  ∃ front, row = front ++ label ∧ front.length = column

section Rows

variable {column c : Nat} {mark : Char} {label text row : List Char}

theorem length_writeAt_le (column : Nat) (text row : List Char) :
    (writeAt column text row).length ≤ max row.length (column + text.length) := by
  unfold writeAt
  split
  · exact Nat.le_max_left _ _
  · simp only [List.length_append, List.length_take, List.length_replicate, List.length_drop]
    omega

/-- A label that is written behind a row ends it. -/
theorem endsAt_writeAt (hlabel : label ≠ []) (hrow : row.length ≤ column) :
    EndsAt column label (writeAt column label row) := by
  refine ⟨row ++ List.replicate (column - row.length) ' ', ?_, ?_⟩
  · rw [writeAt, if_neg hlabel, List.take_of_length_le hrow,
      List.drop_eq_nil_of_le (Nat.le_trans hrow (Nat.le_add_right _ _)), List.append_nil]
  · rw [List.length_append, List.length_replicate]
    omega

/-- A mark in front of the label leaves it. -/
theorem EndsAt.writeAt (h : EndsAt column label row) (hc : c < column) :
    EndsAt column label (StyleTemplate.writeAt c [mark] row) := by
  obtain ⟨front, rfl, rfl⟩ := h
  have hroom : c - (front ++ label).length = 0 := by
    rw [List.length_append]
    omega
  refine ⟨front.take c ++ [mark] ++ front.drop (c + 1), ?_, ?_⟩
  · rw [StyleTemplate.writeAt, if_neg (List.cons_ne_nil _ _), hroom,
      List.take_append_of_le_length (Nat.le_of_lt hc), List.length_singleton,
      List.drop_append_of_le_length hc, List.replicate_zero, List.append_nil,
      List.append_assoc _ _ label]
  · simp only [List.length_append, List.length_take, List.length_singleton, List.length_drop]
    omega

end Rows

namespace Excerpt

variable {e : Excerpt} {left first last column : Nat} {label row : List Char}

theorem endsAt_underline (h : EndsAt column label row)
    (hlast : ∀ n, n < last - first → e.rowColumn left (first + n) < column) :
    EndsAt column label (e.underline left first last row) := by
  rw [underline]
  have hmarks : ∀ n ∈ List.range (last - first), e.rowColumn left (first + n) < column :=
    fun n hn => hlast n (List.mem_range.mp hn)
  generalize List.range (last - first) = marks at hmarks
  induction marks generalizing row with
  | nil => exact h
  | cons n marks ih =>
    obtain ⟨hn, hmarks⟩ := List.forall_mem_cons.mp hmarks
    exact ih (h.writeAt hn) hmarks

/-- Carets up to the end of the span leave the label behind them. -/
theorem suffix_underline_writeLabel
    (hrow : row.length ≤ e.codeColumn + (e.stop.column + 1 - left)) :
    e.label <:+ e.underline left first e.stop.column (e.writeLabel left row) := by
  by_cases hlabel : e.label = []
  · rw [hlabel]
    exact List.nil_suffix
  · rw [writeLabel]
    have hgap : 1 ≤ if e.stop.column = 0 then 2 else 1 := by split <;> omega
    generalize (if e.stop.column = 0 then 2 else 1) = gap at hgap
    have hends : EndsAt (e.codeColumn + (e.stop.column + gap - left)) e.label
        (writeAt (e.codeColumn + (e.stop.column + gap - left)) e.label row) :=
      endsAt_writeAt hlabel (by omega)
    have hmarks (n : Nat) (hn : n < e.stop.column - first) :
        e.rowColumn left (first + n) < e.codeColumn + (e.stop.column + gap - left) := by
      simp only [rowColumn, codeColumn]
      omega
    obtain ⟨front, hfront, -⟩ := endsAt_underline hends hmarks
    exact ⟨front, hfront.symm⟩

/-- The label ends a row of the last line of the span. -/
theorem exists_label_lineRows {l : SourceLine} (hl : e.line? e.stop.line = some l) :
    ∃ row ∈ e.lineRows e.stop.line, e.label <:+ row := by
  have hedge : e.edge.length = e.numberWidth + 2 := by simp [edge]
  rw [lineRows, hl]
  by_cases hmultiline : e.isMultiline = true
  · have hlast : e.stop.line ≠ e.start.line := fun heq => by
      simp [isMultiline, heq] at hmultiline
    simp only [hmultiline, Bool.not_true, Bool.false_eq_true, if_false, if_neg hlast, if_true]
    refine ⟨_, List.mem_cons_of_mem _ (List.mem_singleton_self _), suffix_underline_writeLabel ?_⟩
    have hrule := length_writeAt_le (e.barColumn + 1)
      (List.replicate (e.rowColumn (e.shownText l).1 (e.stop.column - 1) - (e.barColumn + 1)) '_') e.edge
    have hbar := length_writeAt_le e.barColumn ['|']
      (e.rule (e.shownText l).1 (e.stop.column - 1) e.edge)
    rw [withBar]
    rw [← rule] at hrule
    simp only [rowColumn, codeColumn, barColumn, hmultiline, List.length_replicate,
      List.length_singleton, hedge, if_true] at hrule hbar ⊢
    omega
  · simp only [hmultiline, Bool.not_false, if_true]
    refine ⟨_, List.mem_cons_of_mem _ (List.mem_singleton_self _), suffix_underline_writeLabel ?_⟩
    rw [hedge, codeColumn]
    omega

private theorem mem_rowsAfter {number previous : Nat} {numbers : List Nat} (hnumber : number ∈ numbers)
    (hrow : row ∈ e.lineRows number) : row ∈ e.rowsAfter previous numbers := by
  induction numbers generalizing previous with
  | nil => exact nomatch hnumber
  | cons next numbers ih =>
    rw [rowsAfter]
    rcases List.mem_cons.mp hnumber with rfl | hnumber
    · exact List.mem_append_left _ (List.mem_append_right _ hrow)
    · exact List.mem_append_right _ (ih hnumber)

/-- The last line of the span is shown. -/
private theorem mem_rows (hrow : row ∈ e.lineRows e.stop.line) : row ∈ e.rows := by
  rw [rows, shownLines]
  by_cases hmultiline : e.isMultiline = true
  · rw [if_pos hmultiline]
    refine List.mem_append_right _ (mem_rowsAfter ?_ hrow)
    exact List.mem_append_right _ (List.mem_singleton_self _)
  · rw [if_neg hmultiline]
    have hline : e.start.line = e.stop.line := by simpa [isMultiline] using hmultiline
    exact List.mem_append_left _ (hline ▸ hrow)

private theorem linesOf_ne_nil (source : List Char) : SourceLine.linesOf source ≠ [] := by
  rw [SourceLine.linesOf]
  split
  · exact List.cons_ne_nil _ _
  · rename_i hne
    obtain ⟨c, cs, rfl⟩ := List.exists_cons_of_ne_nil hne
    rw [SourceLine.linesFrom]
    split
    · exact List.cons_ne_nil _ _
    · obtain ⟨l, lines, hlines, -⟩ := SourceLine.linesFrom_eq_cons 1 0 c [] cs
      rw [hlines]
      exact List.cons_ne_nil _ _

private theorem holding_mem {lines : List SourceLine} (h : lines ≠ []) (position : Nat) :
    SourceLine.holding lines position ∈ lines := by
  rw [SourceLine.holding]
  cases hfind : lines.find? fun l => l.start ≤ position && position < l.stop with
  | some l => exact List.mem_of_find?_eq_some hfind
  | none =>
    rw [Option.orElse_none, List.getLast?_eq_some_getLast h, Option.getD_some]
    exact List.getLast_mem h

/-- A span ends in one of the lines of the source. -/
theorem exists_line?_ofBytes (source : List Char) (start stop : Nat) (label : List Char) :
    ∃ l, (ofBytes source start stop label).line? (ofBytes source start stop label).stop.line =
      some l := by
  have hlines := linesOf_ne_nil source
  let first := SourceLine.startPlace (SourceLine.linesOf source) start
  obtain ⟨l, hl, hnumber⟩ : ∃ l ∈ SourceLine.linesOf source,
      l.number = (if start = stop then first
        else SourceLine.stopPlace (SourceLine.linesOf source) first.line stop).line := by
    split
    · exact ⟨_, holding_mem hlines start, rfl⟩
    · exact ⟨_, holding_mem hlines stop, rfl⟩
  have hwider (place : Place) (empty : Prop) [Decidable empty] :
      (if empty then { place with column := place.column + 1 } else place).line = place.line := by
    split
    · rfl
    · rfl
  have hstop : (ofBytes source start stop label).stop.line = l.number := by
    rw [hnumber]
    exact hwider _ _
  refine Option.isSome_iff_exists.mp (List.find?_isSome.mpr ⟨l, hl, ?_⟩)
  simpa using hstop.symm

/-- The label stands at the end of a row. -/
theorem exists_label_rows (source : List Char) (start stop : Nat) (label : List Char) :
    ∃ row ∈ (ofBytes source start stop label).rows, Text.visible label <:+ row := by
  obtain ⟨l, hl⟩ := exists_line?_ofBytes source start stop label
  obtain ⟨row, hrow, hlabel⟩ := exists_label_lineRows hl
  exact ⟨row, mem_rows hrow, hlabel⟩

end Excerpt

/-! ### Rows -/

/-- A text behind a lead. Its lines stand below one another, with blanks in front of all but the
first. -/
def hung (lead text : List Char) : List Char :=
  lead ++ text.flatMap fun c => if c = '\n' then '\n' :: List.replicate lead.length ' ' else [c]

/-- Rows one below the other. -/
def below (rows : List (List Char)) : List Char := ['\n'].intercalate rows

theorem below_cons {row : List Char} {rows : List (List Char)} (h : rows ≠ []) :
    below (row :: rows) = row ++ '\n' :: below rows := by
  obtain ⟨next, rows, rfl⟩ := List.exists_cons_of_ne_nil h
  simp [below, List.intercalate_cons_cons]

theorem below_append {rows others : List (List Char)} (h : rows ≠ []) (h' : others ≠ []) :
    below (rows ++ others) = below rows ++ '\n' :: below others := by
  induction rows with
  | nil => exact (h rfl).elim
  | cons row rows ih =>
    by_cases hrows : rows = []
    · subst hrows
      rw [List.singleton_append, below_cons h']
      simp [below]
    · rw [List.cons_append, below_cons (List.append_ne_nil_of_left_ne_nil hrows _), ih hrows,
        below_cons hrows, List.append_assoc, List.cons_append]

/-- Rows in groups, none of which is empty. -/
theorem below_flatten {groups : List (List (List Char))} (h : ∀ rows ∈ groups, rows ≠ []) :
    below groups.flatten = below (groups.map below) := by
  induction groups with
  | nil => rfl
  | cons rows groups ih =>
    obtain ⟨hrows, hgroups⟩ := List.forall_mem_cons.mp h
    by_cases hnone : groups = []
    · subst hnone
      simp [below]
    · obtain ⟨next, groups, rfl⟩ := List.exists_cons_of_ne_nil hnone
      have hne : (next :: groups).flatten ≠ [] := by
        simp [hgroups next List.mem_cons_self]
      rw [List.flatten_cons, below_append hrows hne, ih hgroups, List.map_cons (f := below) (a := rows),
        below_cons (by simp)]

namespace Report

theorem hang_ne_nil (lead text : List Char) : hang lead text ≠ [] := by
  unfold hang
  split
  · exact List.cons_ne_nil _ _
  · exact List.cons_ne_nil _ _

/-- The lines of a text, the first behind a lead and the others behind a margin. -/
private theorem below_lines (lead margin text : List Char) :
    ∃ first rest, text.splitOn '\n' = first :: rest ∧
      below ((lead ++ first) :: rest.map (margin ++ ·)) =
        lead ++ text.flatMap fun c => if c = '\n' then '\n' :: margin else [c] := by
  induction text generalizing lead with
  | nil => exact ⟨[], [], List.splitOn_nil _, by simp [below]⟩
  | cons c text ih =>
    rw [List.splitOn_cons_eq_if_modifyHead]
    by_cases hbreak : c = '\n'
    · obtain ⟨first, rest, hsplit, hbelow⟩ := ih margin
      refine ⟨[], first :: rest, by rw [if_pos (by simp [hbreak]), hsplit], ?_⟩
      rw [List.map_cons, below_cons (List.cons_ne_nil _ _), hbelow, List.flatMap_cons, if_pos hbreak,
        List.append_nil, List.cons_append]
    · obtain ⟨first, rest, hsplit, hbelow⟩ := ih (lead ++ [c])
      refine ⟨c :: first, rest, by rw [if_neg (by simpa using hbreak), hsplit]; rfl, ?_⟩
      rw [List.append_assoc, List.singleton_append] at hbelow
      rw [hbelow, List.flatMap_cons, if_neg hbreak, List.append_assoc]

theorem below_hang (lead text : List Char) : below (hang lead text) = hung lead text := by
  obtain ⟨first, rest, hsplit, hbelow⟩ :=
    below_lines lead (List.replicate lead.length ' ') text
  rw [hang, hsplit]
  exact hbelow

/-! ### A whole report -/

/-- A text with the heading of a report, then this place in its file, then these rows, and then its
notes. -/
def layout (r : Report) (width : Nat) (place : String) (excerpt : List (List Char)) : List Char :=
  below ([hung (r.heading.name ++ "[" ++ r.code ++ "]: ").toList (Text.visible r.message.toList),
      List.replicate width ' ' ++ ("--> " ++ r.path ++ ":" ++ place).toList] ++ excerpt ++
    r.notes.map fun note =>
      hung (List.replicate (width + 1) ' ' ++ "= note: ".toList) note.toList)

/-- A text that shows a report: the severity, the code and the message, then the line and the column
where the problem begins, then rows of the source with the label at the end of one of them, and then
the notes. -/
def Displays (r : Report) (text : String) : Prop :=
  ∃ width place excerpt, text.toList = r.layout width place excerpt ∧
    (∃ row ∈ excerpt, Text.visible r.label.toList <:+ row) ∧
    ∀ before c after, r.source.toList = before ++ c :: after → byteSize before = r.span.start →
      r.span.start ≤ Span.limit → place = toString (lineOf before) ++ ":" ++ toString (columnOf before)

/-- The excerpt begins where the span does, if that is at a character of the source. -/
theorem start_excerpt {r : Report} {before after : List Char} {c : Char}
    (hsource : r.source.toList = before ++ c :: after) (hstart : byteSize before = r.span.start)
    (hlimit : r.span.start ≤ Span.limit) :
    r.excerpt.start.line = lineOf before ∧ r.excerpt.start.character + 1 = columnOf before := by
  have hinside : byteSize before ≤ byteSize r.source.toList := by
    rw [hsource, Text.byteSize_append]
    exact Nat.le_add_right _ _
  have hspan : min r.span.start (min r.span.stop (byteSize r.source.toList)) = byteSize before := by
    rw [← hstart] at hlimit ⊢
    simp only [Span.stop, ← hstart]
    omega
  have hplace := SourceLine.startPlace_eq hsource
  rw [← hspan] at hplace
  exact hplace

theorem toList_text (r : Report) : r.text.toList = below r.rows := by
  rw [text, String.toList_intercalate, List.map_map, below]
  simp [Function.comp_def]

/-- The rows of the excerpt, with those that hold nothing but the edge. -/
def excerptRows (r : Report) : List (List Char) :=
  r.excerpt.edge :: (r.excerpt.rows ++ if r.notes.isEmpty then [] else [r.excerpt.edge])

/-- The rows of a report in groups: those of the heading, single ones, and those of each note. -/
private def groups (r : Report) : List (List (List Char)) :=
  [r.headingRows, [r.placeRow]] ++ r.excerptRows.map (fun row => [row]) ++
    r.notes.map fun note =>
      hang (List.replicate (r.excerpt.numberWidth + 1) ' ' ++ "= note: ".toList) note.toList

private theorem flatten_groups (r : Report) : r.groups.flatten = r.rows := by
  have hsingle (rows : List (List Char)) : (rows.map fun row => [row]).flatten = rows := by
    induction rows with
    | nil => rfl
    | cons row rows ih => rw [List.map_cons, List.flatten_cons, ih, List.singleton_append]
  rw [groups, rows, noteRows, excerptRows, List.flatten_append, List.flatten_append, hsingle]
  cases r.notes with
  | nil => simp
  | cons note notes => simp [List.flatMap_def]

private theorem groups_ne_nil (r : Report) : ∀ rows ∈ r.groups, rows ≠ [] := by
  intro rows hrows
  rcases List.mem_append.mp hrows with hrows | hrows
  · rcases List.mem_append.mp hrows with hrows | hrows
    · rcases List.mem_cons.mp hrows with rfl | hrows
      · exact hang_ne_nil _ _
      · rw [List.mem_singleton.mp hrows]
        exact List.cons_ne_nil _ _
    · obtain ⟨row, -, rfl⟩ := List.mem_map.mp hrows
      exact List.cons_ne_nil _ _
  · obtain ⟨note, -, rfl⟩ := List.mem_map.mp hrows
    exact hang_ne_nil _ _

theorem text_eq_layout (r : Report) :
    r.text.toList = r.layout r.excerpt.numberWidth
      (toString r.excerpt.start.line ++ ":" ++ toString (r.excerpt.start.character + 1))
      r.excerptRows := by
  have hsingle (row : List Char) : below [row] = row := by simp [below]
  have hplace : r.placeRow = List.replicate r.excerpt.numberWidth ' ' ++
      ("--> " ++ r.path ++ ":" ++ (toString r.excerpt.start.line ++ ":" ++
        toString (r.excerpt.start.character + 1))).toList := by
    simp only [placeRow, String.append_assoc]
  rw [toList_text, ← flatten_groups, below_flatten r.groups_ne_nil, layout, ← hplace, groups]
  simp only [List.map_append, List.map_cons, List.map_nil, List.map_map, Function.comp_def, hsingle,
    List.map_id', below_hang, headingRows]

/-- What is printed of a report shows it. -/
theorem displays_text (r : Report) : r.Displays r.text := by
  refine ⟨_, _, _, r.text_eq_layout, ?_, fun before c after hsource hstart hlimit => ?_⟩
  · obtain ⟨row, hrow, hlabel⟩ := Excerpt.exists_label_rows r.source.toList _ _ r.label.toList
    exact ⟨row, List.mem_cons_of_mem _ (List.mem_append_left _ hrow), hlabel⟩
  · obtain ⟨hline, hcolumn⟩ := start_excerpt hsource hstart hlimit
    rw [hline, hcolumn]

example : text ⟨.error, "D100", "Undefined variable 'x'", "a.dcss", "c:\n  $x;", ⟨5, 2⟩, "here", ["why"]⟩ =
    "\n".intercalate ["error[D100]: Undefined variable 'x'", " --> a.dcss:2:3", "  |", "2 |   $x;",
      "  |   ^^ here", "  |", "  = note: why"] := by decide

end Report

end StyleTemplate
