import StyleTemplate.Report.SourceLine
import StyleTemplate.Text.Blank
import StyleTemplate.Text.Visible

/-! The part of a source around a span, with the span marked: carets below it in one line, or a
bar beside its lines. -/

namespace StyleTemplate

/-- Writes text into a row at a column, over what is there. Blanks fill the row up to the column. -/
def writeAt (column : Nat) (text row : List Char) : List Char :=
  if text = [] then row
  else
    row.take column ++ List.replicate (column - row.length) ' ' ++ text ++
      row.drop (column + text.length)

/-- What is shown of a source: its lines, the marked places, and the label of the mark. -/
structure Excerpt where
  lines : List SourceLine
  start : Place
  stop : Place
  label : List Char

namespace Excerpt

/-- The excerpt for the bytes from `start` to `stop`. An empty span is marked as one column. -/
def ofBytes (source : List Char) (start stop : Nat) (label : List Char) : Excerpt :=
  let lines := SourceLine.linesOf source
  let first := SourceLine.startPlace lines start
  let last := if start = stop then first else SourceLine.stopPlace lines first.line stop
  let last :=
    if first.line = last.line ∧ first.column = last.column then
      { last with column := last.column + 1 }
    else last
  ⟨lines, first, last, Text.visible label⟩

def isMultiline (e : Excerpt) : Bool := e.start.line ≠ e.stop.line

/-- The width of the line numbers. -/
def numberWidth (e : Excerpt) : Nat := (toString e.stop.line).length

def line? (e : Excerpt) (number : Nat) : Option SourceLine := e.lines.find? (·.number == number)

/-- The column at which source text begins. A bar beside the lines takes two columns. -/
def codeColumn (e : Excerpt) : Nat := e.numberWidth + 3 + (if e.isMultiline then 2 else 0)

/-- The column of the bar. -/
def barColumn (e : Excerpt) : Nat := e.numberWidth + 3

/-- A row that holds nothing but the edge on its left. -/
def edge (e : Excerpt) : List Char := List.replicate (e.numberWidth + 1) ' ' ++ ['|']

/-- The edge with the number of a line. -/
def numberedEdge (e : Excerpt) (number : Nat) : List Char :=
  let digits := (toString number).toList
  List.replicate (e.numberWidth - digits.length) ' ' ++ digits ++ [' ', '|']

/-- Whether a line may be left out at the end of the lines shown: it is blank, a comment, or a
single bracket. -/
def isNegligible (cs : List Char) : Bool :=
  let cs := Text.trim cs
  let isComment := match cs with
    | '/' :: '/' :: c :: _ => c ≠ '/' && c ≠ '!'
    | ['/', '/'] => true
    | _ => false
  isComment || [[], ['\x7b'], ['\x7d'], ['('], [')'], ['['], [']']].contains cs

private def isNegligibleLine (e : Excerpt) (number : Nat) : Bool :=
  match e.line? number with
  | some l => isNegligible l.text
  | none => true

/-- The numbers of the lines between the first and the last one that are shown: up to three after
the first, without negligible ones at their end, and the one before the last. -/
def middleLines (e : Excerpt) : List Nat :=
  let middle := min (e.start.line + 4) e.stop.line
  let between := (List.range (middle - e.start.line)).map (e.start.line + ·)
  let shown := (between.reverse.dropWhile (isNegligibleLine e)).reverse.drop 1
  let beforeLast := e.stop.line - 1
  let tail :=
    if middle < beforeLast ∧ e.line? beforeLast ≠ none ∧ !isNegligibleLine e beforeLast then
      [beforeLast]
    else []
  shown ++ tail

/-- The numbers of the lines shown. -/
def shownLines (e : Excerpt) : List Nat :=
  if e.isMultiline then e.start.line :: e.middleLines ++ [e.stop.line] else [e.start.line]

/-- The blank columns at the start of a line. -/
def indentation : List Char → Nat
  | [] => 0
  | c :: cs => if Text.isBlank c then (if c = '\t' then 4 else 1) + indentation cs else 0

/-- The blank columns at the start of all shown lines that are not blank altogether. -/
def commonIndentation (e : Excerpt) : Nat :=
  let texts := (e.shownLines.filterMap e.line?).map (·.text)
  ((texts.filter (·.any (!Text.isBlank ·))).map indentation).min?.getD 0

/-- How many columns are cut off on the left: deep indentation is cut down to 22 columns. -/
def cut (e : Excerpt) : Nat := if 26 < e.commonIndentation then e.commonIndentation - 22 else 0

/-- The characters after the first `columns` columns, and how many columns are gone. -/
def skipColumns (columns : Nat) : Nat → List Char → Nat × List Char
  | skipped, [] => (skipped, [])
  | skipped, c :: cs =>
    if skipped < columns then skipColumns columns (skipped + Text.charWidth c) cs
    else (skipped, c :: cs)

/-- The text of a line as it is shown, and how many columns were cut off it. Three dots take the
place of the first three columns that are left. -/
def shownText (e : Excerpt) (l : SourceLine) : Nat × List Char :=
  let cs := Text.visible l.text
  let columns := min e.cut (Text.width cs)
  if e.cut = 0 then (0, cs)
  else
    let (skipped, rest) := skipColumns columns 0 cs
    let (taken, rest) := skipColumns 3 0 rest
    let left := max columns skipped - (taken - 3)
    (left, ['.', '.', '.'] ++ List.replicate (taken - 3) ' ' ++ rest)

/-- The row of a source line. -/
def sourceRow (e : Excerpt) (l : SourceLine) : List Char :=
  writeAt e.codeColumn (e.shownText l).2 (e.numberedEdge l.number)

/-- A row with the bar in it. -/
def withBar (e : Excerpt) (mark : Char) (row : List Char) : List Char :=
  writeAt e.barColumn [mark] row

/-- The column, in a row, of a column of the source. -/
def rowColumn (e : Excerpt) (left column : Nat) : Nat := e.codeColumn + column - left

/-- Carets below the columns from `first` to `last`. -/
def underline (e : Excerpt) (left first last : Nat) (row : List Char) : List Char :=
  (List.range (last - first)).foldl
    (fun row n => writeAt (e.rowColumn left (first + n)) ['^'] row) row

/-- The label after the carets. -/
def writeLabel (e : Excerpt) (left : Nat) (row : List Char) : List Char :=
  let gap := if e.stop.column = 0 then 2 else 1
  writeAt (e.codeColumn + (e.stop.column + gap - left)) e.label row

/-- The line below the bar up to a column. -/
def rule (e : Excerpt) (left column : Nat) (row : List Char) : List Char :=
  let first := e.barColumn + 1
  writeAt first (List.replicate (e.rowColumn left column - first) '_') row

/-- The rows of a span in one line. -/
def singleLineRows (e : Excerpt) (l : SourceLine) : List (List Char) :=
  let left := (e.shownText l).1
  [e.sourceRow l,
    e.underline left e.start.column e.stop.column (e.writeLabel left e.edge)]

/-- Whether nothing but blanks comes before the span in its first line. -/
def startsBlank (e : Excerpt) (l : SourceLine) : Bool :=
  (l.text.take e.start.column).all Text.isBlank

/-- The rows of the first line of a span of several lines. -/
def firstRows (e : Excerpt) (l : SourceLine) : List (List Char) :=
  if e.startsBlank l then [e.withBar '/' (e.sourceRow l)]
  else
    let left := (e.shownText l).1
    [e.sourceRow l,
      e.underline left e.start.column (e.start.column + 1)
        (e.rule left e.start.column e.edge)]

/-- The rows of the last line of a span of several lines. -/
def lastRows (e : Excerpt) (l : SourceLine) : List (List Char) :=
  let left := (e.shownText l).1
  let final := e.stop.column - 1
  [e.withBar '|' (e.sourceRow l),
    e.underline left final e.stop.column
      (e.writeLabel left (e.withBar '|' (e.rule left final e.edge)))]

/-- The rows of one shown line. -/
def lineRows (e : Excerpt) (number : Nat) : List (List Char) :=
  match e.line? number with
  | none => []
  | some l =>
    if !e.isMultiline then e.singleLineRows l
    else if number = e.start.line then e.firstRows l
    else if number = e.stop.line then e.lastRows l
    else [e.withBar '|' (e.sourceRow l)]

/-- What stands between two shown lines: nothing, the one line between them, or dots. -/
def gapRows (e : Excerpt) (previous next : Nat) : List (List Char) :=
  if next ≤ previous + 1 then []
  else if next = previous + 2 then
    match e.line? (previous + 1) with
    | some l => [e.withBar '|' (e.sourceRow l)]
    | none => []
  else [e.withBar '|' ['.', '.', '.']]

/-- The rows of the shown lines, from one that `previous` came before. -/
def rowsAfter (e : Excerpt) (previous : Nat) : List Nat → List (List Char)
  | [] => []
  | number :: numbers =>
    e.gapRows previous number ++ e.lineRows number ++ e.rowsAfter number numbers

/-- All rows of the excerpt. -/
def rows (e : Excerpt) : List (List Char) :=
  match e.shownLines with
  | [] => []
  | number :: numbers => e.lineRows number ++ e.rowsAfter number numbers

end Excerpt

end StyleTemplate
