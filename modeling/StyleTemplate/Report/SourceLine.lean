import StyleTemplate.Text.Bytes
import StyleTemplate.Text.Width

/-! The lines of a source, and places in them. A line ends at a line feed, with or without a
carriage return in front of it. -/

namespace StyleTemplate

/-- A line: its number from one on, the byte where it starts, its text, and the size of the line
break after it. -/
structure SourceLine where
  number : Nat
  start : Nat
  text : List Char
  breakSize : Nat
deriving DecidableEq, Repr

/-- A place in a line: how many characters and how many columns come before it. -/
structure Place where
  line : Nat
  character : Nat
  column : Nat
deriving DecidableEq, Repr

namespace SourceLine

/-- The byte after the text. -/
def textStop (l : SourceLine) : Nat := l.start + Text.byteSize l.text

/-- The byte after the line break. -/
def stop (l : SourceLine) : Nat := l.textStop + l.breakSize

/-- A line from its text, last character first, up to a line feed. -/
def closed (number start : Nat) (reversed : List Char) : SourceLine :=
  match reversed with
  | '\r' :: cs => ⟨number, start, cs.reverse, 2⟩
  | cs => ⟨number, start, cs.reverse, 1⟩

/-- The lines of what is left of a source, when `reversed` is the present line so far. -/
def linesFrom (number start : Nat) (reversed : List Char) : List Char → List SourceLine
  | [] => if reversed = [] then [] else [⟨number, start, reversed.reverse, 0⟩]
  | c :: cs =>
    if c = '\n' then
      let line := closed number start reversed
      line :: linesFrom (number + 1) line.stop [] cs
    else linesFrom number start (c :: reversed) cs

/-- The lines of a source. The empty source has one empty line. -/
def linesOf (source : List Char) : List SourceLine :=
  if source = [] then [⟨1, 0, [], 0⟩] else linesFrom 1 0 [] source

/-- The line that holds a byte; the last line for bytes past the end. -/
def holding (lines : List SourceLine) (position : Nat) : SourceLine :=
  ((lines.find? fun l => l.start ≤ position && position < l.stop).orElse fun _ =>
    lines.getLast?).getD ⟨1, 0, [], 0⟩

/-- The text of a line before a byte. -/
def before (l : SourceLine) (position : Nat) : List Char :=
  (Text.takeBytes? (min (position - l.start) (Text.byteSize l.text)) l.text).getD []

/-- The place of the first byte of a span. Inside a line break it counts as one character
further. -/
def startPlace (lines : List SourceLine) (position : Nat) : Place :=
  let l := holding lines position
  let cs := l.before position
  ⟨l.number, cs.length + (if l.textStop < position then 1 else 0), Text.width cs⟩

/-- The place of the byte after a span that began in line `first`. Where a span of several lines
takes in the line break, that counts as one more column. -/
def stopPlace (lines : List SourceLine) (first position : Nat) : Place :=
  let l := holding lines position
  let cs := l.before position
  let more := if l.number ≠ first ∧ l.textStop < position then 1 else 0
  ⟨l.number, cs.length + more, Text.width cs + more⟩

end SourceLine

end StyleTemplate
