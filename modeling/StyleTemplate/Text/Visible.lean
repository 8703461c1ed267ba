/-! Text made fit to be shown above and below source lines: every character takes the columns that
`Text.charWidth` gives it. -/

namespace StyleTemplate.Text

/-- A tab shows as four blanks, a control character other than a line break as its picture, a
joiner not at all, and a mark that turns the direction of text as a replacement character. -/
def visibleChar (c : Char) : List Char :=
  let n := c.toNat
  if c = '\n' then [c]
  else if c = '\t' then [' ', ' ', ' ', ' ']
  else if n < 0x20 then [Char.ofNat (0x2400 + n)]
  else if n = 0x7F then ['\u2421']
  else if n = 0x200D then []
  else if (0x202A ≤ n ∧ n ≤ 0x202E) ∨ (0x2066 ≤ n ∧ n ≤ 0x2069) then ['\ufffd']
  else [c]

/-- The form in which a text is shown. -/
def visible (cs : List Char) : List Char := cs.flatMap visibleChar

end StyleTemplate.Text
