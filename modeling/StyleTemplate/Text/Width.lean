import StyleTemplate.Text.WidthTable

/-! The columns that text takes in a terminal. -/

namespace StyleTemplate.Text

/-- The columns of one character; a tab takes four. -/
def charWidth (c : Char) : Nat :=
  let n := c.toNat
  let within (ranges : List (Nat × Nat)) : Bool :=
    ranges.any fun (first, last) => first ≤ n && n ≤ last
  if c = '\t' then 4
  else if n < 0x300 then 1
  else if (0x202A ≤ n && n ≤ 0x202E) || (0x2066 ≤ n && n ≤ 0x2069) then 1
  else if within zeroWidthRanges then 0
  else if within wideRanges then 2
  else 1

/-- The columns of a text. -/
def width : List Char → Nat
  | [] => 0
  | c :: cs => charWidth c + width cs

end StyleTemplate.Text
