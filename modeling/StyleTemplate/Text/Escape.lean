import StyleTemplate.Text.WidthTable

/-! Text made safe for one line of a log. -/

namespace StyleTemplate.Text

/-- Ranges of characters that show nothing of their own: controls, formats, separators and
private ones. -/
def unprintableRanges : List (Nat × Nat) := [
  (0x0, 0x1F), (0x7F, 0xA0), (0xAD, 0xAD), (0x600, 0x605), (0x61C, 0x61C), (0x6DD, 0x6DD),
  (0x70F, 0x70F), (0x890, 0x891), (0x8E2, 0x8E2), (0x1680, 0x1680), (0x180E, 0x180E),
  (0x2000, 0x200F), (0x2028, 0x202F), (0x205F, 0x2064), (0x2066, 0x206F), (0x3000, 0x3000),
  (0xE000, 0xF8FF), (0xFEFF, 0xFEFF), (0xFFF9, 0xFFFB), (0x110BD, 0x110BD), (0x110CD, 0x110CD),
  (0x13430, 0x1343F), (0x1BCA0, 0x1BCA3), (0x1D173, 0x1D17A), (0xE0001, 0xE0001),
  (0xE0020, 0xE007F), (0xF0000, 0xFFFFD), (0x100000, 0x10FFFD)]

private def within (ranges : List (Nat × Nat)) (c : Char) : Bool :=
  ranges.any fun (first, last) => first ≤ c.toNat && c.toNat ≤ last

private def hexadecimal (c : Char) : List Char := Nat.toDigits 16 c.toNat

private def braced (c : Char) : List Char := ['\\', 'u', '\x7b'] ++ hexadecimal c ++ ['\x7d']

/-- A character between double quotes. Marks that would join the character before them are
written by their code. -/
def escapeQuoted (c : Char) : List Char :=
  match c with
  | '\x00' => ['\\', '0']
  | '\t' => ['\\', 't']
  | '\n' => ['\\', 'n']
  | '\r' => ['\\', 'r']
  | '"' => ['\\', '"']
  | '\\' => ['\\', '\\']
  | c =>
    if within unprintableRanges c || (0x300 ≤ c.toNat && within zeroWidthRanges c) then braced c
    else [c]

/-- A text between double quotes. -/
def quoted (s : String) : String := String.ofList ('"' :: s.toList.flatMap escapeQuoted ++ ['"'])

/-- A character of a message. Those that could steer a terminal are written by their code. -/
def escapeControl (c : Char) : List Char :=
  if c = '\x07' ∨ c = '\x08' ∨ c = '\x0c' ∨ c = '\x1b' ∨ c = '\x7f' then
    let digits := hexadecimal c
    ['\\', 'x'] ++ List.replicate (2 - digits.length) '0' ++ digits
  else if 0x80 ≤ c.toNat ∧ c.toNat ≤ 0x9F then braced c
  else [c]

/-- A message without characters that could steer a terminal. -/
def harmless (s : String) : String := String.ofList (s.toList.flatMap escapeControl)

end StyleTemplate.Text
