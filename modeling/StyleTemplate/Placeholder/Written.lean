import StyleTemplate.Placeholder
import StyleTemplate.Text.Blank
import StyleTemplate.Text.Quoting

/-! Placeholders as they are written. Every part keeps its spelling, so that a source text is
exactly the concatenation of what was read from it; `locate` gives the parts their spans and
their meaning. -/

namespace StyleTemplate

open Text (byteSize)

/-- The characters of variable and filter names. -/
def isNameChar (c : Char) : Bool := c.isAlphanum || c == '_' || c == '-'

/-- The characters of a key that is written without quotes. -/
def isBareKeyChar (c : Char) : Bool :=
  !(c == '[' || c == ']' || c == '\'' || c == '"' || c == '$' || c == '|') && !Text.isBlank c

/-- A subscript: its key, and the quote on both sides of it, if there is one. -/
structure SubscriptText where
  key : List Char
  quote : Option Char
deriving DecidableEq

/-- A filter call: its name, and what stands between the parentheses, if there are any. -/
structure CallText where
  name : List Char
  inner : Option (List Char)
deriving DecidableEq

/-- A placeholder after its `$`. -/
structure PlaceholderText where
  name : List Char
  subscripts : List SubscriptText
  calls : List CallText
deriving DecidableEq

namespace SubscriptText

def written (s : SubscriptText) : List Char :=
  '[' :: (s.quote.toList ++ s.key ++ s.quote.toList ++ [']'])

end SubscriptText

namespace CallText

def written (c : CallText) : List Char :=
  '|' :: c.name ++ match c.inner with
    | none => []
    | some inner => '(' :: inner ++ [')']

/-- The arguments in a pair of parentheses: none if there is nothing but blanks, and otherwise the
pieces between the unquoted commas. -/
def argumentsOf (inner : List Char) : List Literal :=
  if Text.trim inner = [] then []
  else (Text.splitUnquoted ',' .outside inner).map fun piece =>
    Literal.ofText (String.ofList (Text.trim piece))

/-- The call whose `|` is at byte `start`. -/
def locate (c : CallText) (start : Nat) : FilterCall where
  name := String.ofList c.name
  args := (c.inner.map argumentsOf).getD []
  span := Span.ofBounds (start + 1) (start + byteSize c.written)

/-- The calls of a chain that begins at byte `start`. -/
def locateAll (start : Nat) : List CallText → List FilterCall
  | [] => []
  | c :: cs => c.locate start :: locateAll (start + byteSize c.written) cs

end CallText

namespace PlaceholderText

/-- The name and the subscripts. -/
def writtenPath (p : PlaceholderText) : List Char :=
  p.name ++ p.subscripts.flatMap SubscriptText.written

def written (p : PlaceholderText) : List Char :=
  '$' :: (p.writtenPath ++ p.calls.flatMap CallText.written)

/-- The placeholder whose `$` is at byte `start`. -/
def locate (p : PlaceholderText) (start : Nat) : Placeholder where
  name := String.ofList p.name
  subscripts := p.subscripts.map fun s => String.ofList s.key
  filters := CallText.locateAll (start + 1 + byteSize p.writtenPath) p.calls
  span := Span.ofBounds start (start + byteSize p.written)

end PlaceholderText

end StyleTemplate
