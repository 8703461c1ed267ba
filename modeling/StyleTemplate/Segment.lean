import StyleTemplate.Placeholder.Reader

/-! A source text as a sequence of plain text and placeholders. -/

namespace StyleTemplate

open Text (byteSize dropBytes?)

/-- A stretch of plain text, or a placeholder. -/
inductive Segment where
  | text (text : List Char) (span : Span)
  | placeholder (placeholder : Placeholder)
deriving DecidableEq

namespace Segment

def span : Segment → Span
  | text _ s => s
  | placeholder p => p.span

/-- The placeholder that a segment is, if it is one. -/
def placeholder? : Segment → Option Placeholder
  | text .. => none
  | placeholder p => some p

/-- Plain text from byte `start` on, as no segment at all when it is empty. -/
def plain (start : Nat) (cs : List Char) : List Segment :=
  if cs = [] then [] else [text cs (Span.ofBounds start (start + byteSize cs))]

end Segment

/-- A place in a source: a byte position, and the text from there on. -/
structure Cursor where
  position : Nat
  rest : List Char
deriving DecidableEq

namespace Cursor

/-- The place at byte `position` of `source`; past the end or inside a character nothing is left. -/
def seek (source : List Char) (position : Nat) : Cursor :=
  ⟨position, (dropBytes? position source).getD []⟩

/-- The segments up to the next placeholder and that placeholder, and the place where reading goes
on: where the span of the placeholder stops. Up to `Span.limit` this is the end of the
placeholder. -/
def next? (source : List Char) (cursor : Cursor) : Option (List Segment × Cursor) :=
  if cursor.rest = [] then none
  else
    match findPlaceholder? cursor.rest with
    | none =>
      some (Segment.plain cursor.position cursor.rest,
        ⟨cursor.position + byteSize cursor.rest, []⟩)
    | some (before, p, after) =>
      let start := cursor.position + byteSize before
      let stop := start + byteSize p.written
      let placeholder := p.locate start
      some (Segment.plain cursor.position before ++ [.placeholder placeholder],
        if placeholder.span.stop = stop then ⟨stop, after⟩ else seek source placeholder.span.stop)

/-- The segments of at most `fuel` steps. -/
def segments (source : List Char) : Nat → Cursor → List Segment
  | 0, _ => []
  | fuel + 1, cursor =>
    match cursor.next? source with
    | none => []
    | some (found, cursor) => found ++ segments source fuel cursor

end Cursor

/-- The segments of a source. Up to `Span.limit` every step takes a character at least, so there are no
more steps than characters. Behind the limit the steps need not end, and this many are taken. -/
def segmentsOf (source : List Char) : List Segment :=
  Cursor.segments source source.length ⟨0, source⟩

/-- The placeholders of a source, in order. -/
def placeholdersOf (source : List Char) : List Placeholder :=
  (segmentsOf source).filterMap Segment.placeholder?

end StyleTemplate
