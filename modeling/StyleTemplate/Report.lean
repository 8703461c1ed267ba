import StyleTemplate.Report.Excerpt
import StyleTemplate.Severity
import StyleTemplate.Span

/-! Reports of problems for people: a heading, where the problem is, the source around it, and
notes. -/

namespace StyleTemplate

/-- How a report is headed. -/
inductive Heading where
  | error | warning | info | help
deriving DecidableEq, Repr

namespace Heading

def name : Heading → String
  | error => "error"
  | warning => "warning"
  | info => "info"
  | help => "help"

end Heading

/-- The heading of a severity; what is off is not reported. -/
def Severity.heading? : Severity → Option Heading
  | off => none
  | error => some .error
  | warning => some .warning
  | info => some .info
  | hint => some .help

/-- A problem in a source. -/
structure Report where
  heading : Heading
  code : String
  message : String
  path : String
  source : String
  span : Span
  label : String
  notes : List String
deriving DecidableEq, Repr

namespace Report

/-- The lines of a text behind a lead; blanks as wide as the lead stand in front of all but the
first. -/
def hang (lead text : List Char) : List (List Char) :=
  match text.splitOn '\n' with
  | [] => [lead]
  | first :: rest => (lead ++ first) :: rest.map (List.replicate lead.length ' ' ++ ·)

/-- The excerpt that a report shows. A span that reaches past the end of the source is cut short. -/
def excerpt (r : Report) : Excerpt :=
  let source := r.source.toList
  let stop := min r.span.stop (Text.byteSize source)
  .ofBytes source (min r.span.start stop) stop r.label.toList

def headingRows (r : Report) : List (List Char) :=
  hang (r.heading.name ++ "[" ++ r.code ++ "]: ").toList (Text.visible r.message.toList)

/-- The row that tells where the problem is. -/
def placeRow (r : Report) : List Char :=
  let e := r.excerpt
  List.replicate e.numberWidth ' ' ++
    ("--> " ++ r.path ++ ":" ++ toString e.start.line ++ ":" ++
      toString (e.start.character + 1)).toList

def noteRows (r : Report) : List (List Char) :=
  if r.notes.isEmpty then []
  else
    let e := r.excerpt
    let lead := List.replicate (e.numberWidth + 1) ' ' ++ "= note: ".toList
    e.edge :: r.notes.flatMap fun note => hang lead note.toList

/-- The rows of a report. -/
def rows (r : Report) : List (List Char) :=
  let e := r.excerpt
  r.headingRows ++ [r.placeRow, e.edge] ++ e.rows ++ r.noteRows

/-- A report as it is printed. -/
def text (r : Report) : String := "\n".intercalate (r.rows.map String.ofList)

end Report

end StyleTemplate
