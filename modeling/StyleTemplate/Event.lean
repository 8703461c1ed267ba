import StyleTemplate.Text.Escape

/-! What the program tells about its work while it goes on, one line for each event. -/

namespace StyleTemplate

/-- How important an event is, most important first. -/
inductive Level where
  | error | warn | info | debug | trace
deriving DecidableEq, Repr

namespace Level

def rank : Level → Nat
  | error => 0
  | warn => 1
  | info => 2
  | debug => 3
  | trace => 4

/-- The name of a level, five columns wide. -/
def column : Level → String
  | error => "ERROR"
  | warn => " WARN"
  | info => " INFO"
  | debug => "DEBUG"
  | trace => "TRACE"

/-- Whether events of this level are told when `threshold` is the least important level told. -/
def passes (level threshold : Level) : Bool := level.rank ≤ threshold.rank

end Level

/-- The value of a field of an event. -/
inductive FieldValue where
  | text (s : String)
  | number (n : Nat)
  | flag (b : Bool)
deriving DecidableEq, Repr

def FieldValue.shown : FieldValue → String
  | text s => Text.quoted s
  | number n => toString n
  | flag b => if b then "true" else "false"

/-- An event: the part of the program that tells it, the message, and named values. -/
structure Event where
  level : Level
  target : String
  message : String
  fields : List (String × FieldValue)
deriving DecidableEq, Repr

/-- The line of an event, with or without the part of the program that tells it. -/
def Event.line (e : Event) (withTarget : Bool) : String :=
  e.level.column ++ " " ++ (if withTarget then e.target ++ ": " else "") ++
    Text.harmless e.message ++
    String.join (e.fields.map fun (name, value) => " " ++ name ++ "=" ++ value.shown)

end StyleTemplate
