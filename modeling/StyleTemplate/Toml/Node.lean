import StyleTemplate.Value

/-! Tables of a TOML document while it is read. A table remembers how it came into being, which
decides what may still be added to it. -/

namespace StyleTemplate.Toml

/-- How a table came into being. -/
inductive Form where
  /-- In the path of a header. -/
  | implied
  /-- In the path of a dotted key. -/
  | dotted
  /-- By a header of its own. -/
  | header
  /-- Between braces; nothing can be added to it. -/
  | inline
deriving DecidableEq, Repr

mutual
/-- What stands under a key. -/
inductive Node where
  | leaf (v : Value)
  | table (form : Form) (fields : Fields)
  | tables (tables : Tables)

/-- The entries of a table in the order in which they were written. -/
inductive Fields where
  | nil
  | cons (key : String) (node : Node) (rest : Fields)

/-- An array of tables, the last one first. -/
inductive Tables where
  | one (fields : Fields)
  | more (last : Fields) (earlier : Tables)
end

mutual
def Node.toValue : Node → Value
  | .leaf v => v
  | .table _ fields => .ofPairs fields.toPairs
  | .tables tables => .sequence tables.toValues.reverse

def Fields.toPairs : Fields → List (String × Value)
  | .nil => []
  | .cons key node rest => (key, node.toValue) :: rest.toPairs

def Tables.toValues : Tables → List Value
  | .one fields => [.ofPairs fields.toPairs]
  | .more last earlier => .ofPairs last.toPairs :: earlier.toValues
end

namespace Tables

def last : Tables → Fields
  | one fields => fields
  | more last _ => last

def setLast (fields : Fields) : Tables → Tables
  | one _ => one fields
  | more _ earlier => more fields earlier

end Tables

namespace Fields

def get? (key : String) : Fields → Option Node
  | nil => none
  | cons k node rest => if k = key then some node else rest.get? key

/-- Puts a node under a key, at the end if the key is new. -/
def put (key : String) (node : Node) : Fields → Fields
  | nil => cons key node nil
  | cons k old rest => if k = key then cons k node rest else cons k old (rest.put key node)

/-- Changes the table that a path leads to. Tables on the way are made as they are needed; for an
array of tables the way goes through its last one. A dotted key does not lead through a table
that has a header. -/
def changeAt (byDots : Bool) (change : Form → Fields → Option Fields) (form : Form)
    (fields : Fields) : List String → Option Fields
  | [] => change form fields
  | key :: path =>
    match fields.get? key with
    | none =>
      let form : Form := if byDots then .dotted else .implied
      (changeAt byDots change form nil path).map fun below => fields.put key (.table form below)
    | some (.leaf _) => none
    | some (.table below inner) =>
      if below = .inline ∨ (byDots ∧ below = .header) then none
      else (changeAt byDots change below inner path).map fun inner =>
        fields.put key (.table below inner)
    | some (.tables ts) =>
      (changeAt byDots change .header ts.last path).map fun inner =>
        fields.put key (.tables (ts.setLast inner))

/-- Adds a key that is not there yet. -/
def addNew? (key : String) (node : Node) (fields : Fields) : Option Fields :=
  match fields.get? key with
  | none => some (fields.put key node)
  | some _ => none

/-- Adds a node under a dotted key. The tables of its path must come from dotted keys alone. -/
def addDotted? (path : List String) (key : String) (node : Node) (fields : Fields) :
    Option Fields :=
  fields.changeAt true (fun form inner =>
    if path ≠ [] ∧ form ≠ .dotted then none else inner.addNew? key node) .header path

/-- Opens the table of a header. -/
def openTable? (path : List String) (key : String) (fields : Fields) : Option Fields :=
  fields.changeAt false (fun _ inner =>
    match inner.get? key with
    | none => some (inner.put key (.table .header nil))
    | some (.table .implied below) => some (inner.put key (.table .header below))
    | some _ => none) .header path

/-- Opens the next table of an array of tables. -/
def openNext? (path : List String) (key : String) (fields : Fields) : Option Fields :=
  fields.changeAt false (fun _ inner =>
    match inner.get? key with
    | none => some (inner.put key (.tables (.one nil)))
    | some (.tables ts) => some (inner.put key (.tables (.more nil ts)))
    | some _ => none) .header path

end Fields

end StyleTemplate.Toml
