/-! Paths as they are written: names between slashes. Comparison looks at the names, so doubled
slashes and dots between them make no difference. -/

namespace StyleTemplate

structure Path where
  text : String
deriving DecidableEq, Repr, Inhabited

/-- One step of a path. -/
inductive PathStep where
  | root
  | here
  | up
  | name (s : String)
deriving DecidableEq, Repr

/-- The root comes first, then `.`, then `..`, then names. -/
def PathStep.rank : PathStep → Nat
  | root => 0
  | here => 1
  | up => 2
  | name _ => 3

/-- Steps in ascending order. -/
def PathStep.compare : PathStep → PathStep → Ordering
  | name s, name t => Ord.compare s t
  | s, t => Ord.compare s.rank t.rank

namespace Path

def isAbsolute (p : Path) : Bool := p.text.toList.head? == some '/'

/-- The pieces between the slashes, empty ones included. -/
def pieces (p : Path) : List String := (p.text.toList.splitOn '/').map String.ofList

/-- A relative path taken from `base`; an absolute one stays what it is. -/
def join (base path : Path) : Path :=
  if path.isAbsolute || base.text.isEmpty then path
  else if base.text.toList.getLast? == some '/' then ⟨base.text ++ path.text⟩
  else ⟨base.text ++ "/" ++ path.text⟩

/-- Whether a piece between slashes is no step. -/
def isIdle (piece : String) : Bool := piece.isEmpty || piece == "."

def stepOf (piece : String) : PathStep := if piece = ".." then .up else .name piece

/-- The steps of a path. A dot counts only at the very beginning. -/
def steps (p : Path) : List PathStep :=
  let first := if p.isAbsolute then [.root] else if p.pieces.head? = some "." then [.here] else []
  first ++ (p.pieces.filter (!isIdle ·)).map stepOf

/-- Paths in ascending order of their steps. -/
def compare (p q : Path) : Ordering := go p.steps q.steps
where
  go : List PathStep → List PathStep → Ordering
    | [], [] => .eq
    | [], _ :: _ => .lt
    | _ :: _, [] => .gt
    | s :: ss, t :: ts => (s.compare t).then (go ss ts)

/-- The last name, unless the path ends in `..` or has no names. -/
def fileName? (p : Path) : Option String :=
  match p.steps.getLast? with
  | some (.name s) => some s
  | _ => none

/-- The parts before and after the last dot of a file name; a leading dot does not count. -/
def splitExtension (name : String) : String × Option String :=
  match ((name.toList.splitOn '.').map String.ofList).reverse with
  | last :: front :: more =>
    if more.isEmpty && front.isEmpty then (name, none)
    else (".".intercalate (front :: more).reverse, some last)
  | _ => (name, none)

def stem? (p : Path) : Option String := p.fileName?.map fun name => (splitExtension name).1

def extension? (p : Path) : Option String :=
  p.fileName?.bind fun name => (splitExtension name).2

private def dropSteps : List PathStep → List String → Option (List String)
  | [], pieces => some pieces
  | _ :: _, [] => none
  | step :: steps, piece :: pieces =>
    if isIdle piece then dropSteps (step :: steps) pieces
    else if stepOf piece = step then dropSteps steps pieces
    else none
termination_by steps pieces => steps.length + pieces.length

/-- The path from below `base` on, if it leads through `base`. -/
def relativeTo? (p base : Path) : Option Path :=
  if p.steps.head? = base.steps.head? then
    (dropSteps (base.steps.filter (· ≠ .root)) p.pieces).map fun rest =>
      ⟨"/".intercalate
        (((rest.dropWhile isIdle).reverse.dropWhile isIdle).reverse)⟩
  else none

end Path

end StyleTemplate
