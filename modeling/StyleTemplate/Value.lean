import StyleTemplate.Literal

/-! Values that flow from variables through filters into the output. A mapping keeps its keys in
ascending order by construction: every entry carries the proof that its key follows the one
before it. -/

namespace StyleTemplate

/-- Whether `key` may stand after `previous` in a mapping; any key may stand first. -/
def Follows : Option String → String → Prop
  | none, _ => True
  | some previous, key => previous < key

mutual
inductive Value where
  | undefined
  | boolean (b : Bool)
  | integer (n : Int64)
  | float (x : Float)
  | string (s : String)
  | sequence (items : List Value)
  | mapping (entries : Entries none)

/-- The entries of a mapping whose keys all follow `previous`. -/
inductive Entries : Option String → Type where
  | nil {previous : Option String} : Entries previous
  | cons {previous : Option String} (key : String) (follows : Follows previous key)
      (value : Value) (rest : Entries (some key)) : Entries previous
end

instance : Inhabited Value := ⟨.undefined⟩

/-- What sort of value a value is. -/
inductive Kind where
  | undefined | boolean | integer | float | string | sequence | mapping
deriving DecidableEq, Repr

namespace Kind

def name : Kind → String
  | undefined => "undefined"
  | boolean => "boolean"
  | integer => "integer"
  | float => "float"
  | string => "string"
  | sequence => "sequence"
  | mapping => "mapping"

/-- The article that the name takes in a sentence. -/
def article : Kind → String
  | undefined | integer => "an"
  | _ => "a"

end Kind

/-- A subscript that cannot be followed: the key, and the kind of value it was applied to. -/
structure TraversalError where
  key : String
  kind : Kind
deriving DecidableEq, Repr

def TraversalError.message (e : TraversalError) : String :=
  "cannot index into " ++ e.kind.article ++ " " ++ e.kind.name ++ " with key '" ++ e.key ++ "'"

namespace Entries

/-- The value under a key. -/
def get? {previous : Option String} (key : String) : Entries previous → Option Value
  | nil => none
  | cons k _ value rest => if key = k then some value else rest.get? key

/-- The entries in the order of their keys. -/
def toList {previous : Option String} : Entries previous → List (String × Value)
  | nil => []
  | cons key _ value rest => (key, value) :: rest.toList

private theorem lt_of_not {key k : String} (hne : ¬key = k) (hlt : ¬key < k) : k < key := by
  grind

/-- Replaces the value under `key` by what `change` makes of the present one, if any. -/
def update {previous : Option String} (key : String) (follows : Follows previous key)
    (change : Option Value → Value) : Entries previous → Entries previous
  | nil => cons key follows (change none) nil
  | cons k hk value rest =>
    if he : key = k then cons k hk (change (some value)) rest
    else if hlt : key < k then cons key follows (change none) (cons k hlt value rest)
    else cons k hk value (rest.update key (lt_of_not he hlt) change)

/-- Puts a value under a key, in place of an earlier one. -/
def insert (entries : Entries none) (key : String) (value : Value) : Entries none :=
  entries.update key trivial fun _ => value

/-- Entries from pairs, a later pair replacing an earlier one of the same key. -/
def ofList (pairs : List (String × Value)) : Entries none :=
  pairs.foldl (fun entries (key, value) => entries.insert key value) nil

end Entries

namespace Value

/-- The mapping of a list of pairs, a later pair replacing an earlier one of the same key. -/
def ofPairs (pairs : List (String × Value)) : Value := mapping (Entries.ofList pairs)

def kind : Value → Kind
  | undefined => .undefined
  | boolean _ => .boolean
  | integer _ => .integer
  | float _ => .float
  | string _ => .string
  | sequence _ => .sequence
  | mapping _ => .mapping

def isUndefined : Value → Bool
  | undefined => true
  | _ => false

/-- Undefined, or the empty string. -/
def isEmpty : Value → Bool
  | undefined => true
  | string s => s.isEmpty
  | _ => false

/-- The position that a key denotes in a sequence: decimal digits, with an optional plus sign, of
a number in an unsigned word of 64 bits. -/
def positionOf? (key : String) : Option Nat :=
  let digits := match key.toList with
    | '+' :: cs => cs
    | cs => cs
  if Decimal.isDigits digits && Decimal.valueOf digits ≤ Decimal.maxWord then
    some (Decimal.valueOf digits)
  else none

/-- One subscript. What is missing is undefined, and so is everything below the undefined value;
a scalar cannot be subscripted. -/
def get (v : Value) (key : String) : Except TraversalError Value :=
  match v with
  | undefined => .ok undefined
  | mapping entries => .ok ((entries.get? key).getD undefined)
  | sequence items =>
    match positionOf? key with
    | some position => .ok (items[position]?.getD undefined)
    | none => .error ⟨key, v.kind⟩
  | _ => .error ⟨key, v.kind⟩

/-- A path of subscripts, from the left. -/
def traverse (v : Value) : List String → Except TraversalError Value
  | [] => .ok v
  | key :: path =>
    match v.get key with
    | .ok below => below.traverse path
    | .error e => .error e

/-- The text written for a value. Sequences and mappings have none. -/
def render? : Value → Option String
  | undefined => some ""
  | boolean b => some (if b then "true" else "false")
  | integer n => some (toString n.toInt)
  | float x => some (Decimal.ofFloat x)
  | string s => some s
  | sequence _ | mapping _ => none

/-- The text written for a value, empty for one that has none. -/
def text (v : Value) : String := v.render?.getD ""

/-- The texts of two values in one string. -/
def concat (v other : Value) : Value := string (v.text ++ other.text)

def ofLiteral : Literal → Value
  | .string s => string s
  | .boolean b => boolean b
  | .integer n => integer n
  | .float x => float x

end Value

end StyleTemplate
