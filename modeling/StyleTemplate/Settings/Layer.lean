import StyleTemplate.Value

/-! Settings come in layers. A mapping is put over a mapping key by key at every depth; anything
else replaces what is below, except that an empty mapping changes no value that is already there.
The names at the top of a layer may be paths into the settings, such as `a.b[2]`. -/

namespace StyleTemplate

mutual
/-- A value put over one that a lower layer has; `undefined` stands for no value. -/
def Value.layer (below : Value) : Value → Value
  | .mapping above =>
    match below with
    | .mapping entries => .mapping (above.layerInto entries)
    | .undefined => .mapping above
    | other =>
      match above.toList with
      | [] => other
      | _ :: _ => .mapping above
  | above => above

/-- Every entry put over the entry of the same key in `below`. -/
def Entries.layerInto {previous : Option String} :
    Entries previous → Entries none → Entries none
  | .nil, below => below
  | .cons key _ value rest, below =>
    rest.layerInto (below.update key trivial fun
      | none => value
      | some old => old.layer value)
end

namespace Settings

/-- One step of a path into the settings. A negative position counts from the end. -/
inductive Step where
  | key (name : String)
  | position (index : Int)
deriving DecidableEq, Repr

namespace Step

def isNameChar (c : Char) : Bool := c.isAlphanum || c == '_' || c == '-'

/-- A name at the start of a text, and what follows. -/
def readName? (cs : List Char) : Option (String × List Char) :=
  let name := cs.takeWhile isNameChar
  if name = [] then none else some (String.ofList name, cs.dropWhile isNameChar)

theorem length_readName? {cs : List Char} {name : String} {rest : List Char}
    (h : readName? cs = some (name, rest)) : rest.length < cs.length := by
  unfold readName? at h
  have hsplit := congrArg List.length (List.takeWhile_append_dropWhile (p := isNameChar) (l := cs))
  simp only at h
  split at h
  · exact nomatch h
  · rename_i hne
    have := List.length_pos_iff.mpr hne
    simp only [Option.some.injEq, Prod.mk.injEq] at h
    rw [List.length_append] at hsplit
    rw [← h.2]
    omega

def isGap (c : Char) : Bool := c == ' ' || c == '\t'

/-- A whole number of 64 bits in front of a closing bracket, with gaps on both sides, and what
follows the bracket. -/
def readPosition? (cs : List Char) : Option (Int × List Char) :=
  let (negative, unsigned) := Decimal.splitSign (cs.dropWhile isGap)
  let digits := unsigned.takeWhile Char.isDigit
  match (unsigned.dropWhile Char.isDigit).dropWhile isGap with
  | ']' :: rest =>
    if digits = [] then none
    else (Decimal.toInt64? (Decimal.signed negative digits)).map fun n => (n.toInt, rest)
  | _ => none

theorem length_readPosition? {cs : List Char} {index : Int} {rest : List Char}
    (h : readPosition? cs = some (index, rest)) : rest.length < cs.length := by
  unfold readPosition? at h
  have hgap := (List.dropWhile_suffix (l := cs) isGap).length_le
  have hsign : (Decimal.splitSign (cs.dropWhile isGap)).2.length ≤ (cs.dropWhile isGap).length := by
    unfold Decimal.splitSign; split <;> simp_all
  have hdigits := (List.dropWhile_suffix
    (l := (Decimal.splitSign (cs.dropWhile isGap)).2) Char.isDigit).length_le
  have hdrop := (List.dropWhile_suffix
    (l := (Decimal.splitSign (cs.dropWhile isGap)).2.dropWhile Char.isDigit) isGap).length_le
  simp only at h
  split at h
  · rename_i more heq
    split at h
    · exact nomatch h
    · simp only [Option.map_eq_some_iff, Prod.mk.injEq] at h
      obtain ⟨_, _, _, rfl⟩ := h
      rw [heq, List.length_cons] at hdrop
      omega
  · exact nomatch h

/-- The steps after the first name. -/
def readMore? (cs : List Char) : Option (List Step) :=
  match cs with
  | [] => some []
  | '.' :: cs =>
    match h : readName? cs with
    | some (name, rest) =>
      have := length_readName? h
      (readMore? rest).map (key name :: ·)
    | none => none
  | '[' :: cs =>
    match h : readPosition? cs with
    | some (index, rest) =>
      have := length_readPosition? h
      (readMore? rest).map (position index :: ·)
    | none => none
  | _ => none
termination_by cs.length

/-- The path that a name at the top of a layer spells: one step with the whole name if it spells
no path. -/
def ofName (name : String) : List Step :=
  match readName? name.toList with
  | some (first, rest) =>
    match readMore? rest with
    | some steps => key first :: steps
    | none => [key name]
  | none => [key name]

end Step

/-- The place of a position among items, with as many undefined items added as it takes. -/
def reach (items : List Value) (index : Int) : List Value × Nat :=
  if 0 ≤ index then
    (items ++ List.replicate (index.toNat + 1 - items.length) .undefined, index.toNat)
  else
    let fromEnd := index.natAbs
    (List.replicate (fromEnd - items.length) .undefined ++ items, items.length - fromEnd)

/-- A value put at the end of a path. What is no mapping or sequence where the path needs one gives
way to it. -/
def layerAt (above : Value) : List Step → Value → Value
  | [], v => v.layer above
  | .key name :: steps, v =>
    let entries := match v with
      | .mapping entries => entries
      | _ => .nil
    .mapping (entries.update name trivial fun old => layerAt above steps (old.getD .undefined))
  | .position index :: steps, v =>
    let items := match v with
      | .sequence items => items
      | _ => []
    let (items, place) := reach items index
    .sequence (items.modify place (layerAt above steps))

/-- A layer put over all layers below it. -/
def addLayer (below layer : Value) : Value :=
  match layer with
  | .mapping entries =>
    entries.toList.foldl (fun v (name, value) => layerAt value (Step.ofName name) v) below
  | _ => below

end Settings

end StyleTemplate
