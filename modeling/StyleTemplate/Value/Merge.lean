import StyleTemplate.Value

/-! Layered values. Two mappings are merged key by key at every depth; anything else on top
replaces what is below. -/

namespace StyleTemplate

mutual
/-- `overlay` put over `base`. -/
def Value.merge (base : Value) : Value → Value
  | .mapping overlay =>
    match base with
    | .mapping entries => .mapping (overlay.mergeInto entries)
    | _ => .mapping overlay
  | overlay => overlay

/-- Every entry put over the entry of the same key in `base`. -/
def Entries.mergeInto {previous : Option String} : Entries previous → Entries none → Entries none
  | .nil, base => base
  | .cons key _ value rest, base =>
    rest.mergeInto (base.update key trivial fun
      | none => value
      | some below => below.merge value)
end

/-- Layers put one over the other, the last one on top. -/
def Value.mergeAll (base : Value) (layers : List Value) : Value := layers.foldl Value.merge base

end StyleTemplate
