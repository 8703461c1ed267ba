import StyleTemplate.Table

/-! Compiled bodies kept by handle until they are cleared. -/

namespace StyleTemplate

structure Cache where
  bodies : Table String

namespace Cache

def empty : Cache := ⟨∅⟩

def get? (c : Cache) (handle : String) : Option String := c.bodies.get? handle

/-- Keeps a body, in place of an earlier one. -/
def update (c : Cache) (handle body : String) : Cache := ⟨c.bodies.insert handle body⟩

/-- Forgets a body, and tells whether there was one. -/
def clear (c : Cache) (handle : String) : Bool × Cache :=
  (c.bodies.contains handle, ⟨c.bodies.erase handle⟩)

@[simp] theorem get?_update (c : Cache) (handle other body : String) :
    (c.update handle body).get? other = if other = handle then some body else c.get? other :=
  Table.get?_insert ..

@[simp] theorem get?_clear (c : Cache) (handle other : String) :
    (c.clear handle).2.get? other = if other = handle then none else c.get? other :=
  Table.get?_erase ..

end Cache

end StyleTemplate
