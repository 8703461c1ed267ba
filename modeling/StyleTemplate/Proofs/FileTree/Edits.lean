import StyleTemplate.Proofs.FileTree.Writing

/-! Files that are edited by hand. Edits leave a proper tree proper
(`FileTree.AllowsAll.proper_applyEdits`), they make the directories that they are about and no others
(`FileTree.AllowsAll.isDirectoryAt_applyEdits`), and the same edits in two trees keep the one an extension
of the other (`FileTree.AllowsAll.extends_applyEdits`). -/

namespace StyleTemplate

/-- A file that is given new content, a directory that is made or, without a node, a file that is taken
away. -/
structure Edit where
  location : Location
  node : Option FileNode
deriving DecidableEq, Repr

namespace FileTree

variable {tree before after : FileTree} {edit : Edit} {edits : List Edit} {l : Location}

/-- The tree after an edit. -/
def applyEdit (tree : FileTree) (edit : Edit) : FileTree :=
  match edit.node with
  | some node => tree.put edit.location node
  | none => tree.removeAt edit.location

/-- The tree after edits, one after the other. -/
def applyEdits (tree : FileTree) (edits : List Edit) : FileTree := edits.foldl applyEdit tree

/-- Whether an edit can be made in a tree: it is about a name in a directory, it puts no file in the place
of a directory and no directory in that of a file, and it takes no directory away. -/
structure Allows (tree : FileTree) (edit : Edit) : Prop where
  nonempty : edit.location ≠ []
  names : ∀ name ∈ edit.location, Path.IsName name
  parent : tree.isDirectoryAt edit.location.dropLast
  kind : tree.node? edit.location = none ∨
    (tree.isDirectoryAt edit.location ↔ edit.node = some .directory)

instance (tree : FileTree) (edit : Edit) : Decidable (tree.Allows edit) :=
  decidable_of_iff
    (edit.location ≠ [] ∧ (∀ name ∈ edit.location, Path.IsName name) ∧
      tree.isDirectoryAt edit.location.dropLast ∧ (tree.node? edit.location = none ∨
        (tree.isDirectoryAt edit.location ↔ edit.node = some .directory)))
    ⟨fun ⟨nonempty, names, parent, kind⟩ => ⟨nonempty, names, parent, kind⟩,
      fun h => ⟨h.nonempty, h.names, h.parent, h.kind⟩⟩

/-- Whether edits can be made one after the other. -/
def AllowsAll (tree : FileTree) : List Edit → Prop
  | [] => True
  | edit :: edits => tree.Allows edit ∧ (tree.applyEdit edit).AllowsAll edits

instance decidableAllowsAll (tree : FileTree) : (edits : List Edit) → Decidable (tree.AllowsAll edits)
  | [] => .isTrue trivial
  | edit :: edits =>
    have := decidableAllowsAll (tree.applyEdit edit) edits
    inferInstanceAs (Decidable (tree.Allows edit ∧ (tree.applyEdit edit).AllowsAll edits))

/-! ### One edit -/

theorem node?_applyEdit (hne : edit.location ≠ []) :
    (tree.applyEdit edit).node? l = if l = edit.location then edit.node else tree.node? l := by
  unfold applyEdit
  cases edit.node with
  | some node => exact node?_put hne
  | none => exact node?_removeAt hne

namespace Allows

/-- An edit makes no directory but the one that it is about, and takes none away. -/
theorem isDirectoryAt_applyEdit (h : tree.Allows edit) (l : Location) :
    (tree.applyEdit edit).isDirectoryAt l =
      (tree.isDirectoryAt l || decide (edit = ⟨l, some .directory⟩)) := by
  obtain ⟨location, node⟩ := edit
  rw [isDirectoryAt, node?_applyEdit h.nonempty, isDirectoryAt]
  by_cases heq : l = location
  · subst heq
    rw [if_pos rfl]
    rcases h.kind with hnone | hkind
    · simp [hnone]
    · rw [isDirectoryAt_iff] at hkind
      simp [hkind]
  · simp [heq, Ne.symm heq]

theorem proper_applyEdit (h : tree.Allows edit) (hproper : tree.Proper) :
    (tree.applyEdit edit).Proper := by
  have hlocation : edit.location = edit.location.dropLast ++ [edit.location.getLast h.nonempty] :=
    (List.dropLast_concat_getLast h.nonempty).symm
  have hname := h.names _ (List.getLast_mem h.nonempty)
  unfold FileTree.applyEdit
  cases hnode : edit.node with
  | some node =>
    rw [hlocation]
    refine hproper.put h.parent hname ?_
    rw [← hlocation]
    rcases h.kind with hnone | hkind
    · exact .inr (by simp [isDirectoryAt, hnone])
    · cases node with
      | directory => exact .inl rfl
      | file content => exact .inr (by simpa [hnode] using hkind)
  | none =>
    refine hproper.removeAt ?_
    rcases h.kind with hnone | hkind
    · simp [isDirectoryAt, hnone]
    · simpa [hnode] using hkind

/-- The same edit in two trees. -/
theorem extends_applyEdit (hbefore : before.Allows edit) (hafter : after.Allows edit)
    (h : Extends before after) : Extends (before.applyEdit edit) (after.applyEdit edit) := by
  refine ⟨fun l hl => ?_, fun l content hl => ?_, fun l hl => ?_⟩
  · rw [hbefore.isDirectoryAt_applyEdit, Bool.or_eq_true] at hl
    rw [hafter.isDirectoryAt_applyEdit, Bool.or_eq_true]
    exact hl.imp_left (h.directories l)
  · rw [node?_applyEdit hbefore.nonempty] at hl ⊢
    split
    · rename_i heq
      rw [if_pos heq] at hl
      exact ⟨content, hl⟩
    · rename_i hne
      rw [if_neg hne] at hl
      exact h.files l content hl
  · rw [node?_applyEdit hbefore.nonempty, node?_applyEdit hbefore.nonempty]
    split
    · exact .inl rfl
    · exact h.others l hl

end Allows

/-! ### Several edits -/

namespace AllowsAll

/-- Edits make no directories but those that they are about, and take none away. -/
theorem isDirectoryAt_applyEdits (h : tree.AllowsAll edits) (l : Location) :
    (tree.applyEdits edits).isDirectoryAt l =
      (tree.isDirectoryAt l || decide (⟨l, some .directory⟩ ∈ edits)) := by
  induction edits generalizing tree with
  | nil => simp [applyEdits]
  | cons edit edits ih =>
    obtain ⟨hfirst, hrest⟩ := h
    refine (ih hrest).trans ?_
    rw [hfirst.isDirectoryAt_applyEdit, Bool.or_assoc]
    simp [List.mem_cons, eq_comm]

theorem proper_applyEdits (h : tree.AllowsAll edits) (hproper : tree.Proper) :
    (tree.applyEdits edits).Proper := by
  induction edits generalizing tree with
  | nil => exact hproper
  | cons edit edits ih => exact ih h.2 (h.1.proper_applyEdit hproper)

/-- The same edits in two trees. -/
theorem extends_applyEdits (hbefore : before.AllowsAll edits) (hafter : after.AllowsAll edits)
    (h : Extends before after) : Extends (before.applyEdits edits) (after.applyEdits edits) := by
  induction edits generalizing before after with
  | nil => exact h
  | cons edit edits ih => exact ih hbefore.2 hafter.2 (hbefore.1.extends_applyEdit hafter.1 h)

end AllowsAll

end FileTree

end StyleTemplate
