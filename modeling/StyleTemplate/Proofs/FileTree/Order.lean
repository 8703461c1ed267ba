import Mathlib.Data.List.Nodup
import StyleTemplate.FileTree.Walk

/-! The order of paths. Paths are compared step by step, so that paths with the same steps count as one
(`Path.compare_eq_iff`). The stylesheets that paths stand for come in strictly ascending order
(`FileTree.pairwise_stylesheets`), each one that was found once (`FileTree.exists_mem_stylesheets`). -/

namespace StyleTemplate

namespace PathStep

/-- The name of a step that has one. -/
private def text : PathStep → String
  | name s => s
  | _ => ""

private theorem compare_eq_compareLex :
    PathStep.compare = compareLex (compareOn rank) (compareOn text) := by
  funext s t
  cases s <;> cases t <;> rfl

instance : Std.TransCmp PathStep.compare := compare_eq_compareLex ▸ inferInstance

instance : Std.LawfulEqCmp PathStep.compare where
  compare_self := Std.ReflCmp.compare_self
  eq_of_compare {s t} h := by
    rw [compare_eq_compareLex, compareLex_eq_eq] at h
    obtain ⟨hrank, htext⟩ := h
    have hrank : s.rank = t.rank := Std.compare_eq_iff_eq.mp hrank
    have htext : s.text = t.text := Std.compare_eq_iff_eq.mp htext
    cases s <;> cases t <;> simp_all [rank, text]

end PathStep

namespace Path

variable {p q r : Path}

theorem compare_eq_compareLex : p.compare q = List.compareLex PathStep.compare p.steps q.steps := by
  rw [Path.compare]
  generalize p.steps = ss
  generalize q.steps = ts
  induction ss generalizing ts with
  | nil => cases ts <;> rfl
  | cons s ss ih =>
    cases ts with
    | nil => rfl
    | cons t ts => rw [compare.go, List.compareLex_cons_cons, ih]

instance : Std.TransCmp Path.compare where
  eq_swap := by
    simp only [compare_eq_compareLex]
    exact Std.OrientedCmp.eq_swap
  isLE_trans := by
    simp only [compare_eq_compareLex]
    exact Std.TransCmp.isLE_trans

/-- Paths that compare as equal have the same steps. -/
theorem compare_eq_iff : p.compare q = .eq ↔ p.steps = q.steps := by
  rw [compare_eq_compareLex, Std.LawfulEqCmp.compare_eq_iff_eq]

end Path

namespace FileTree

variable {paths : List Path} {p : Path}

private theorem dropRepeated_sublist (paths : List Path) : (dropRepeated paths).Sublist paths := by
  induction paths with
  | nil => exact .slnil
  | cons p paths ih =>
    rw [dropRepeated]
    refine List.Sublist.cons_cons p ?_
    split
    · rename_i q qs heq
      rw [heq] at ih
      split
      · exact (List.sublist_cons_self q qs).trans ih
      · exact ih
    · exact List.nil_sublist _

private theorem pairwise_dropRepeated (h : paths.Pairwise fun p q => p.compare q ≠ .gt) :
    (dropRepeated paths).Pairwise fun p q => p.compare q = .lt := by
  induction paths with
  | nil => exact .nil
  | cons p paths ih =>
    obtain ⟨hfirst, hrest⟩ := List.pairwise_cons.mp h
    have hsorted := ih hrest
    have hmem := (dropRepeated_sublist paths).subset
    rw [dropRepeated]
    split
    · rename_i q qs heq
      rw [heq] at hsorted hmem
      obtain ⟨hq, hqs⟩ := List.pairwise_cons.mp hsorted
      split
      · rename_i hequal
        exact List.pairwise_cons.mpr ⟨fun r hr => Std.TransCmp.lt_of_eq_of_lt hequal (hq r hr), hqs⟩
      · rename_i hne
        have hlt : p.compare q = .lt := by
          have hgt := hfirst q (hmem List.mem_cons_self)
          cases hcompare : p.compare q <;> simp_all
        refine List.pairwise_cons.mpr ⟨fun r hr => ?_, hsorted⟩
        rcases List.mem_cons.mp hr with rfl | hr
        · exact hlt
        · exact Std.TransCmp.lt_trans hlt (hq r hr)
    · exact List.pairwise_singleton _ p

private theorem exists_mem_dropRepeated (hp : p ∈ paths) :
    ∃ q ∈ dropRepeated paths, q.steps = p.steps := by
  induction paths with
  | nil => exact nomatch hp
  | cons first paths ih =>
    rw [dropRepeated]
    rcases List.mem_cons.mp hp with rfl | hp
    · exact ⟨p, List.mem_cons_self, rfl⟩
    · obtain ⟨q, hq, hsteps⟩ := ih hp
      split
      · rename_i other others heq
        rw [heq] at hq
        split
        · rename_i hequal
          rcases List.mem_cons.mp hq with rfl | hq
          · exact ⟨first, List.mem_cons_self, (Path.compare_eq_iff.mp hequal).trans hsteps⟩
          · exact ⟨q, List.mem_cons_of_mem _ hq, hsteps⟩
        · exact ⟨q, List.mem_cons_of_mem _ hq, hsteps⟩
      · rename_i heq
        rw [heq] at hq
        exact nomatch hq

variable {tree : FileTree} {roots : List Path}

/-- The stylesheets come in the order of their paths, and no two of them are the same path. -/
theorem pairwise_stylesheets (tree : FileTree) (roots : List Path) :
    (tree.stylesheets roots).Pairwise fun p q => p.compare q = .lt := by
  refine pairwise_dropRepeated ((List.pairwise_mergeSort ?_ ?_ _).imp fun h => by simpa using h)
  · intro p q r hpq hqr
    have hpr : (p.compare q).isLE → (q.compare r).isLE → (p.compare r).isLE := Std.TransCmp.isLE_trans
    simp_all [Ordering.isLE_iff_ne_gt]
  · intro p q
    have hswap : q.compare p = (p.compare q).swap := Std.OrientedCmp.eq_swap
    rw [hswap]
    cases p.compare q <;> rfl

/-- They were found under one of the roots. -/
theorem mem_of_mem_stylesheets (hp : p ∈ tree.stylesheets roots) :
    ∃ root ∈ roots, p ∈ tree.stylesheetsAt root := by
  have hmem := (dropRepeated_sublist _).subset hp
  exact List.mem_flatMap.mp (List.mem_mergeSort.mp hmem)

/-- What is found under a root is among them. -/
theorem exists_mem_stylesheets {root : Path} (hroot : root ∈ roots) (hp : p ∈ tree.stylesheetsAt root) :
    ∃ q ∈ tree.stylesheets roots, q.steps = p.steps :=
  exists_mem_dropRepeated (List.mem_mergeSort.mpr (List.mem_flatMap.mpr ⟨root, hroot, hp⟩))

/-- They are stylesheets by their names. -/
theorem isStylesheet_of_mem_stylesheetsAt {path : Path} (hp : p ∈ tree.stylesheetsAt path) :
    p.isStylesheet := by
  unfold stylesheetsAt at hp
  split at hp
  · split at hp
    · rename_i hsheet
      rwa [List.mem_singleton.mp hp]
    · exact nomatch hp
  · split at hp
    · unfold stylesheetsBelow at hp
      split at hp
      · exact nomatch hp
      · exact (List.mem_filter.mp hp).2
    · exact nomatch hp

end FileTree

end StyleTemplate
