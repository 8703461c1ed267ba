import StyleTemplate.Proofs.FileTree.Paths

/-! Writing into a tree of files. Directories that are made and files that are written leave a proper
tree proper (`FileTree.Proper`), and they take nothing away: a directory stays one, and so does a file. -/

namespace StyleTemplate.FileTree

variable {tree before after : FileTree} {here l l' : Location} {node : FileNode}
  {pieces : List String} {path : Path}

/-! ### Nodes -/

theorem node?_nil : tree.node? [] = some .directory := if_pos rfl

@[simp] theorem isDirectoryAt_nil : tree.isDirectoryAt [] = true := by
  simp [isDirectoryAt, node?_nil]

theorem isDirectoryAt_iff : tree.isDirectoryAt l ↔ tree.node? l = some .directory := by
  rw [isDirectoryAt, decide_eq_true_iff]

theorem isDirectory_mono (h : ∀ l, before.isDirectoryAt l → after.isDirectoryAt l)
    (hdirectory : before.isDirectory path) : after.isDirectory path := by
  obtain ⟨l, hl, hnode⟩ := Option.bind_eq_some_iff.mp (of_decide_eq_true hdirectory)
  have hopen := isDirectoryAt_iff.mp (h l (isDirectoryAt_iff.mpr hnode))
  rw [isDirectory, nodeAt?, locate?_mono h hl, Option.bind_some, hopen]
  rfl

private theorem lookup_putNode (nodes : List (Location × FileNode)) :
    (putNode l node nodes).lookup l' = if l' = l then some node else nodes.lookup l' := by
  induction nodes with
  | nil => grind [putNode]
  | cons n nodes ih => grind [putNode]

theorem node?_put (hl : l ≠ []) :
    (tree.put l node).node? l' = if l' = l then some node else tree.node? l' := by
  rw [node?, node?, put, lookup_putNode]
  grind

theorem isDirectoryAt_put (hl : l ≠ []) :
    (tree.put l node).isDirectoryAt l' =
      if l' = l then decide (node = .directory) else tree.isDirectoryAt l' := by
  rw [isDirectoryAt, node?_put hl]
  split
  · simp
  · rfl

/-- A file in place of no directory makes and removes none. -/
theorem isDirectoryAt_put_file (hfree : tree.isDirectoryAt l = false) (content : String) (l' : Location) :
    (tree.put l (.file content)).isDirectoryAt l' = tree.isDirectoryAt l' := by
  have hl : l ≠ [] := by
    rintro rfl
    simp at hfree
  rw [isDirectoryAt_put hl]
  split
  · rename_i heq
    rw [heq, hfree]
    rfl
  · rfl

/-- What is put in place of no directory, or is one, takes no directory away. -/
theorem isDirectoryAt_put_of (hl : l ≠ [])
    (hnode : node = .directory ∨ tree.isDirectoryAt l = false) (hl' : tree.isDirectoryAt l') :
    (tree.put l node).isDirectoryAt l' := by
  rw [isDirectoryAt_put hl]
  split
  · rename_i heq
    rcases hnode with rfl | hnone
    · rfl
    · rw [← heq, hl'] at hnone
      exact nomatch hnone
  · exact hl'

/-- The locations of nodes. -/
def locations (tree : FileTree) : List Location := tree.nodes.map (·.1)

private theorem keys_putNode (nodes : List (Location × FileNode)) :
    (putNode l node nodes).map (·.1) =
      if l ∈ nodes.map (·.1) then nodes.map (·.1) else nodes.map (·.1) ++ [l] := by
  induction nodes with
  | nil => simp [putNode]
  | cons n nodes ih =>
    rw [putNode]
    split
    · rename_i heq
      simp [heq]
    · rename_i hne
      rw [List.map_cons, ih]
      by_cases hmem : l ∈ nodes.map (·.1)
      · rw [if_pos hmem, List.map_cons, if_pos (List.mem_cons_of_mem _ hmem)]
      · have hnew : l ∉ (n :: nodes).map (·.1) := by
          rw [List.map_cons, List.mem_cons, not_or]
          exact ⟨Ne.symm hne, hmem⟩
        rw [if_neg hmem, if_neg hnew]
        rfl

theorem locations_put : (tree.put l node).locations =
    if l ∈ tree.locations then tree.locations else tree.locations ++ [l] := keys_putNode _

theorem mem_locations_put (hl' : l' ∈ (tree.put l node).locations) : l' ∈ tree.locations ∨ l' = l := by
  rw [locations_put] at hl'
  split at hl'
  · exact .inl hl'
  · simpa using hl'

private theorem lookup_filter_ne (nodes : List (Location × FileNode)) :
    (nodes.filter (·.1 ≠ l)).lookup l' = if l' = l then none else nodes.lookup l' := by
  induction nodes with
  | nil => simp
  | cons n nodes ih => grind

theorem node?_removeAt (hl : l ≠ []) :
    (tree.removeAt l).node? l' = if l' = l then none else tree.node? l' := by
  rw [node?, node?, removeAt, lookup_filter_ne]
  grind

theorem mem_nodes_of_node? (hl : l ≠ []) (h : tree.node? l = some node) : (l, node) ∈ tree.nodes := by
  rw [node?, if_neg hl, List.lookup_eq_some_iff] at h
  obtain ⟨front, back, hnodes, -⟩ := h
  rw [hnodes]
  exact List.mem_append_right _ List.mem_cons_self

/-! ### Proper trees -/

/-- A tree as a file system has it: every node has one location, which is made of names and lies in a
directory. -/
structure Proper (tree : FileTree) : Prop where
  distinct : tree.locations.Nodup
  nonempty : ∀ l ∈ tree.locations, l ≠ []
  names : ∀ l ∈ tree.locations, ∀ name ∈ l, Path.IsName name
  parents : ∀ l ∈ tree.locations, tree.isDirectoryAt l.dropLast

instance (tree : FileTree) : Decidable tree.Proper :=
  decidable_of_iff
    (tree.locations.Nodup ∧ (∀ l ∈ tree.locations, l ≠ []) ∧
      (∀ l ∈ tree.locations, ∀ name ∈ l, Path.IsName name) ∧
      ∀ l ∈ tree.locations, tree.isDirectoryAt l.dropLast)
    ⟨fun ⟨distinct, nonempty, names, parents⟩ => ⟨distinct, nonempty, names, parents⟩,
      fun h => ⟨h.distinct, h.nonempty, h.names, h.parents⟩⟩

namespace Proper

variable (h : tree.Proper)
include h

theorem node?_of_mem (hmem : (l, node) ∈ tree.nodes) : tree.node? l = some node := by
  rw [node?, if_neg (h.nonempty l (List.mem_map_of_mem hmem))]
  have hdistinct := h.distinct
  rw [locations] at hdistinct
  generalize tree.nodes = nodes at hmem hdistinct
  induction nodes with
  | nil => exact nomatch hmem
  | cons n nodes ih =>
    obtain ⟨hnew, hdistinct⟩ := List.nodup_cons.mp hdistinct
    rcases List.mem_cons.mp hmem with rfl | hmem
    · exact List.lookup_cons_self
    · have hne : l ≠ n.1 := fun heq => hnew (List.mem_map.mpr ⟨(l, node), hmem, heq⟩)
      rw [List.lookup_cons, beq_eq_false_iff_ne.mpr hne]
      exact ih hmem hdistinct

theorem isDirectoryAt_dropLast (hl : tree.isDirectoryAt l) : tree.isDirectoryAt l.dropLast := by
  by_cases hnil : l = []
  · rwa [hnil] at hl ⊢
  · exact h.parents l (List.mem_map_of_mem (mem_nodes_of_node? hnil (isDirectoryAt_iff.mp hl)))

theorem names_of_isDirectoryAt (hl : tree.isDirectoryAt l) : ∀ name ∈ l, Path.IsName name := by
  by_cases hnil : l = []
  · simp [hnil]
  · exact h.names l (List.mem_map_of_mem (mem_nodes_of_node? hnil (isDirectoryAt_iff.mp hl)))

/-- A directory or a file may be put under a name in a directory; a file not in place of a directory. -/
theorem put {name : String} (hhere : tree.isDirectoryAt here) (hname : Path.IsName name)
    (hnode : node = .directory ∨ tree.isDirectoryAt (here ++ [name]) = false) :
    (tree.put (here ++ [name]) node).Proper := by
  have hne : here ++ [name] ≠ [] := by simp
  have hkept : ∀ l, tree.isDirectoryAt l → (tree.put (here ++ [name]) node).isDirectoryAt l :=
    fun l hl => isDirectoryAt_put_of hne hnode hl
  refine ⟨?_, fun l hl => ?_, fun l hl => ?_, fun l hl => ?_⟩
  · rw [locations_put]
    split
    · exact h.distinct
    · rename_i hnew
      exact List.nodup_append.mpr ⟨h.distinct, by simp, by grind⟩
  · rcases mem_locations_put hl with hl | rfl
    · exact h.nonempty l hl
    · exact hne
  · rcases mem_locations_put hl with hl | rfl
    · exact h.names l hl
    · intro other hother
      rcases List.mem_append.mp hother with hother | hother
      · exact h.names_of_isDirectoryAt hhere other hother
      · rwa [List.mem_singleton.mp hother]
  · rcases mem_locations_put hl with hl | rfl
    · exact hkept _ (h.parents l hl)
    · rw [List.dropLast_concat]
      exact hkept _ hhere

/-- What is no directory may be taken out. -/
theorem removeAt (hl : tree.isDirectoryAt l = false) : (tree.removeAt l).Proper := by
  have hnil : l ≠ [] := by
    rintro rfl
    simp at hl
  have hmem : ∀ l' ∈ (tree.removeAt l).locations, l' ∈ tree.locations := by
    intro l' hl'
    exact (List.filter_sublist.map _).subset hl'
  refine ⟨h.distinct.sublist (List.filter_sublist.map _), fun l' hl' => h.nonempty l' (hmem l' hl'),
    fun l' hl' => h.names l' (hmem l' hl'), fun l' hl' => ?_⟩
  have hparent := h.parents l' (hmem l' hl')
  rw [isDirectoryAt_iff, node?_removeAt hnil, if_neg]
  · exact isDirectoryAt_iff.mp hparent
  · intro heq
    rw [← heq, hparent] at hl
    exact nomatch hl

end Proper

/-! ### Making directories -/

private theorem makeFrom_directory {piece : String} (hzero : ¬piece.toList.contains '\x00')
    (hidle : ¬Path.isIdle piece) (hup : piece ≠ "..")
    (hnode : tree.node? (here ++ [piece]) = some .directory) :
    tree.makeFrom here (piece :: pieces) = tree.makeFrom (here ++ [piece]) pieces := by
  rw [makeFrom, if_neg hzero, if_neg hidle, if_neg hup]
  simp only [hnode]

private theorem makeFrom_none {piece : String} (hzero : ¬piece.toList.contains '\x00')
    (hidle : ¬Path.isIdle piece) (hup : piece ≠ "..") (hdot : ¬endsInDot pieces)
    (hnode : tree.node? (here ++ [piece]) = none) :
    tree.makeFrom here (piece :: pieces) =
      (tree.put (here ++ [piece]) .directory).makeFrom (here ++ [piece]) pieces := by
  rw [makeFrom, if_neg hzero, if_neg hidle, if_neg hup]
  simp only [hnode, if_neg hdot]

/-- Making directories only adds directories where nothing was. -/
theorem node?_of_makeFrom {made : FileTree} (h : tree.makeFrom here pieces = some made) (l : Location) :
    made.node? l = tree.node? l ∨ tree.node? l = none ∧ made.node? l = some .directory := by
  fun_induction makeFrom tree here pieces with
  | case1 tree here => exact .inl (congrArg (node? · l) (Option.some.inj h).symm)
  | case2 => exact nomatch h
  | case3 tree here piece pieces hzero hidle ih => exact ih h
  | case4 tree here pieces hzero hidle ih => exact ih h
  | case5 tree here piece pieces hzero hidle hup next hnext ih => exact ih h
  | case6 => exact nomatch h
  | case7 => exact nomatch h
  | case8 tree here piece pieces hzero hidle hup next hnext hdot ih =>
    have hstep : (tree.put next .directory).node? l =
        if l = next then some .directory else tree.node? l := node?_put (by simp [next])
    rcases ih h with hmade | ⟨hnone, hmade⟩
    · rw [hmade, hstep]
      split
      · rename_i heq
        exact .inr ⟨heq ▸ hnext, rfl⟩
      · exact .inl rfl
    · rw [hstep] at hnone
      split at hnone
      · exact nomatch hnone
      · exact .inr ⟨hnone, hmade⟩

theorem isDirectoryAt_of_makeFrom {made : FileTree} (h : tree.makeFrom here pieces = some made)
    (hl : tree.isDirectoryAt l) : made.isDirectoryAt l := by
  rw [isDirectoryAt_iff] at hl ⊢
  rcases node?_of_makeFrom h l with hmade | ⟨hnone, -⟩
  · rwa [hmade]
  · rw [hnone] at hl
    exact nomatch hl

theorem Proper.makeFrom {made : FileTree} (h : tree.Proper)
    (hpieces : ∀ piece ∈ pieces, '/' ∉ piece.toList) (hhere : tree.isDirectoryAt here)
    (hmade : tree.makeFrom here pieces = some made) : made.Proper := by
  fun_induction FileTree.makeFrom tree here pieces with
  | case1 tree here => exact Option.some.inj hmade ▸ h
  | case2 => exact nomatch hmade
  | case3 tree here piece pieces hzero hidle ih =>
    exact ih h (fun p hp => hpieces p (List.mem_cons_of_mem _ hp)) hhere hmade
  | case4 tree here pieces hzero hidle ih =>
    exact ih h (fun p hp => hpieces p (List.mem_cons_of_mem _ hp)) (h.isDirectoryAt_dropLast hhere)
      hmade
  | case5 tree here piece pieces hzero hidle hup next hnext ih =>
    exact ih h (fun p hp => hpieces p (List.mem_cons_of_mem _ hp)) (isDirectoryAt_iff.mpr hnext) hmade
  | case6 => exact nomatch hmade
  | case7 => exact nomatch hmade
  | case8 tree here piece pieces hzero hidle hup next hnext hdot ih =>
    have hname : Path.IsName piece :=
      ⟨by simpa using hidle, hup, hpieces piece List.mem_cons_self, by simpa using hzero⟩
    refine ih (h.put hhere hname (.inl rfl)) (fun p hp => hpieces p (List.mem_cons_of_mem _ hp)) ?_ hmade
    simp [isDirectoryAt_put, next]

/-- The path of directories that were made leads to the last of them. -/
theorem Proper.follow_of_makeFrom {made : FileTree} (h : tree.Proper)
    (hpieces : ∀ piece ∈ pieces, '/' ∉ piece.toList) (hhere : tree.isDirectoryAt here)
    (hmade : tree.makeFrom here pieces = some made) :
    made.follow here pieces = some (pieces.foldl advance here) ∧
      made.isDirectoryAt (pieces.foldl advance here) := by
  have hstays := isDirectoryAt_of_makeFrom hmade hhere
  fun_induction FileTree.makeFrom tree here pieces with
  | case1 => exact ⟨rfl, hstays⟩
  | case2 => exact nomatch hmade
  | case3 tree here piece pieces hzero hidle ih =>
    have hadvance : advance here piece = here := if_pos hidle
    rw [follow_cons, if_pos ⟨hstays, by simpa using hzero⟩, List.foldl_cons, hadvance]
    exact ih h (fun p hp => hpieces p (List.mem_cons_of_mem _ hp)) hhere hmade hstays
  | case4 tree here pieces hzero hidle ih =>
    have hup := h.isDirectoryAt_dropLast hhere
    have hadvance : advance here ".." = here.dropLast := (if_neg hidle).trans (if_pos rfl)
    rw [follow_cons, if_pos ⟨hstays, by decide⟩, List.foldl_cons, hadvance]
    exact ih h (fun p hp => hpieces p (List.mem_cons_of_mem _ hp)) hup hmade
      (isDirectoryAt_of_makeFrom hmade hup)
  | case5 tree here piece pieces hzero hidle hup next hnext ih =>
    have hdirectory := isDirectoryAt_iff.mpr hnext
    have hadvance : advance here piece = next := (if_neg hidle).trans (if_neg hup)
    rw [follow_cons, if_pos ⟨hstays, by simpa using hzero⟩, List.foldl_cons, hadvance]
    exact ih h (fun p hp => hpieces p (List.mem_cons_of_mem _ hp)) hdirectory hmade
      (isDirectoryAt_of_makeFrom hmade hdirectory)
  | case6 => exact nomatch hmade
  | case7 => exact nomatch hmade
  | case8 tree here piece pieces hzero hidle hup next hnext hdot ih =>
    have hname : Path.IsName piece :=
      ⟨by simpa using hidle, hup, hpieces piece List.mem_cons_self, by simpa using hzero⟩
    have hput : (tree.put next .directory).isDirectoryAt next := by
      simp [isDirectoryAt_put, next]
    rw [follow_cons, if_pos ⟨hstays, hname.nonzero⟩, List.foldl_cons, advance_name hname]
    exact ih (h.put hhere hname (.inl rfl)) (fun p hp => hpieces p (List.mem_cons_of_mem _ hp)) hput
      hmade (isDirectoryAt_of_makeFrom hmade hput)

/-- Where all directories are already, none is made. -/
theorem makeFrom_settled {made other : FileTree} (h : tree.makeFrom here pieces = some made)
    (hother : ∀ l, made.isDirectoryAt l → other.isDirectoryAt l) :
    other.makeFrom here pieces = some other := by
  fun_induction makeFrom tree here pieces with
  | case1 => rfl
  | case2 => exact nomatch h
  | case3 tree here piece pieces hzero hidle ih =>
    rw [makeFrom, if_neg hzero, if_pos hidle]
    exact ih h
  | case4 tree here pieces hzero hidle ih =>
    rw [makeFrom, if_neg hzero, if_neg hidle, if_pos rfl]
    exact ih h
  | case5 tree here piece pieces hzero hidle hup next hnext ih =>
    have hdirectory := hother next (isDirectoryAt_of_makeFrom h (isDirectoryAt_iff.mpr hnext))
    rw [makeFrom_directory hzero hidle hup (isDirectoryAt_iff.mp hdirectory)]
    exact ih h
  | case6 => exact nomatch h
  | case7 => exact nomatch h
  | case8 tree here piece pieces hzero hidle hup next hnext hdot ih =>
    have hput : (tree.put next .directory).isDirectoryAt next := by
      simp [isDirectoryAt_put, next]
    have hdirectory := hother next (isDirectoryAt_of_makeFrom h hput)
    rw [makeFrom_directory hzero hidle hup (isDirectoryAt_iff.mp hdirectory)]
    exact ih h

/-- In a tree with more directories, and no file where one is to be, the missing ones are made. -/
theorem makeFrom_added {made other : FileTree} {added : Location → Bool}
    (h : tree.makeFrom here pieces = some made)
    (hadded : ∀ l, other.isDirectoryAt l = (tree.isDirectoryAt l || added l))
    (hfree : ∀ l c, made.isDirectoryAt l → other.node? l ≠ some (.file c)) :
    ∃ made', other.makeFrom here pieces = some made' ∧
      ∀ l, made'.isDirectoryAt l = (made.isDirectoryAt l || added l) := by
  fun_induction makeFrom tree here pieces generalizing other
  case case1 tree here =>
    obtain rfl := Option.some.inj h
    exact ⟨other, rfl, hadded⟩
  case case2 => exact nomatch h
  case case3 tree here piece pieces hzero hidle ih =>
    rw [makeFrom, if_neg hzero, if_pos hidle]
    exact ih h hadded hfree
  case case4 tree here pieces hzero hidle ih =>
    rw [makeFrom, if_neg hzero, if_neg hidle, if_pos rfl]
    exact ih h hadded hfree
  case case5 tree here piece pieces hzero hidle hup next hnext ih =>
    have hdirectory : other.isDirectoryAt (here ++ [piece]) := by
      rw [hadded, isDirectoryAt_iff.mpr hnext, Bool.true_or]
    rw [makeFrom_directory hzero hidle hup (isDirectoryAt_iff.mp hdirectory)]
    exact ih h hadded hfree
  case case6 => exact nomatch h
  case case7 => exact nomatch h
  case case8 tree here piece pieces hzero hidle hup next hnext hdot ih =>
    have hne : here ++ [piece] ≠ [] := by simp
    rcases hnode : other.node? (here ++ [piece]) with _ | ⟨c⟩ | _
    · rw [makeFrom_none hzero hidle hup hdot hnode]
      refine ih h (fun l => ?_) fun l c hl => ?_
      · rw [isDirectoryAt_put hne, isDirectoryAt_put hne, hadded]
        split
        · rfl
        · rfl
      · rw [node?_put hne]
        split
        · simp
        · exact hfree l c hl
    · have hput : (tree.put (here ++ [piece]) .directory).isDirectoryAt (here ++ [piece]) := by
        simp [isDirectoryAt_put]
      exact absurd hnode (hfree _ c (isDirectoryAt_of_makeFrom h hput))
    · -- what is made in the one tree was added to the other
      rw [makeFrom_directory hzero hidle hup hnode]
      refine ih h (fun l => ?_) hfree
      rw [isDirectoryAt_put hne]
      split
      · rename_i heq
        rw [heq, isDirectoryAt_iff.mpr hnode]
        rfl
      · exact hadded l

/-! ### Writing files -/

/-- Whether a location is that of a stylesheet by its name. -/
def IsSheet (l : Location) : Prop :=
  ∃ here stem, l = here ++ [stem ++ ".css"] ∨ l = here ++ [stem ++ ".dcss"]

/-- The names of stylesheets end in an `s`. -/
theorem not_isSheet {name : String} (h : name.toList.getLast? ≠ some 's') :
    ¬IsSheet (here ++ [name]) := by
  rintro ⟨here', stem, heq | heq⟩
  · obtain ⟨-, hname⟩ := List.append_inj' heq rfl
    obtain rfl := List.singleton_inj.mp hname
    simp at h
  · obtain ⟨-, hname⟩ := List.append_inj' heq rfl
    obtain rfl := List.singleton_inj.mp hname
    simp at h

theorem ne_nil_of_isSheet (h : IsSheet l) : l ≠ [] := by
  obtain ⟨here, stem, rfl | rfl⟩ := h
  · simp
  · simp

/-- A path in `.css` leads to such a name in a directory. -/
theorem exists_of_locate?_css {text : String} (h : tree.locate? ⟨text ++ ".css"⟩ = some l) :
    ∃ here stem, tree.isDirectoryAt here ∧ Path.IsName (stem ++ ".css") ∧
      l = here ++ [stem ++ ".css"] := by
  obtain ⟨front, last, hpieces⟩ := Path.pieces_append text (by decide : '/' ∉ ".css".toList)
  have hmem : last ++ ".css" ∈ Path.pieces ⟨text ++ ".css"⟩ := by
    rw [hpieces]
    exact List.mem_append_right _ (List.mem_singleton_self _)
  rw [locate?, hpieces, follow_append] at h
  obtain ⟨here, -, h⟩ := Option.bind_eq_some_iff.mp h
  rw [follow_cons] at h
  split at h
  · rename_i hopen
    have hname : Path.IsName (last ++ ".css") :=
      ⟨Path.isIdle_append_css last, Path.append_css_ne last (by decide),
        Path.slash_not_mem_piece hmem, hopen.2⟩
    refine ⟨here, last, hopen.1, hname, ?_⟩
    rw [advance_css, follow_nil] at h
    exact (Option.some.inj h).symm
  · cases h

/-- A file is put where its path leads, if no directory is there. -/
theorem exists_of_write? {content : String} (h : tree.write? path content = some after) :
    ∃ l, tree.locate? path = some l ∧ tree.isDirectoryAt l = false ∧
      after = tree.put l (.file content) := by
  unfold write? at h
  split at h
  · exact nomatch h
  · rename_i l hl
    split at h
    · exact nomatch h
    · rename_i hfree
      exact ⟨l, hl, by simpa using hfree, (Option.some.inj h).symm⟩

theorem exists_of_write?_css {text content : String}
    (h : tree.write? ⟨text ++ ".css"⟩ content = some after) :
    ∃ here stem, tree.isDirectoryAt here ∧ Path.IsName (stem ++ ".css") ∧
      tree.isDirectoryAt (here ++ [stem ++ ".css"]) = false ∧
      after = tree.put (here ++ [stem ++ ".css"]) (.file content) := by
  obtain ⟨l, hl, hfree, hafter⟩ := exists_of_write? h
  obtain ⟨here, stem, hhere, hname, rfl⟩ := exists_of_locate?_css hl
  exact ⟨here, stem, hhere, hname, hfree, hafter⟩

/-- Whether a tree keeps the directories and files of another, with new content in stylesheets only, and
has nothing new besides stylesheets but directories. -/
structure Extends (before after : FileTree) : Prop where
  directories : ∀ l, before.isDirectoryAt l → after.isDirectoryAt l
  files : ∀ l content, before.node? l = some (.file content) →
    ∃ content', after.node? l = some (.file content')
  others : ∀ l, ¬IsSheet l → after.node? l = before.node? l ∨
    before.node? l = none ∧ after.node? l = some .directory

namespace Extends

theorem refl (tree : FileTree) : Extends tree tree :=
  ⟨fun _ h => h, fun _ content h => ⟨content, h⟩, fun _ _ => .inl rfl⟩

theorem trans {first second third : FileTree} (h : Extends first second) (h' : Extends second third) :
    Extends first third := by
  refine ⟨fun l hl => h'.directories l (h.directories l hl), fun l content hl => ?_, fun l hl => ?_⟩
  · obtain ⟨content', hl'⟩ := h.files l content hl
    exact h'.files l content' hl'
  · rcases h.others l hl with heq | ⟨hnone, hdirectory⟩
    · rw [← heq]
      exact h'.others l hl
    · exact .inr ⟨hnone, isDirectoryAt_iff.mp (h'.directories l (isDirectoryAt_iff.mpr hdirectory))⟩

theorem of_makeFrom {made : FileTree} (h : tree.makeFrom here pieces = some made) :
    Extends tree made := by
  refine ⟨fun l hl => isDirectoryAt_of_makeFrom h hl, fun l content hl => ?_, fun l _ =>
    node?_of_makeFrom h l⟩
  rcases node?_of_makeFrom h l with hmade | ⟨hnone, -⟩
  · exact ⟨content, hmade.trans hl⟩
  · rw [hnone] at hl
    exact nomatch hl

/-- A stylesheet may be written or changed. -/
theorem put_file (hl : IsSheet l) (hfree : tree.isDirectoryAt l = false) (content : String) :
    Extends tree (tree.put l (.file content)) := by
  have hne := ne_nil_of_isSheet hl
  refine ⟨fun l' hl' => ?_, fun l' content' hl' => ?_, fun l' hl' => .inl ?_⟩
  · rwa [isDirectoryAt_put_file hfree]
  · rw [node?_put hne]
    split
    · exact ⟨content, rfl⟩
    · exact ⟨content', hl'⟩
  · rw [node?_put hne, if_neg]
    rintro rfl
    exact hl' hl

end Extends

end StyleTemplate.FileTree
