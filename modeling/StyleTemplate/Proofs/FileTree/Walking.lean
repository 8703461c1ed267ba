import StyleTemplate.FileTree.Walk
import StyleTemplate.Proofs.FileTree.Writing

/-! What a walk finds. In a proper tree it finds files that can be read
(`FileTree.Proper.read?_of_mem_stylesheetsAt`). In a tree that extends another, and has no repositories
that the other has not, the same locations are passed over, so that a walk finds what it found before, and
of the rest only what was not there (`FileTree.Extends.mem_stylesheetsAt`,
`FileTree.Extends.mem_stylesheetsAt_of_read?`). -/

namespace StyleTemplate.FileTree

variable {tree before after : FileTree} {here l top : Location} {names : List String}
  {path found : Path}

/-! ### Names below a directory -/

namespace Proper

variable (h : tree.Proper)
include h

private theorem isDirectoryAt_of_append {name : String}
    (hl : here ++ name :: names ∈ tree.locations) : tree.isDirectoryAt here := by
  induction names generalizing here name with
  | nil => simpa using h.parents _ hl
  | cons next names ih =>
    rw [List.append_cons] at hl
    simpa using h.isDirectoryAt_dropLast (ih hl)

/-- The names of a location can be followed. -/
theorem follow_names (hl : top ++ names ∈ tree.locations) :
    tree.follow top names = some (top ++ names) := by
  induction names generalizing top with
  | nil => rw [follow_nil, List.append_nil]
  | cons name names ih =>
    have hname : Path.IsName name := h.names _ hl name (by simp)
    have htop := h.isDirectoryAt_of_append hl
    rw [List.append_cons] at hl ⊢
    rw [← List.singleton_append, follow_append, follow_name hname, if_pos htop, Option.bind_some]
    exact ih hl

end Proper

private theorem isAbsolute_intercalate {name : String} (hname : Path.IsName name) :
    Path.isAbsolute ⟨"/".intercalate (name :: names)⟩ = false := by
  have hne : name.toList ≠ [] := by
    intro hnil
    have hcounts := hname.counts
    simp [Path.isIdle, String.toList_eq_nil_iff.mp hnil] at hcounts
  obtain ⟨c, cs, hcs⟩ := List.exists_cons_of_ne_nil hne
  have hc : c ≠ '/' := by
    rintro rfl
    exact hname.whole (hcs ▸ List.mem_cons_self)
  have hhead : ("/".intercalate (name :: names)).toList.head? = some c := by
    cases names with
    | nil => simp [hcs]
    | cons other names => simp [String.intercalate_cons_cons, hcs]
  rw [Path.isAbsolute, hhead]
  simpa using hc

/-- Names with slashes between them lead on from a directory. -/
theorem locate?_join_names (hvalid : ∀ name ∈ names, Path.IsName name) (hne : names ≠ []) :
    tree.locate? (path.join ⟨"/".intercalate names⟩) =
      (tree.locate? path).bind (tree.follow · names) := by
  obtain ⟨name, names, rfl⟩ := List.exists_cons_of_ne_nil hne
  rw [locate?_join (isAbsolute_intercalate (hvalid name List.mem_cons_self)),
    Path.pieces_intercalate (fun other hother => (hvalid other hother).whole) hne]

/-! ### Walks -/

theorem mem_filesBelow {content : String} :
    (names, content) ∈ tree.filesBelow top ↔
      (top ++ names, .file content) ∈ tree.nodes ∧ names ≠ [] := by
  rw [filesBelow, List.mem_filterMap]
  constructor
  · rintro ⟨⟨l, node⟩, hmem, hnode⟩
    cases node with
    | directory => exact nomatch hnode
    | file other =>
      simp only at hnode
      split at hnode
      · rename_i hbelow
        obtain ⟨hbegins, hlength⟩ := Bool.and_eq_true_iff.mp hbelow
        obtain ⟨rest, rfl⟩ := List.isPrefixOf_iff_prefix.mp hbegins
        obtain ⟨rfl, rfl⟩ := Prod.mk.inj (Option.some.inj hnode)
        rw [List.drop_left]
        refine ⟨hmem, ?_⟩
        rintro rfl
        simp at hlength
      · exact nomatch hnode
  · rintro ⟨hmem, hne⟩
    refine ⟨_, hmem, ?_⟩
    have hlength : 0 < names.length := List.length_pos_iff.mpr hne
    simp [hlength]

theorem mem_stylesheetsBelow (htop : tree.locate? path = some top) :
    found ∈ tree.stylesheetsBelow path ↔
      ∃ names content, (top ++ names, .file content) ∈ tree.nodes ∧ names ≠ [] ∧
        tree.isReached top names ∧ found = path.join ⟨"/".intercalate names⟩ ∧
        found.isStylesheet := by
  rw [stylesheetsBelow, htop]
  simp only [List.mem_filter, List.mem_map]
  constructor
  · rintro ⟨⟨⟨names, content⟩, ⟨hmem, hreached⟩, rfl⟩, hsheet⟩
    obtain ⟨hmem, hne⟩ := mem_filesBelow.mp hmem
    exact ⟨names, content, hmem, hne, hreached, rfl, hsheet⟩
  · rintro ⟨names, content, hmem, hne, hreached, rfl, hsheet⟩
    exact ⟨⟨(names, content), ⟨mem_filesBelow.mpr ⟨hmem, hne⟩, hreached⟩, rfl⟩, hsheet⟩

theorem nodeAt?_of_read? {content : String} (h : tree.read? path = some content) :
    tree.nodeAt? path = some (.file content) := by
  unfold read? at h
  split at h
  · rename_i hnode
    rw [hnode, Option.some.inj h]
  · exact nomatch h

/-- Paths with the same steps do not read differently. -/
theorem eq_of_read?_of_steps {other : Path} {content content' : String}
    (hpath : tree.read? path = some content) (hother : tree.read? other = some content')
    (hsteps : path.steps = other.steps) : content = content' := by
  obtain ⟨l, hl, hnode⟩ := Option.bind_eq_some_iff.mp (nodeAt?_of_read? hpath)
  obtain ⟨l', hl', hnode'⟩ := Option.bind_eq_some_iff.mp (nodeAt?_of_read? hother)
  rw [eq_of_locate?_of_steps hl hl' hsteps, hnode'] at hnode
  exact (FileNode.file.inj (Option.some.inj hnode)).symm

theorem mem_stylesheetsAt_iff :
    found ∈ tree.stylesheetsAt path ↔
      (∃ content, tree.nodeAt? path = some (.file content)) ∧ found = path ∧ path.isStylesheet ∨
        tree.nodeAt? path = some .directory ∧ found ∈ tree.stylesheetsBelow path := by
  unfold stylesheetsAt isFile isDirectory
  rcases tree.nodeAt? path with _ | ⟨content⟩ | _
  · simp
  · by_cases hsheet : path.isStylesheet
    · simp [hsheet]
    · simp [hsheet]
  · simp

/-- What is found can be read. -/
theorem Proper.read?_of_mem_stylesheetsAt (h : tree.Proper) (hfound : found ∈ tree.stylesheetsAt path) :
    ∃ content, tree.read? found = some content := by
  rcases mem_stylesheetsAt_iff.mp hfound with ⟨⟨content, hnode⟩, rfl, -⟩ | ⟨hdirectory, hbelow⟩
  · exact ⟨content, by rw [read?, hnode]⟩
  · obtain ⟨top, htop, -⟩ := Option.bind_eq_some_iff.mp hdirectory
    obtain ⟨names, content, hmem, hne, -, rfl, -⟩ := (mem_stylesheetsBelow htop).mp hbelow
    have hl : top ++ names ∈ tree.locations := List.mem_map_of_mem hmem
    have hvalid : ∀ name ∈ names, Path.IsName name := fun name hname =>
      h.names _ hl name (List.mem_append_right _ hname)
    refine ⟨content, ?_⟩
    rw [read?, nodeAt?, locate?_join_names hvalid hne, htop, Option.bind_some, h.follow_names hl,
      Option.bind_some, h.node?_of_mem hmem]

/-- The top of a repository has a name in the tree. -/
theorem mem_locations_of_isRepository (h : tree.isRepository here) :
    here ++ [".git"] ∈ tree.locations := by
  obtain ⟨node, hnode⟩ := Option.isSome_iff_exists.mp h
  exact List.mem_map_of_mem (mem_nodes_of_node? (by simp) hnode)

namespace Extends

/-! ### The same walk in two trees -/

section Rules

variable (h : Extends before after)
include h

private theorem ruledBy_eq (file : List String) {name : String}
    (hfile : ∃ front, file = front ++ [name]) (hname : name.toList.getLast? ≠ some 's')
    (d location : Location) (isDirectory : Bool) :
    after.ruledBy d file location isDirectory = before.ruledBy d file location isDirectory := by
  obtain ⟨front, rfl⟩ := hfile
  have hsheet : ¬IsSheet (d ++ (front ++ [name])) := by
    rw [← List.append_assoc]
    exact not_isSheet hname
  unfold ruledBy
  rcases h.others _ hsheet with heq | ⟨hnone, hdirectory⟩
  · rw [heq]
  · rw [hnone, hdirectory]

private theorem nodeAt?_file {content : String}
    (hnode : before.nodeAt? path = some (.file content)) :
    ∃ content', after.nodeAt? path = some (.file content') := by
  obtain ⟨l, hl, hnode⟩ := Option.bind_eq_some_iff.mp hnode
  obtain ⟨content', hafter⟩ := h.files l content hnode
  exact ⟨content', by rw [nodeAt?, locate?_mono h.directories hl, Option.bind_some, hafter]⟩

private theorem isRepository_eq (hrepositories : ∀ d, after.isRepository d → before.isRepository d)
    (d : Location) : after.isRepository d = before.isRepository d := by
  refine Bool.eq_iff_iff.mpr ⟨hrepositories d, fun hbefore => ?_⟩
  obtain ⟨node, hnode⟩ := Option.isSome_iff_exists.mp hbefore
  rw [isRepository]
  rcases node with ⟨content⟩ | _
  · obtain ⟨content', hafter⟩ := h.files _ content hnode
    rw [hafter, Option.isSome_some]
  · rw [isDirectoryAt_iff.mp (h.directories _ (isDirectoryAt_iff.mpr hnode)), Option.isSome_some]

variable (hrepositories : ∀ d, after.isRepository d → before.isRepository d)
include hrepositories

private theorem isPassedOver_eq (location : Location) (isDirectory : Bool) :
    after.isPassedOver location isDirectory = before.isPassedOver location isDirectory := by
  have hrepository : after.isRepository = before.isRepository :=
    funext (h.isRepository_eq hrepositories)
  have hinside (directories : List Location) :
      after.upToRepository directories = before.upToRepository directories := by
    induction directories with
    | nil => rfl
    | cons d directories ih => rw [upToRepository, upToRepository, hrepository, ih]
  have hverdict : after.ignoreVerdict? location isDirectory =
      before.ignoreVerdict? location isDirectory := by
    unfold ignoreVerdict?
    simp only [hrepository, hinside,
      h.ruledBy_eq [".ignore"] ⟨[], rfl⟩ (by decide),
      h.ruledBy_eq [".gitignore"] ⟨[], rfl⟩ (by decide),
      h.ruledBy_eq [".git", "info", "exclude"] ⟨[".git", "info"], rfl⟩ (by decide)]
  rw [isPassedOver, isPassedOver, isHidden, isHidden, hverdict]

private theorem isReached_eq (top : Location) (names : List String) :
    after.isReached top names = before.isReached top names := by
  simp only [isReached, isApproached, h.isPassedOver_eq hrepositories]

/-- What a walk finds it also finds in a tree that extends the first one. -/
theorem mem_stylesheetsAt (hbefore : before.Proper) (hfound : found ∈ before.stylesheetsAt path) :
    found ∈ after.stylesheetsAt path := by
  rcases mem_stylesheetsAt_iff.mp hfound with ⟨⟨content, hnode⟩, rfl, hsheet⟩ | ⟨hdirectory, hbelow⟩
  · exact mem_stylesheetsAt_iff.mpr (.inl ⟨h.nodeAt?_file hnode, rfl, hsheet⟩)
  · obtain ⟨top, htop, hnode⟩ := Option.bind_eq_some_iff.mp hdirectory
    have hkept := h.directories top (isDirectoryAt_iff.mpr hnode)
    have htop' := locate?_mono h.directories htop
    have hdirectory' : after.nodeAt? path = some .directory := by
      rw [nodeAt?, htop', Option.bind_some, isDirectoryAt_iff.mp hkept]
    refine mem_stylesheetsAt_iff.mpr (.inr ⟨hdirectory', ?_⟩)
    obtain ⟨names, content, hmem, hne, hreached, hpath, hsheet⟩ := (mem_stylesheetsBelow htop).mp hbelow
    obtain ⟨content', hafter⟩ := h.files _ content (hbefore.node?_of_mem hmem)
    have hl : top ++ names ≠ [] := by simp [hne]
    refine (mem_stylesheetsBelow htop').mpr
      ⟨names, content', mem_nodes_of_node? hl hafter, hne, ?_, hpath, hsheet⟩
    rwa [h.isReached_eq hrepositories]

/-- What a walk finds in a tree that extends another it also finds in the other, if it is there. -/
theorem mem_stylesheetsAt_of_read? (hafter : after.Proper) (hfound : found ∈ after.stylesheetsAt path)
    {content : String} (hread : before.read? found = some content) :
    found ∈ before.stylesheetsAt path := by
  have hthere := nodeAt?_of_read? hread
  rcases mem_stylesheetsAt_iff.mp hfound with ⟨-, rfl, hsheet⟩ | ⟨hdirectory, hbelow⟩
  · exact mem_stylesheetsAt_iff.mpr (.inl ⟨⟨content, hthere⟩, rfl, hsheet⟩)
  · obtain ⟨top, htop', -⟩ := Option.bind_eq_some_iff.mp hdirectory
    obtain ⟨names, content', hmem, hne, hreached, rfl, hsheet⟩ := (mem_stylesheetsBelow htop').mp hbelow
    have hl' : top ++ names ∈ after.locations := List.mem_map_of_mem hmem
    have hvalid : ∀ name ∈ names, Path.IsName name := fun name hname =>
      hafter.names _ hl' name (List.mem_append_right _ hname)
    obtain ⟨l, hlocate, hnode⟩ := Option.bind_eq_some_iff.mp hthere
    rw [locate?_join_names hvalid hne] at hlocate
    obtain ⟨top', htop, hfollow⟩ := Option.bind_eq_some_iff.mp hlocate
    obtain rfl : top' = top := Option.some.inj ((locate?_mono h.directories htop).symm.trans htop')
    have hl : l = top' ++ names := Option.some.inj
      ((follow_mono h.directories hfollow).symm.trans (hafter.follow_names hl'))
    have hopen : before.isDirectoryAt top' := by
      obtain ⟨name, more, rfl⟩ := List.exists_cons_of_ne_nil hne
      rw [follow_cons] at hfollow
      split at hfollow
      · rename_i hopen
        exact hopen.1
      · exact nomatch hfollow
    have hdirectory' : before.nodeAt? path = some .directory := by
      rw [nodeAt?, htop, Option.bind_some, isDirectoryAt_iff.mp hopen]
    refine mem_stylesheetsAt_iff.mpr (.inr ⟨hdirectory', (mem_stylesheetsBelow htop).mpr
      ⟨names, content, ?_, hne, ?_, rfl, hsheet⟩⟩)
    · rw [hl] at hnode
      exact mem_nodes_of_node? (by simp [hne]) hnode
    · rwa [← h.isReached_eq hrepositories]

end Rules

/-- A file in a directory of the first tree reads the same, unless it is a stylesheet. -/
theorem read?_join (h : Extends before after) (hdirectory : before.isDirectory path) {name : String}
    (hname : Path.IsName name) (hlast : name.toList.getLast? ≠ some 's') :
    after.read? (path.join ⟨name⟩) = before.read? (path.join ⟨name⟩) := by
  obtain ⟨top, htop, hnode⟩ := Option.bind_eq_some_iff.mp (of_decide_eq_true hdirectory)
  have hopen := isDirectoryAt_iff.mpr hnode
  have hlocate (tree : FileTree) (htop : tree.locate? path = some top) (hopen : tree.isDirectoryAt top) :
      tree.locate? (path.join ⟨name⟩) = some (top ++ [name]) := by
    have hjoin : path.join ⟨name⟩ = path.join ⟨"/".intercalate [name]⟩ := by
      rw [String.intercalate_singleton]
    rw [hjoin, locate?_join_names (by simpa using hname) (by simp), htop, Option.bind_some,
      follow_name hname, if_pos hopen]
  rw [read?, nodeAt?, hlocate after (locate?_mono h.directories htop) (h.directories top hopen),
    read?, nodeAt?, hlocate before htop hopen, Option.bind_some, Option.bind_some]
  rcases h.others _ (not_isSheet hlast) with heq | ⟨hnone, hmade⟩
  · rw [heq]
  · rw [hnone, hmade]

end Extends

end StyleTemplate.FileTree
