import Mathlib
import StyleTemplate.FileTree

/-! Where paths lead. A path is followed piece by piece, through directories only; where it ends depends
on its steps alone (`FileTree.eq_of_locate?_of_steps`), and a path that is put behind a directory goes on
from there (`FileTree.locate?_join`). -/

namespace StyleTemplate

namespace Path

/-! ### Pieces -/

private theorem not_mem_of_mem_splitOn {c : Char} {cs piece : List Char}
    (h : piece ∈ cs.splitOn c) : c ∉ piece := by
  induction hlength : cs.length using Nat.strongRecOn generalizing cs with
  | _ n ih =>
    by_cases hmem : c ∈ cs
    · obtain ⟨as, bs, rfl, hfirst⟩ := List.eq_append_cons_of_mem hmem
      rw [List.splitOn_append_cons_self_of_not_mem hfirst] at h
      rcases List.mem_cons.mp h with rfl | h
      · exact hfirst
      · exact ih bs.length (by simp [← hlength]; omega) h rfl
    · rw [List.splitOn_eq_singleton hmem] at h
      rwa [List.mem_singleton.mp h]

private theorem splitOn_append_of_not_mem {c : Char} (as : List Char) {bs : List Char}
    (h : c ∉ bs) :
    ∃ front last, as.splitOn c = front ++ [last] ∧ (as ++ bs).splitOn c = front ++ [last ++ bs] := by
  induction hlength : as.length using Nat.strongRecOn generalizing as with
  | _ n ih =>
    by_cases hmem : c ∈ as
    · obtain ⟨xs, ys, rfl, hfirst⟩ := List.eq_append_cons_of_mem hmem
      obtain ⟨front, last, hsplit, happend⟩ := ih ys.length (by simp [← hlength]; omega) ys rfl
      refine ⟨xs :: front, last, ?_, ?_⟩
      · rw [List.splitOn_append_cons_self_of_not_mem hfirst, hsplit, List.cons_append]
      · rw [List.append_assoc, List.cons_append, List.splitOn_append_cons_self_of_not_mem hfirst,
          happend, List.cons_append]
    · refine ⟨[], as, List.splitOn_eq_singleton hmem, List.splitOn_eq_singleton ?_⟩
      simp [hmem, h]

/-- No piece has a slash in it. -/
theorem slash_not_mem_piece {p : Path} {piece : String} (h : piece ∈ p.pieces) :
    '/' ∉ piece.toList := by
  obtain ⟨cs, hcs, rfl⟩ := List.mem_map.mp h
  rw [String.toList_ofList]
  exact not_mem_of_mem_splitOn hcs

theorem pieces_ne_nil (p : Path) : p.pieces ≠ [] := by
  simp [pieces, List.splitOn_ne_nil]

/-- Text without a slash is added to the last piece. -/
theorem pieces_append (text : String) {more : String} (h : '/' ∉ more.toList) :
    ∃ front last, pieces ⟨text ++ more⟩ = front ++ [last ++ more] := by
  obtain ⟨front, last, -, happend⟩ := splitOn_append_of_not_mem text.toList h
  refine ⟨front.map String.ofList, String.ofList last, ?_⟩
  rw [pieces, String.toList_append, happend, List.map_append, List.map_singleton,
    String.ofList_append, String.ofList_toList]

theorem pieces_slash (front back : String) :
    pieces ⟨front ++ "/" ++ back⟩ = pieces ⟨front⟩ ++ pieces ⟨back⟩ := by
  have hslash : (front ++ "/" ++ back).toList = front.toList ++ '/' :: back.toList := by
    simp
  simp only [pieces, hslash, List.splitOn_append_cons_self, List.map_append]

theorem pieces_of_not_mem {text : String} (h : '/' ∉ text.toList) : pieces ⟨text⟩ = [text] := by
  rw [pieces, List.splitOn_eq_singleton h, List.map_singleton, String.ofList_toList]

/-- The pieces of a relative path come behind those of the path before it, up to an empty piece. -/
theorem pieces_join (base : Path) {path : Path} (hrelative : path.isAbsolute = false) :
    ∃ front, (base.join path).pieces = front ++ path.pieces ∧
      (base.pieces = front ∨ base.pieces = front ++ [""]) := by
  unfold Path.join
  simp only [hrelative, Bool.false_or, String.isEmpty_iff]
  split
  · rename_i hempty
    refine ⟨[], rfl, .inr ?_⟩
    rw [pieces, hempty]
    rfl
  · split
    · rename_i hslash
      obtain ⟨front, hfront⟩ := List.getLast?_eq_some_iff.mp (eq_of_beq hslash)
      have htext : base.text = String.ofList front ++ "/" := by
        rw [← String.toList_inj, hfront]
        simp
      refine ⟨pieces ⟨String.ofList front⟩, ?_, .inr ?_⟩
      · rw [htext, pieces_slash]
      · rw [show base = ⟨String.ofList front ++ "/" ++ ""⟩ by rw [String.append_empty, ← htext],
          pieces_slash]
        rfl
    · exact ⟨base.pieces, pieces_slash .., .inl rfl⟩

/-- Whether a piece is the name of a file or directory. -/
structure IsName (piece : String) : Prop where
  counts : isIdle piece = false
  down : piece ≠ ".."
  whole : '/' ∉ piece.toList
  nonzero : '\x00' ∉ piece.toList

instance (piece : String) : Decidable (IsName piece) :=
  decidable_of_iff
    (isIdle piece = false ∧ piece ≠ ".." ∧ '/' ∉ piece.toList ∧ '\x00' ∉ piece.toList)
    ⟨fun ⟨counts, down, whole, nonzero⟩ => ⟨counts, down, whole, nonzero⟩,
      fun h => ⟨h.counts, h.down, h.whole, h.nonzero⟩⟩

theorem append_css_ne (stem : String) {other : String} (h : other.toList.getLast? ≠ some 's') :
    stem ++ ".css" ≠ other := by
  rintro rfl
  simp at h

theorem isIdle_append_css (stem : String) : isIdle (stem ++ ".css") = false := by
  have hdot : stem ++ ".css" ≠ "." := append_css_ne stem (by decide)
  simp [isIdle, hdot]

/-- Names with slashes between them come apart again. -/
theorem pieces_intercalate {names : List String} (h : ∀ name ∈ names, '/' ∉ name.toList)
    (hne : names ≠ []) : pieces ⟨"/".intercalate names⟩ = names := by
  have hslash : ("/" : String).toList = ['/'] := rfl
  rw [pieces, String.toList_intercalate, hslash, List.splitOn_intercalate]
  · simp [Function.comp_def]
  · simpa using h
  · simpa using hne

/-- The piece of a step that moves. -/
def pieceOf? : PathStep → Option String
  | .root | .here => none
  | .up => some ".."
  | .name s => some s

/-- The pieces that count can be told from the steps. -/
theorem filter_pieces (p : Path) : p.pieces.filter (!isIdle ·) = p.steps.filterMap pieceOf? := by
  have hback : (pieceOf? ∘ stepOf) = some := by
    funext piece
    by_cases hup : piece = ".."
    · simp [pieceOf?, stepOf, hup]
    · simp [pieceOf?, stepOf, hup]
  have hfront : (if p.isAbsolute then [PathStep.root]
      else if p.pieces.head? = some "." then [.here] else []).filterMap pieceOf? = [] := by
    split
    · rfl
    · split <;> rfl
  rw [steps, List.filterMap_append, hfront, List.nil_append, List.filterMap_map, hback,
    List.filterMap_some]

end Path

namespace FileTree

variable {tree before after : FileTree} {here l : Location} {pieces : List String}

/-! ### Following pieces -/

/-- Where a piece leads. -/
def advance (here : Location) (piece : String) : Location :=
  if Path.isIdle piece then here else if piece = ".." then here.dropLast else here ++ [piece]

theorem follow_nil : tree.follow here [] = some here := rfl

theorem follow_cons (piece : String) :
    tree.follow here (piece :: pieces) =
      if tree.isDirectoryAt here ∧ '\x00' ∉ piece.toList then tree.follow (advance here piece) pieces
      else none := by
  rw [follow, advance]
  by_cases hdirectory : tree.isDirectoryAt here = true
  · by_cases hzero : '\x00' ∈ piece.toList
    · simp [hzero]
    · simp only [hdirectory, hzero, List.contains_eq_mem, decide_false, Bool.not_true, Bool.or_false,
        Bool.false_eq_true, if_false, not_false_eq_true, and_self, if_true]
      split
      · rfl
      · split <;> rfl
  · simp [hdirectory]

theorem follow_append (front back : List String) :
    tree.follow here (front ++ back) = (tree.follow here front).bind (tree.follow · back) := by
  induction front generalizing here with
  | nil => rfl
  | cons piece front ih =>
    rw [List.cons_append, follow_cons, follow_cons]
    split
    · exact ih
    · rfl

/-- In a tree with more directories a path leads to the same place. -/
theorem follow_mono (h : ∀ l, before.isDirectoryAt l → after.isDirectoryAt l)
    (hfollow : before.follow here pieces = some l) : after.follow here pieces = some l := by
  induction pieces generalizing here with
  | nil => exact hfollow
  | cons piece pieces ih =>
    rw [follow_cons] at hfollow ⊢
    split at hfollow
    · rename_i hopen
      rw [if_pos ⟨h _ hopen.1, hopen.2⟩]
      exact ih hfollow
    · exact nomatch hfollow

theorem follow_congr (h : ∀ l, before.isDirectoryAt l = after.isDirectoryAt l) :
    before.follow here pieces = after.follow here pieces := by
  induction pieces generalizing here with
  | nil => rfl
  | cons piece pieces ih => rw [follow_cons, follow_cons, h, ih]

theorem eq_foldl_of_follow (h : tree.follow here pieces = some l) :
    l = (pieces.filter (!Path.isIdle ·)).foldl advance here := by
  induction pieces generalizing here with
  | nil => exact (Option.some.inj h).symm
  | cons piece pieces ih =>
    rw [follow_cons] at h
    split at h
    · have hrest := ih h
      by_cases hidle : Path.isIdle piece = true
      · rw [List.filter_cons_of_neg (by simp [hidle])]
        rwa [advance, if_pos hidle] at hrest
      · rw [List.filter_cons_of_pos (by simp [hidle])]
        exact hrest
    · exact nomatch h

theorem advance_name {name : String} (hname : Path.IsName name) : advance here name = here ++ [name] := by
  rw [advance, hname.counts, if_neg Bool.false_ne_true, if_neg hname.down]

theorem advance_css (stem : String) : advance here (stem ++ ".css") = here ++ [stem ++ ".css"] := by
  rw [advance, Path.isIdle_append_css, if_neg Bool.false_ne_true,
    if_neg (Path.append_css_ne stem (by decide))]

/-- One name behind a directory. -/
theorem follow_name {name : String} (hname : Path.IsName name) :
    tree.follow here [name] = if tree.isDirectoryAt here then some (here ++ [name]) else none := by
  rw [follow_cons, advance_name hname, follow_nil]
  simp only [hname.nonzero, not_false_eq_true, and_true]

/-! ### Paths -/

/-- Paths with the same steps do not lead to different places. -/
theorem eq_of_locate?_of_steps {p q : Path} {l' : Location} (hp : before.locate? p = some l)
    (hq : after.locate? q = some l') (hsteps : p.steps = q.steps) : l = l' := by
  rw [eq_foldl_of_follow hp, eq_foldl_of_follow hq, Path.filter_pieces, Path.filter_pieces, hsteps]

theorem locate?_mono (h : ∀ l, before.isDirectoryAt l → after.isDirectoryAt l) {p : Path}
    (hp : before.locate? p = some l) : after.locate? p = some l :=
  follow_mono h hp

private theorem bind_follow_empty (hne : pieces ≠ []) :
    (tree.follow here [""]).bind (tree.follow · pieces) = tree.follow here pieces := by
  obtain ⟨piece, pieces, rfl⟩ := List.exists_cons_of_ne_nil hne
  have hempty : advance here "" = here := rfl
  rw [follow_cons, hempty, follow_cons]
  by_cases hdirectory : tree.isDirectoryAt here = true
  · simp [hdirectory, follow_nil, follow_cons]
  · simp [hdirectory]

/-- A relative path goes on from where the path before it leads. -/
theorem locate?_join {base path : Path} (hrelative : path.isAbsolute = false) :
    tree.locate? (base.join path) = (tree.locate? base).bind (tree.follow · path.pieces) := by
  obtain ⟨front, hjoin, hbase⟩ := base.pieces_join hrelative
  rw [locate?, hjoin, follow_append, locate?]
  rcases hbase with hbase | hbase
  · rw [hbase]
  · simp only [hbase, follow_append, Option.bind_assoc, bind_follow_empty path.pieces_ne_nil]

/-! ### Where the text of a path leads -/

/-- Where a path leads by its text alone. -/
def placeOf (path : Path) : Location := path.pieces.foldl advance []

/-- If a path leads anywhere, it is there. -/
theorem eq_placeOf_of_locate? {path : Path} (h : tree.locate? path = some l) : l = placeOf path := by
  rw [eq_foldl_of_follow h, placeOf, List.foldl_filter]
  refine congrArg (path.pieces.foldl · []) (funext fun here => funext fun piece => ?_)
  by_cases hidle : Path.isIdle piece = true
  · simp [advance, hidle]
  · simp [hidle]

theorem placeOf_join {base path : Path} (hrelative : path.isAbsolute = false) :
    placeOf (base.join path) = path.pieces.foldl advance (placeOf base) := by
  obtain ⟨front, hjoin, hbase⟩ := base.pieces_join hrelative
  have hfront : placeOf base = front.foldl advance [] := by
    rw [placeOf]
    rcases hbase with hbase | hbase
    · rw [hbase]
    · rw [hbase, List.foldl_append]
      rfl
  rw [placeOf, hjoin, List.foldl_append, hfront]

end FileTree

end StyleTemplate
