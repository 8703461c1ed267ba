import StyleTemplate.Event
import StyleTemplate.FileTree.IgnoreRules

/-! The stylesheets among files and below directories. -/

namespace StyleTemplate

/-- Whether a file is a stylesheet by its name. -/
def Path.isStylesheet (path : Path) : Bool :=
  path.extension? = some "dcss" || path.extension? = some "css"

namespace FileTree

/-- Whether a walk from `top` enters all directories on the way that `names` lead. -/
def isApproached (tree : FileTree) (top : Location) (names : List String) : Bool :=
  (List.range names.length).all fun n => n = 0 || !tree.isPassedOver (top ++ names.take n) true

/-- Whether a walk from `top` comes to the file that `names` lead to: neither the file nor a
directory on the way is passed over. -/
def isReached (tree : FileTree) (top : Location) (names : List String) : Bool :=
  tree.isApproached top names && !tree.isPassedOver (top ++ names) false

/-- The stylesheets below a directory. -/
def stylesheetsBelow (tree : FileTree) (directory : Path) : List Path :=
  match tree.locate? directory with
  | none => []
  | some top =>
    let reached := (tree.filesBelow top).filter fun (names, _) => tree.isReached top names
    (reached.map fun (names, _) => directory.join ⟨"/".intercalate names⟩).filter
      Path.isStylesheet

/-- The stylesheets that a path stands for: itself, or those below it. -/
def stylesheetsAt (tree : FileTree) (path : Path) : List Path :=
  if tree.isFile path then if path.isStylesheet then [path] else []
  else if tree.isDirectory path then tree.stylesheetsBelow path
  else []

/-- Of neighbours that are the same path, the first one. -/
def dropRepeated : List Path → List Path
  | [] => []
  | p :: ps =>
    p :: match dropRepeated ps with
      | q :: qs => if p.compare q = .eq then qs else q :: qs
      | [] => []

/-- The stylesheets that paths stand for, each one once, in the order of paths. -/
def stylesheets (tree : FileTree) (paths : List Path) : List Path :=
  dropRepeated ((paths.flatMap tree.stylesheetsAt).mergeSort fun p q => p.compare q != .gt)

/-- The names that lead from a directory to what a walk comes to but leaves because it is hidden. -/
def hiddenBelow (tree : FileTree) (top : Location) : List (List String) :=
  tree.nodes.filterMap fun (location, node) =>
    let names := location.drop top.length
    if top.isPrefixOf location && names ≠ [] && tree.isApproached top names &&
        tree.isHidden location (node = .directory) then
      some names
    else none

/-- What is told while the stylesheets that a path stands for are looked for. -/
def walkEventsAt (tree : FileTree) (path : Path) : List Event :=
  if tree.isFile path then []
  else if tree.isDirectory path then
    (((tree.locate? path).map tree.hiddenBelow).getD []).map fun names =>
      let left := path.join ⟨"/".intercalate names⟩
      ⟨.debug, "ignore::walk", "ignoring " ++ left.text ++ ": Ignore(IgnoreMatch(Hidden))", []⟩
  else [⟨.warn, "dcss::walk", "Path does not exist: " ++ path.text, []⟩]

/-- What is told while the stylesheets that paths stand for are looked for. -/
def walkEvents (tree : FileTree) (paths : List Path) : List Event :=
  paths.flatMap tree.walkEventsAt

end FileTree

end StyleTemplate
