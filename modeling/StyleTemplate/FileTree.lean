import StyleTemplate.Path

/-! The files that a command sees and writes. -/

namespace StyleTemplate

/-- Names that lead from the top to a file or directory. -/
abbrev Location := List String

inductive FileNode where
  | file (content : String)
  | directory
deriving DecidableEq, Repr

/-- Files and directories by location. The top is always there. -/
structure FileTree where
  nodes : List (Location × FileNode)
deriving DecidableEq, Repr

namespace FileTree

def empty : FileTree := ⟨[]⟩

instance : Inhabited FileTree := ⟨empty⟩

def node? (tree : FileTree) (location : Location) : Option FileNode :=
  if location = [] then some .directory else tree.nodes.lookup location

def isDirectoryAt (tree : FileTree) (location : Location) : Bool :=
  tree.node? location = some .directory

def putNode (location : Location) (node : FileNode) :
    List (Location × FileNode) → List (Location × FileNode)
  | [] => [(location, node)]
  | n :: ns => if n.1 = location then (location, node) :: ns else n :: putNode location node ns

/-- Puts a file or directory at a location, in place of what was there. -/
def put (tree : FileTree) (location : Location) (node : FileNode) : FileTree :=
  ⟨putNode location node tree.nodes⟩

/-- Puts a directory at every proper beginning of a location. -/
def putParents (tree : FileTree) (location : Location) : FileTree :=
  (List.range location.length).foldl (fun tree n =>
    if n = 0 then tree else tree.put (location.take n) .directory) tree

/-- Takes out whatever is at a location. -/
def removeAt (tree : FileTree) (location : Location) : FileTree :=
  ⟨tree.nodes.filter (·.1 ≠ location)⟩

def follow (tree : FileTree) (here : Location) : List String → Option Location
  | [] => some here
  | piece :: pieces =>
    if !tree.isDirectoryAt here || piece.toList.contains '\x00' then none
    else if Path.isIdle piece then follow tree here pieces
    else if piece = ".." then follow tree here.dropLast pieces
    else follow tree (here ++ [piece]) pieces

/-- Where an absolute path leads. All but the last name must be directories; the last one need not
be there. -/
def locate? (tree : FileTree) (path : Path) : Option Location := follow tree [] path.pieces

def nodeAt? (tree : FileTree) (path : Path) : Option FileNode :=
  (tree.locate? path).bind tree.node?

def isFile (tree : FileTree) (path : Path) : Bool :=
  match tree.nodeAt? path with
  | some (.file _) => true
  | _ => false

def isDirectory (tree : FileTree) (path : Path) : Bool :=
  tree.nodeAt? path = some .directory

/-- The content of a file. -/
def read? (tree : FileTree) (path : Path) : Option String :=
  match tree.nodeAt? path with
  | some (.file content) => some content
  | _ => none

/-- Writes a file into a directory that is there. -/
def write? (tree : FileTree) (path : Path) (content : String) : Option FileTree :=
  match tree.locate? path with
  | none => none
  | some location =>
    if tree.isDirectoryAt location then none else some (tree.put location (.file content))

/-- A directory cannot be made under the name of a dot. -/
def endsInDot (pieces : List String) : Bool :=
  pieces.all Path.isIdle && pieces.contains "."

def makeFrom (tree : FileTree) (here : Location) : List String → Option FileTree
  | [] => some tree
  | piece :: pieces =>
    if piece.toList.contains '\x00' then none
    else if Path.isIdle piece then makeFrom tree here pieces
    else if piece = ".." then makeFrom tree here.dropLast pieces
    else
      let next := here ++ [piece]
      match tree.node? next with
      | some .directory => makeFrom tree next pieces
      | some (.file _) => none
      | none => if endsInDot pieces then none else makeFrom (tree.put next .directory) next pieces

/-- Makes a directory and all directories above it that are not there yet. -/
def makeDirectories? (tree : FileTree) (path : Path) : Option FileTree :=
  makeFrom tree [] path.pieces

/-- The files below a location, each with the names that lead to it from there. -/
def filesBelow (tree : FileTree) (location : Location) : List (List String × String) :=
  tree.nodes.filterMap fun (l, node) =>
    match node with
    | .file content =>
      if location.isPrefixOf l && location.length < l.length then
        some (l.drop location.length, content)
      else none
    | .directory => none

end FileTree

end StyleTemplate
