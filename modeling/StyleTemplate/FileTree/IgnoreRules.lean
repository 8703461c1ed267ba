import StyleTemplate.FileTree
import StyleTemplate.FileTree.Glob
import StyleTemplate.Text.Blank

/-! Files that tell which files and directories to pass over. Each line of such a file is a rule,
and the last rule that matches decides. -/

namespace StyleTemplate

/-- What a rule says of a path. -/
inductive IgnoreVerdict where
  | ignored | kept
deriving DecidableEq, Repr

/-- A rule: what it says, whether it is only about directories, and the patterns it speaks about. -/
structure IgnoreRule where
  verdict : IgnoreVerdict
  onlyDirectories : Bool
  globs : List Glob
deriving DecidableEq, Repr

namespace IgnoreRule

private def stripSlash (cs : List Char) : Bool × List Char :=
  match cs.reverse with
  | '/' :: '\\' :: reversed => (true, reversed.reverse)
  | '/' :: reversed => (true, reversed.reverse)
  | _ => (false, cs)

/-- The pattern of a rule as one for whole paths. Without a slash it is about names anywhere; two
stars at the end stand for what is inside a directory. -/
def anchor (isAbsolute : Bool) (cs : List Char) : List Char :=
  let anywhere := !isAbsolute && !cs.contains '/' && cs ≠ ['*', '*']
  let cs := if anywhere then ['*', '*', '/'] ++ cs else cs
  if ['*', '*', '/'].isPrefixOf cs.reverse then cs ++ ['/', '*'] else cs

/-- The rule of a line, if it holds one. A line in `#` is a comment, and `!` keeps what an earlier
rule passes over. -/
def ofLine? (line : List Char) : Option IgnoreRule :=
  let line := if ['\\', ' '].isSuffixOf line then line else Text.trimEnd line
  if line = [] ∨ line.head? = some '#' then none
  else
    let (verdict, isAbsolute, pattern) : IgnoreVerdict × Bool × List Char :=
      match line with
      | '\\' :: '!' :: cs => (.ignored, false, '!' :: cs)
      | '\\' :: '#' :: cs => (.ignored, false, '#' :: cs)
      | '!' :: '/' :: cs => (.kept, true, cs)
      | '!' :: cs => (.kept, false, cs)
      | '/' :: cs => (.ignored, true, cs)
      | cs => (.ignored, false, cs)
    let (onlyDirectories, pattern) := stripSlash pattern
    (Glob.ofText? (anchor isAbsolute pattern)).map fun globs =>
      ⟨verdict, onlyDirectories, globs⟩

/-- The rules in the text of a file. -/
def ofText (text : String) : List IgnoreRule :=
  let lines := text.toList.splitOn '\n'
  let lines := match lines with
    | ('\uFEFF' :: first) :: rest => first :: rest
    | lines => lines
  lines.filterMap ofLine?

/-- Whether a rule is about a path. -/
def isAbout (rule : IgnoreRule) (path : List Char) (isDirectory : Bool) : Bool :=
  (!rule.onlyDirectories || isDirectory) && rule.globs.any (·.accepts path)

/-- What the last rule about a path says. -/
def verdict? (rules : List IgnoreRule) (path : List Char) (isDirectory : Bool) :
    Option IgnoreVerdict :=
  (rules.reverse.find? (·.isAbout path isDirectory)).map (·.verdict)

end IgnoreRule

namespace FileTree

/-- The directories above a location, the nearest one first. -/
def above (location : Location) : List Location :=
  (List.range location.length).reverse.map fun n => location.take n

/-- What the rules in a file of a directory say of a location below the directory. -/
def ruledBy (tree : FileTree) (directory : Location) (file : List String) (location : Location)
    (isDirectory : Bool) : Option IgnoreVerdict :=
  match tree.node? (directory ++ file) with
  | some (.file text) =>
    let path := ("/".intercalate (location.drop directory.length)).toList
    IgnoreRule.verdict? (IgnoreRule.ofText text) path isDirectory
  | _ => none

/-- Whether a directory is the top of a repository. -/
def isRepository (tree : FileTree) (directory : Location) : Bool :=
  (tree.node? (directory ++ [".git"])).isSome

/-- The directories up to the first repository, that one included. -/
def upToRepository (tree : FileTree) : List Location → List Location
  | [] => []
  | directory :: directories =>
    if tree.isRepository directory then [directory]
    else directory :: upToRepository tree directories

/-- What is said of a location: `.ignore` comes before `.gitignore`, which comes before the rules
that a repository excludes by, and the latter two count only inside a repository. Of several
files of a kind the nearest one decides. -/
def ignoreVerdict? (tree : FileTree) (location : Location) (isDirectory : Bool) :
    Option IgnoreVerdict :=
  let directories := above location
  let nearest (directories : List Location) (file : List String) :=
    directories.findSome? fun d => tree.ruledBy d file location isDirectory
  (nearest directories [".ignore"]).orElse fun _ =>
    if directories.any tree.isRepository then
      let inside := tree.upToRepository directories
      (nearest inside [".gitignore"]).orElse fun _ => nearest inside [".git", "info", "exclude"]
    else none

/-- Whether a location is hidden: its name begins with a dot, and no rule speaks of it. -/
def isHidden (tree : FileTree) (location : Location) (isDirectory : Bool) : Bool :=
  (tree.ignoreVerdict? location isDirectory).isNone &&
    (location.getLast?.getD "").toList.head? = some '.'

/-- Whether a walk passes over a location. -/
def isPassedOver (tree : FileTree) (location : Location) (isDirectory : Bool) : Bool :=
  tree.ignoreVerdict? location isDirectory = some .ignored || tree.isHidden location isDirectory

end FileTree

end StyleTemplate
