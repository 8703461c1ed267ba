import StyleTemplate.Diagnostic
import StyleTemplate.FileTree

/-! Stylesheets to be compiled, and what becomes of them. -/

namespace StyleTemplate

/-- Where the text of a stylesheet comes from. -/
inductive StylesheetSource where
  | path (path : Path)
  | inline (text : String)
deriving DecidableEq, Repr

/-- How a compiled stylesheet is handed over: printed, or as a file of its own. -/
inductive Delivery where
  | printed | external
deriving DecidableEq, Repr

structure Stylesheet where
  handle : String
  source : StylesheetSource
  print : Bool := true
  minify : Bool := false
  cache : Bool := false
deriving DecidableEq, Repr

/-- Why a stylesheet cannot be compiled at all. -/
inductive RenderError where
  | unresolvedProvider (handle : String)
  | unknownStylesheet (handle : String)
  | unreadable (handle : String) (path : Path)
deriving DecidableEq, Repr

/-- The body of a compiled stylesheet. One from the cache comes without diagnostics. -/
structure Artifact where
  handle : String
  body : String
  diagnostics : List Diagnostic
  fromCache : Bool
deriving DecidableEq

namespace RenderError

def handle : RenderError → String
  | unresolvedProvider h | unknownStylesheet h | unreadable h _ => h

def message : RenderError → String
  | unresolvedProvider h => "no value provider is registered for stylesheet '" ++ h ++ "'"
  | unknownStylesheet h => "no stylesheet is enqueued with handle '" ++ h ++ "'"
  | unreadable h path => "failed to read stylesheet '" ++ h ++ "' from " ++ path.text

end RenderError

namespace Stylesheet

def delivery (s : Stylesheet) : Delivery := if s.print then .printed else .external

/-- The path of a stylesheet that is read from a file. -/
def path? (s : Stylesheet) : Option Path :=
  match s.source with
  | .path path => some path
  | .inline _ => none

/-- The text before compilation. -/
def read (s : Stylesheet) (tree : FileTree) : Except RenderError String :=
  match s.source with
  | .inline text => .ok text
  | .path path =>
    match tree.read? path with
    | some text => .ok text
    | none => .error (.unreadable s.handle path)

end Stylesheet

end StyleTemplate
