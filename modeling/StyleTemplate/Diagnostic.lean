import StyleTemplate.Span
import StyleTemplate.Value
import StyleTemplate.Filter

/-! Problems found while a template is filled in. None of them stops the compilation: the
placeholder becomes empty, or its value passes on unchanged. -/

namespace StyleTemplate

/-- A problem with one placeholder, or with one filter call of it. -/
inductive Diagnostic where
  | undefinedVariable (path : String) (span : Span)
  | subscriptTraversal (path : String) (reason : TraversalError) (span : Span)
  | filterNotFound (name : String) (span : Span)
  | filterFailed (name : String) (reason : FilterError) (span : Span)
  | nonScalarValue (path : String) (kind : Kind) (span : Span)
deriving DecidableEq, Repr

namespace Diagnostic

def code : Diagnostic → String
  | undefinedVariable .. => "D100"
  | subscriptTraversal .. => "D101"
  | filterNotFound .. => "D102"
  | filterFailed .. => "D103"
  | nonScalarValue .. => "D104"

/-- The placeholder or filter call that the problem is about. -/
def span : Diagnostic → Span
  | undefinedVariable _ s | subscriptTraversal _ _ s | filterNotFound _ s | filterFailed _ _ s
  | nonScalarValue _ _ s => s

def message : Diagnostic → String
  | undefinedVariable path _ => "Undefined variable '" ++ path ++ "'"
  | subscriptTraversal path reason _ => "Cannot resolve '" ++ path ++ "': " ++ reason.message
  | filterNotFound name _ => "Unknown filter '" ++ name ++ "'"
  | filterFailed name reason _ => "Filter '" ++ name ++ "' failed: " ++ reason.message
  | nonScalarValue path kind _ =>
    "'" ++ path ++ "' is a " ++ kind.name ++ " and cannot be written as text"

/-- What became of the placeholder, in a few words. -/
def label : Diagnostic → String
  | undefinedVariable .. | nonScalarValue .. => "substituted with an empty string"
  | subscriptTraversal .. => "subscript cannot be followed"
  | filterNotFound .. => "filter skipped"
  | filterFailed .. => "value passed through unchanged"

/-- How to make the problem go away, where there is a general answer. -/
def help? : Diagnostic → Option String
  | undefinedVariable .. =>
    some "define it under [variables] or in a values file, or add |default(...)"
  | subscriptTraversal .. => some "only mappings and sequences can be subscripted"
  | filterNotFound .. => some "register the filter globally or for this stylesheet"
  | filterFailed .. => none
  | nonScalarValue .. => some "add a subscript to select a single value"

end Diagnostic

end StyleTemplate
