import StyleTemplate.Table

/-! How severely problems are reported. A rule speaks about all codes that begin with its pattern,
and the rule with the longest pattern decides. Where no rule speaks, a problem is an error. -/

namespace StyleTemplate

/-- The severity that a rule gives to a problem; `off` keeps it from being reported. -/
inductive Severity where
  | off | error | warning | info | hint
deriving DecidableEq, Repr

namespace Severity

def name : Severity → String
  | off => "off"
  | error => "error"
  | warning => "warning"
  | info => "info"
  | hint => "hint"

/-- All severities. -/
def all : List Severity := [off, error, warning, info, hint]

/-- The severity of a name. -/
def ofName? (s : String) : Option Severity := all.find? (·.name == s)

@[simp] theorem ofName?_name (s : Severity) : ofName? s.name = some s := by cases s <;> rfl

/-- Whether a rule with this pattern speaks about a code. -/
def speaksOf (pattern code : String) : Bool := pattern.toList.isPrefixOf code.toList

/-- Of the rules that speak about a code, the one with the longest pattern. -/
def deciding? (code : String) : List (String × Severity) → Option (String × Severity)
  | [] => none
  | rule :: rules =>
    match speaksOf rule.1 code, deciding? code rules with
    | false, other => other
    | true, none => some rule
    | true, some other => if rule.1.length < other.1.length then some other else some rule

/-- The severity of a code under rules in any order. -/
def under (rules : List (String × Severity)) (code : String) : Severity :=
  match deciding? code rules with
  | some (_, severity) => severity
  | none => error

end Severity

/-- Severities by pattern. -/
structure SeverityRules where
  patterns : Table Severity

namespace SeverityRules

def empty : SeverityRules := ⟨∅⟩

instance : Inhabited SeverityRules := ⟨empty⟩

/-- Gives a severity to a pattern, in place of an earlier one. -/
def set (rules : SeverityRules) (pattern : String) (severity : Severity) : SeverityRules :=
  ⟨rules.patterns.insert pattern severity⟩

/-- The severity of a code. -/
def severity (rules : SeverityRules) (code : String) : Severity :=
  Severity.under rules.patterns.entries code

/-- Whether problems with this code are reported. -/
def isEnabled (rules : SeverityRules) (code : String) : Bool := rules.severity code ≠ .off

/-- How many patterns have a severity. -/
def size (rules : SeverityRules) : Nat := rules.patterns.size

end SeverityRules

end StyleTemplate
