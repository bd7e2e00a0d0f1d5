/-
ManifestLint.Issue.Catalogue — the issues that a check can find.

Each code has a message template and a severity. Demotable issues have the
severity that the strictness of a pass gives them; only a statement without effect
is demotable.

The main statement: strictness decides the severity of demotable codes and of
nothing else (`effective_forStrictness`).
-/
import ManifestLint.Issue.Template

namespace ManifestLint

/-- How much an issue counts. -/
inductive Severity where
  | ignore
  | warning
  | error
  deriving DecidableEq, Repr

/-- How a pass treats demotable issues. -/
inductive Strictness where
  | off
  | warning
  | error
  deriving DecidableEq, Repr

/-- The codes of issues. -/
inductive Code where
  | illegalAssignmentViaIndex
  | illegalNumericAssignment
  | crossScopeAssignment
  | appendsDeletesNoLongerSupported
  | illegalAttributeAppend
  | unsupportedOperatorInContext
  | notRvalue
  | illegalExpression
  | idemExpressionNotLast
  | invalidActivityStyle
  deriving DecidableEq, Repr

namespace Severity

/-- The word for a severity in diagnostics. -/
def word : Severity → String
  | ignore => "ignore"
  | warning => "warning"
  | error => "error"

end Severity

namespace Strictness

/-- The severity of demotable issues. -/
def severity : Strictness → Severity
  | off => .ignore
  | warning => .warning
  | error => .error

/-- The name of a strictness in logs. -/
def name : Strictness → String
  | off => "OFF"
  | warning => "WARNING"
  | error => "ERROR"

/-- The word for a strictness on the command line. -/
def word : Strictness → String
  | off => "off"
  | warning => "warning"
  | error => "error"

/-- Every strictness, in the order of the words. -/
def all : List Strictness := [.error, .off, .warning]

/-- The strictness with the given word. -/
def ofWord? (word : String) : Option Strictness := all.find? fun s => s.word == word

end Strictness

namespace Code

/-- Every code, in catalogue order. -/
def all : List Code :=
  [illegalAssignmentViaIndex, illegalNumericAssignment, crossScopeAssignment,
    appendsDeletesNoLongerSupported, illegalAttributeAppend, unsupportedOperatorInContext,
    notRvalue, illegalExpression, idemExpressionNotLast, invalidActivityStyle]

theorem mem_all (c : Code) : c ∈ all := by
  cases c <;> decide

/-- The name of a code. -/
def name : Code → String
  | illegalAssignmentViaIndex => "ILLEGAL_ASSIGNMENT_VIA_INDEX"
  | illegalNumericAssignment => "ILLEGAL_NUMERIC_ASSIGNMENT"
  | crossScopeAssignment => "CROSS_SCOPE_ASSIGNMENT"
  | appendsDeletesNoLongerSupported => "APPENDS_DELETES_NO_LONGER_SUPPORTED"
  | illegalAttributeAppend => "ILLEGAL_ATTRIBUTE_APPEND"
  | unsupportedOperatorInContext => "UNSUPPORTED_OPERATOR_IN_CONTEXT"
  | notRvalue => "NOT_RVALUE"
  | illegalExpression => "ILLEGAL_EXPRESSION"
  | idemExpressionNotLast => "IDEM_EXPRESSION_NOT_LAST"
  | invalidActivityStyle => "INVALID_ACTIVITY_STYLE"

/-- The code with the given name. -/
def ofName? (name : String) : Option Code := all.find? fun c => c.name == name

/-- How diagnostics write a code. -/
def key (c : Code) : String := "VALIDATE_" ++ c.name

/-- The message of a code. -/
def template : Code → Template
  | illegalAssignmentViaIndex =>
    [.words "Illegal attempt to assign via [index/key]. Not an assignable reference"]
  | illegalNumericAssignment =>
    [.words "Illegal attempt to assign to the numeric match result variable '$", .field "var",
      .words "'. Numeric variables are not assignable"]
  | crossScopeAssignment =>
    [.words "Illegal attempt to assign to '$", .field "name",
      .words "'. Cannot assign to variables in other namespaces"]
  | appendsDeletesNoLongerSupported =>
    [.words "The operator '", .field "operator", .words "' is no longer supported"]
  | illegalAttributeAppend =>
    [.words "Illegal +> operation on attribute ", .field "attr",
      .words ". This operator can not be used in ", .field "expression"]
  | unsupportedOperatorInContext =>
    [.words "The operator '", .field "operator", .words "' in ", .field "value",
      .words " is not supported"]
  | notRvalue => [.field "value", .words " is not applicable as a value"]
  | illegalExpression =>
    [.words "Illegal expression. ", .field "expression", .words " is unacceptable as ",
      .field "feature", .words " in ", .field "container"]
  | idemExpressionNotLast =>
    [.words "This ", .field "expression",
      .words " has no effect. A value was produced and then forgotten ",
      .words "(one or more preceding expressions may have the wrong form)"]
  | invalidActivityStyle => [.words "Invalid activity style '", .field "style", .words "'"]

/-- The severity of a code where nothing else is said. -/
def severity (_ : Code) : Severity := .error

/-- Holds of the codes whose severity follows the strictness. -/
def isDemotable (c : Code) : Bool := c = idemExpressionNotLast

end Code

/-! ## Severity tables -/

/-- Severities that override those of the catalogue. -/
abbrev Severities := List (Code × Severity)

namespace Severities

/-- The severity that a code has under a table. -/
def effective (table : Severities) (c : Code) : Severity := (table.lookup c).getD c.severity

/-- The table of a pass of a given strictness: every code has an entry. -/
def forStrictness (s : Strictness) : Severities :=
  Code.all.map fun c => (c, if c.isDemotable then s.severity else c.severity)

/-- Strictness decides the severity of demotable codes and of nothing else. -/
theorem effective_forStrictness (s : Strictness) (c : Code) :
    (forStrictness s).effective c = if c.isDemotable then s.severity else c.severity := by
  cases c <;> rfl

theorem effective_nil (c : Code) : effective [] c = c.severity := rfl

end Severities

end ManifestLint
