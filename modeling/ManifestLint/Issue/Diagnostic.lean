/-
ManifestLint.Issue.Diagnostic — what a check has to say about one place.

A diagnostic found by a rule has a code and the arguments that its message was made
from; one that reports unreadable input has neither. The tree node that it is
about is remembered by its position and does not count when diagnostics are
compared.

The main statement: comparison ignores the site (`same_site`).
-/
import ManifestLint.Issue.Catalogue
import ManifestLint.Tree.Position

namespace ManifestLint

/-- A finding about one place. -/
structure Diagnostic where
  message : Text
  code : Option Code
  phase : Option Text
  severity : Text
  span : Span
  arguments : Arguments
  notes : List Text
  site : Option Position
  deriving DecidableEq, Repr

namespace Arguments

/-- Equality of arguments as a set of named values. -/
def same (a b : Arguments) : Bool :=
  a.length = b.length &&
    a.all fun (name, value) => (b.lookup name).any value.same

end Arguments

namespace Diagnostic

/-- Equality of diagnostics: all but the node that they are about. -/
def same (a b : Diagnostic) : Bool :=
  a.message = b.message && a.code = b.code && a.phase = b.phase && a.severity = b.severity &&
    a.span.same b.span && Arguments.same a.arguments b.arguments && a.notes = b.notes

/-- The line that shows a diagnostic: place, severity, code if there is one, and message. -/
def text (d : Diagnostic) : Text :=
  let code : Text := match d.code with
    | some c => s!" [{c.key}]"
    | none => []
  d.span.text ++ Text.ofString ": " ++ d.severity ++ code ++ Text.ofString ": " ++ d.message

/-- Holds of diagnostics that count as errors. -/
def isError (d : Diagnostic) : Bool := d.severity = Text.ofString Severity.error.word

/-- A diagnostic about input that cannot be read. -/
def unreadable (message : Text) (span : Span) : Diagnostic :=
  ⟨message, none, some "reader", Severity.error.word, span, [], [], none⟩

/-- Where the node stands makes no difference. -/
theorem same_site (a b : Diagnostic) (p q : Option Position) :
    same { a with site := p } { b with site := q } = same a b := rfl

end Diagnostic

/-- Holds when some diagnostic counts as an error. -/
def hasErrors (ds : List Diagnostic) : Bool := ds.any Diagnostic.isError

theorem hasErrors_append (ds es : List Diagnostic) :
    hasErrors (ds ++ es) = (hasErrors ds || hasErrors es) := by
  simp [hasErrors]

end ManifestLint
