/-
ManifestLint.Issue.Sink — the issues of one pass, in the order they were found.

A report is dropped if its code is ignored, and otherwise becomes a diagnostic at
the end of the list. A report that lacks an argument fails and records nothing.

The main statements: an ignored report changes nothing (`report_of_ignored`), and any
other report is recorded at the end exactly when its message can be filled
(`report_of_not_ignored`).
-/
import ManifestLint.Issue.Diagnostic

namespace ManifestLint

/-- A collector of issues with its severities and the file that issues are located in. -/
structure Sink where
  severities : Severities
  file : Option Text
  issues : List Diagnostic

namespace Sink

/-- A sink that holds nothing. -/
def empty (severities : Severities) (file : Option Text) : Sink := ⟨severities, file, []⟩

/-- The diagnostic of a report whose message is filled. -/
def diagnose (s : Sink) (c : Code) (location : Location) (site : Option Position)
    (arguments : Arguments) (message : Text) : Diagnostic :=
  { message
    code := some c
    phase := some "validator"
    severity := (s.severities.effective c).word
    span := Span.ofLocation location s.file
    arguments
    notes := []
    site }

/-- Reports an issue about a node, known by its location and perhaps by its position. -/
def report (s : Sink) (c : Code) (location : Location) (site : Option Position)
    (arguments : Arguments) : Except MissingField Sink :=
  if s.severities.effective c = .ignore then .ok s
  else (c.template.fill arguments).map fun message =>
    { s with issues := s.issues ++ [s.diagnose c location site arguments message] }

/-- An ignored report changes nothing, whatever its arguments. -/
theorem report_of_ignored (s : Sink) (c : Code) (location : Location) (site : Option Position)
    (arguments : Arguments) (h : s.severities.effective c = .ignore) :
    s.report c location site arguments = .ok s := by
  simp [report, h]

/-- Any other report is recorded at the end, if its message can be filled. -/
theorem report_of_not_ignored (s : Sink) (c : Code) (location : Location) (site : Option Position)
    (arguments : Arguments) (h : s.severities.effective c ≠ .ignore) :
    s.report c location site arguments =
      (c.template.fill arguments).map fun message =>
        { s with issues := s.issues ++ [s.diagnose c location site arguments message] } := by
  simp [report, h]

end Sink

end ManifestLint
