/-
ManifestLint.Span — where a diagnostic points, and the locations it is made from.

A tree node knows its location in one of several forms: nothing, a line and a
column, a whole span, or some other object that has a file, a line and a column.
`Span.ofLocation` makes a span of any of them and remembers what it was made from.

The main statements say which file wins (`ofLocation_span_of_file`,
`ofLocation_object_file`) and when a span is kept as it is (`ofLocation_of_isKept`).
-/
import ManifestLint.Datum

namespace ManifestLint

/-- What a span was made from: a value of the caller's own, or a location that is no span. -/
inductive Raw where
  | datum (value : Datum)
  | point (line column : Option Int)
  | object (file : Option Text) (line column : Option Int)
  deriving DecidableEq, Repr

/-- A place in a source file, as far as it is known. -/
structure Span where
  file : Option Text
  line : Option Int
  column : Option Int
  raw : Raw
  deriving DecidableEq, Repr

/-- Where a tree node says that it stands. -/
inductive Location where
  | unknown
  | point (line column : Option Int)
  | span (span : Span)
  | object (file : Option Text) (line column : Option Int)
  deriving DecidableEq, Repr

namespace Raw

/-- Equality of what spans were made from. -/
def same : Raw → Raw → Bool
  | .datum a, .datum b => a.same b
  | a, b => a = b

end Raw

namespace Span

/-- A span that knows a file at most. -/
def ofFile (file : Option Text) : Span := ⟨file, none, none, .datum .absent⟩

/-- The span that knows nothing. -/
def unknown : Span := ofFile none

/-- A span in a file at a line and a column. -/
def ofPlace (file : Option Text) (line column : Option Int) : Span :=
  ⟨file, line, column, .datum .absent⟩

/-- Equality of spans: file, line, column and what they were made from. -/
def same (a b : Span) : Bool :=
  a.file = b.file && a.line = b.line && a.column = b.column && a.raw.same b.raw

/-- The file of a pass, unless its name is empty. -/
def named (file : Option Text) : Option Text := file.filter (· ≠ [])

/-- A span made of a node's location in a pass over `file`. A span lacking a file takes the pass's;
every other location prefers the pass's file to its own. -/
def ofLocation (location : Location) (file : Option Text) : Span :=
  match location with
  | .unknown => ofFile file
  | .point line column => ⟨named file, line, column, .point line column⟩
  | .span s => if s.file = none ∧ file ≠ none then { s with file := file } else s
  | .object f line column => ⟨(named file).or f, line, column, .object f line column⟩

/-- Holds when the location is a span that a pass over `file` keeps as it is. -/
def isKept : Location → Option Text → Bool
  | .span s, file => !(s.file = none && file ≠ none)
  | _, _ => false

theorem ofLocation_of_isKept (s : Span) (file : Option Text) (h : isKept (.span s) file = true) :
    ofLocation (.span s) file = s := by
  simp only [isKept, Bool.not_eq_true', Bool.and_eq_false_iff, decide_eq_false_iff_not] at h
  have : ¬ (s.file = none ∧ file ≠ none) := by
    intro hc
    rcases h with h | h
    · exact h hc.1
    · exact h hc.2
  simp [ofLocation, this]

/-- A span's own file wins. -/
theorem ofLocation_span_of_file (s : Span) (file : Option Text) (h : s.file ≠ none) :
    (ofLocation (.span s) file).file = s.file := by
  simp [ofLocation, h]

/-- Elsewhere the pass's file wins if it has a name. -/
theorem ofLocation_object_file (f : Option Text) (line column : Option Int) (name : Text)
    (h : name ≠ []) : (ofLocation (.object f line column) (some name)).file = some name := by
  simp [ofLocation, named, h]

/-- The text of a span: its file if it has a name, then line and column (zero for an unknown
column) if the line is known. -/
def text (s : Span) : Text :=
  let place := s.line.map fun line =>
    Text.ofInt line ++ Text.ofString ":" ++ Text.ofInt (s.column.getD 0)
  match named s.file, place with
  | some file, some place => file ++ Text.ofString ":" ++ place
  | some file, none => file
  | none, some place => place
  | none, none => "<unknown location>"

end Span

end ManifestLint
