/-
ManifestLint.Issue.Session — using one sink step by step.

Whoever asks a sink for its issues is given a list, and may change that list as they like. So
lists of issues stand in a memory here, each at an address: the one that the sink keeps, and those
that it has given away. A report changes the list that the sink keeps; asking for the issues gives
away a list of its own.

The main statement: a report that fails changes nothing (`take_report_error`).
-/
import ManifestLint.Issue.Sink

namespace ManifestLint.Sink

/-- A sink in use: its settings, lists of issues by address, the address of the list that the sink
keeps, and those of the lists that it has given away, in order. -/
structure Session where
  severities : Severities
  file : Option Text
  memory : List (List Diagnostic)
  kept : Nat
  given : List Nat

/-- One step. A list that was given away is changed by its number, counted from zero. -/
inductive Step where
  | report (code : Code) (location : Location) (site : Option Position) (arguments : Arguments)
  | issues
  | change (number : Nat) (list : List Diagnostic)

/-- The answer to a step. -/
inductive Answer where
  | count (count : Nat)
  | missing (field : MissingField)
  | issues (issues : List Diagnostic)

namespace Session

/-- A sink that holds nothing and has given nothing away. -/
def new (severities : Severities) (file : Option Text) : Session := ⟨severities, file, [[]], 0, []⟩

/-- The sink as it stands. -/
def sink (s : Session) : Sink := ⟨s.severities, s.file, s.memory[s.kept]?.getD []⟩

/-- The session after the list that was given away under a number is changed, if there is one. -/
def change (s : Session) (number : Nat) (list : List Diagnostic) : Session :=
  match s.given[number]? with
  | some address => { s with memory := s.memory.set address list }
  | none => s

/-- Takes one step. -/
def take (s : Session) : Step → Answer × Session
  | .report code location site arguments =>
    match s.sink.report code location site arguments with
    | .ok after =>
      (.count after.issues.length, { s with memory := s.memory.set s.kept after.issues })
    | .error e => (.missing e, s)
  | .issues =>
    (.issues s.sink.issues,
      { s with
        memory := s.memory ++ [s.sink.issues]
        given := s.given ++ [s.memory.length] })
  | .change number list =>
    (.count (s.change number list).sink.issues.length, s.change number list)

/-- Takes steps one after another. -/
def run (s : Session) : List Step → List Answer × Session
  | [] => ([], s)
  | st :: sts =>
    let (answer, s') := s.take st
    let (answers, last) := s'.run sts
    (answer :: answers, last)

/-- A report that fails changes nothing. -/
theorem take_report_error (s : Session) (code : Code) (location : Location)
    (site : Option Position) (arguments : Arguments) (e : MissingField)
    (h : s.sink.report code location site arguments = .error e) :
    s.take (.report code location site arguments) = (.missing e, s) := by
  simp [take, h]

/-- Steps are answered one after another. -/
theorem run_append (s : Session) (sts us : List Step) :
    s.run (sts ++ us) = ((s.run sts).1 ++ ((s.run sts).2.run us).1, ((s.run sts).2.run us).2) := by
  induction sts generalizing s with
  | nil => rfl
  | cons st sts ih => simp [run, ih]

end Session

end ManifestLint.Sink
