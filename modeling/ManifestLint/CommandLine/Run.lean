/-
ManifestLint.CommandLine.Run — checking files and reporting what was found.

Each source is read and checked on its own; a source that cannot be read yields one
diagnostic of the reader. All diagnostics are shown in the order of the sources,
as lines on the error stream or as one JSON document, and the exit code says
whether an error is among them. A run breaks off if no strictness is set, and at a
source whose check fails: then nothing is reported of any source, and the failure is
the answer.

The main statements: what a run finds is what it finds in each source, in order
(`checkAll_append`), and the exit code is the same in both output forms
(`exitCode_report`).
-/
import ManifestLint.Check.Checker
import ManifestLint.CommandLine.Arguments
import ManifestLint.CommandLine.FileTree
import ManifestLint.Json
import ManifestLint.Source

namespace ManifestLint.CommandLine

/-! ## 1. One source -/

/-- Why a run or the check of one source fails, so that it has no diagnostics. -/
inductive Failure where
  /-- The strictness has been taken away. -/
  | noStrictness
  /-- The path holds a NUL, which no file name can. -/
  | nullInPath
  /-- The source holds an integer with this many digits, too many to be read. -/
  | tooManyDigits (count : Nat)
  /-- A rule left a field of its message unfilled. -/
  | missingField (field : MissingField)
  deriving DecidableEq, Repr

/-- The words for a failure. -/
def Failure.message : Failure → Text
  | noStrictness => "unhashable type: 'list'"
  | nullInPath => "embedded null byte"
  | tooManyDigits count => PN.digitMessage PN.Numeral.digitLimit count
  | missingField field => Text.ofChars (Text.quoted field.name.toList)

/-- What checking one source yields: log lines, and diagnostics unless the check fails. -/
structure Checked where
  log : List Text
  diagnostics : Except Failure (List Diagnostic)

/-- The mode that the settings ask for. -/
def Settings.mode (s : Settings) : Mode := if s.workflow then .workflow else .manifest

/-- The log line before a source is read. -/
def readingLine (path : Path) : Text := s!"DEBUG manifestc.manifestc: reading {path.shown}"

/-- The log lines of a pass over a tree that found `count` issues. -/
def passLines (s : Settings) (root : Tree) (count : Nat) : List Text :=
  let className := (root.kind?.map Kind.className).getD ""
  let start := s!"DEBUG manifestc.validator.walker: {s.mode.checkerName}: "
  [s!"{start}validating {className} (strict={s.strictness.name})", s!"{start}{count} issue(s)"]

/-- The diagnostic for content that makes no tree. An integer with too many digits makes the check
fail instead. -/
def sourceDiagnostic (file : Text) : SourceError → Except Failure Diagnostic
  | .encoding f =>
    .ok (.unreadable s!"file is not valid UTF-8: {f.reason.message} at byte {f.start}"
      (.ofFile (some file)))
  | .text (.refused (.tooManyDigits count)) => .error (.tooManyDigits count)
  | .text e =>
    .ok (.unreadable e.reason
      (.ofPlace (some file) (e.point?.map fun p => (p.line : Int))
        (e.point?.map fun p => (p.column : Int))))

/-- Checks one source. -/
def check (s : Settings) (path : Path) (content : Content) : Checked :=
  let file := Text.ofString path.shown
  let reading := readingLine path
  if path.holdsNull then ⟨[reading], .error .nullInPath⟩
  else match content with
  | .error f =>
    ⟨[reading], .ok [.unreadable s!"cannot read file: {f.message}" (.ofFile (some file))]⟩
  | .ok bytes =>
    match readSource bytes with
    | .error e => ⟨[reading], (sourceDiagnostic file e).map fun d => [d]⟩
    | .ok root =>
      match (Checker.new s.mode s.strictness (some file)).validate root with
      | .error missing => ⟨[reading], .error (.missingField missing)⟩
      | .ok c => ⟨reading :: passLines s root c.issues.length, .ok c.issues⟩

/-! ## 2. All sources -/

/-- A diagnostic and the source that it was found in. -/
structure Finding where
  path : Path
  diagnostic : Diagnostic

/-- What checking several sources yields. -/
structure AllChecked where
  log : List Text
  findings : Except Failure (List Finding)

/-- Checks sources in order, up to the first check that fails. -/
def checkAll (s : Settings) : List (Path × Content) → AllChecked
  | [] => ⟨[], .ok []⟩
  | (path, content) :: sources =>
    let one := check s path content
    match one.diagnostics with
    | .error e => ⟨one.log, .error e⟩
    | .ok ds =>
      let rest := checkAll s sources
      ⟨one.log ++ rest.log, rest.findings.map (ds.map (Finding.mk path) ++ ·)⟩

/-- What is found in sources is found in each of them, in order. -/
theorem checkAll_append (s : Settings) (as bs : List (Path × Content)) (fs : List Finding)
    (h : (checkAll s as).findings = .ok fs) :
    (checkAll s (as ++ bs)).findings = (checkAll s bs).findings.map (fs ++ ·) := by
  induction as generalizing fs with
  | nil =>
    simp only [checkAll, Except.ok.injEq] at h
    subst h
    cases hb : (checkAll s bs).findings <;> simp [hb, Except.map]
  | cons a as ih =>
    obtain ⟨path, content⟩ := a
    simp only [List.cons_append, checkAll] at h ⊢
    cases hd : (check s path content).diagnostics with
    | error e => simp [hd] at h
    | ok ds =>
      simp only [hd] at h ⊢
      cases hr : (checkAll s as).findings with
      | error e => simp [hr, Except.map] at h
      | ok gs =>
        simp only [hr, Except.map, Except.ok.injEq] at h
        subst h
        rw [ih gs hr]
        cases (checkAll s bs).findings <;> simp [Except.map]

/-! ## 3. Output -/

/-- What a run prints and how it ends. -/
structure Outcome where
  exitCode : Nat
  out : Text
  err : Text
  deriving DecidableEq, Repr

/-- A run that breaks off: what it logged up to then, and the failure. -/
structure Interruption where
  log : Text
  failure : Failure
  deriving DecidableEq, Repr

/-- The exit code for findings: one if an error is among them. -/
def exitCode (fs : List Finding) : Nat := if hasErrors (fs.map Finding.diagnostic) then 1 else 0

/-- A finding as a JSON object. -/
def Finding.json (f : Finding) : Json :=
  let d := f.diagnostic
  let file := (Span.named d.span.file).getD (Text.ofString f.path.shown)
  .object [
    ("phase", .optional .text d.phase),
    ("code", .optional (fun c => .ofString c.key) d.code),
    ("message", .text d.message),
    ("severity", .text d.severity),
    ("file", .text file),
    ("line", .optional .integer d.span.line),
    ("column", .optional .integer d.span.column),
    ("notes", .list (d.notes.map .text))]

/-- The JSON document for findings. -/
def payload (fs : List Finding) : Json :=
  .object [("exit_code", .ofNat (exitCode fs)), ("diagnostics", .list (fs.map Finding.json))]

/-- The lines for findings. -/
def lines (fs : List Finding) : Text := Text.unlines (fs.map fun f => f.diagnostic.text)

/-- What a run over sources whose contents are at hand prints. Log lines come first. A check that
fails breaks the run off. -/
def report (s : Settings) (sources : List (Path × Content)) : Except Interruption Outcome :=
  let all := checkAll s sources
  let log := if s.verbose then Text.unlines all.log else []
  match all.findings with
  | .error failure => .error ⟨log, failure⟩
  | .ok fs =>
    if s.json then .ok ⟨exitCode fs, Text.unlines [Text.ofChars (payload fs).chars], log⟩
    else .ok ⟨exitCode fs, [], log ++ lines fs⟩

/-- The exit code depends on the findings alone. -/
theorem exitCode_report (s : Settings) (sources : List (Path × Content)) (fs : List Finding)
    (h : (checkAll s sources).findings = .ok fs) :
    ∃ o, report s sources = .ok o ∧ o.exitCode = exitCode fs := by
  simp only [report, h]
  split
  · exact ⟨_, rfl, rfl⟩
  · exact ⟨_, rfl, rfl⟩

/-! ## 4. Usage -/

/-- The lines that say how the program is called. -/
def usage : String :=
  "usage: manifestc [-h] [--strict \x7berror,off,warning\x7d] [--workflow] [--json]\n" ++
  "                 [-v]\n" ++
  "                 source [source ...]\n"

/-- The text of the help flag. -/
def helpText : String :=
  usage ++
  "\nSemantic validator for PN-encoded manifests\n" ++
  "\npositional arguments:\n" ++
  "  source                Path(s) to PN files\n" ++
  "\noptions:\n" ++
  "  -h, --help            show this help message and exit\n" ++
  "  --strict \x7berror,off,warning\x7d\n" ++
  "                        Severity of demotable issues such as statements with\n" ++
  "                        no effect (default: error)\n" ++
  "  --workflow            Also apply workflow activity checks\n" ++
  "  --json                Emit diagnostics as JSON\n" ++
  "                        (phase/code/message/severity/file/line/column)\n" ++
  "  -v, --verbose         Enable debug logging\n"

/-- What a refused command line prints. -/
def refusal (e : UsageError) : Outcome :=
  ⟨2, [], usage ++ "manifestc: error: " ++ e.message ++ "\n"⟩

/-- What the help flag prints. -/
def help : Outcome := ⟨0, helpText, []⟩

/-- Runs a command line over files in memory. -/
def run (files : Path → Content) (arguments : List String) : Except Interruption Outcome :=
  match parseArguments arguments with
  | .error e => .ok (refusal e)
  | .ok .help => .ok help
  | .ok .noStrictness => .error ⟨[], .noStrictness⟩
  | .ok (.check s sources) => report s (sources.map fun p => (p, files p))

end ManifestLint.CommandLine
