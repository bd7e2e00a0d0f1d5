/-
ManifestLint.Proofs.OutputLines — lines of output and diagnostics.

A run without JSON prints each diagnostic and a line feed after it. That is a line for each
diagnostic if no diagnostic has a line feed of its own, which one can have from its path or from
its message. The one diagnostic of a malformed file always has: the list of what the text should
have gone on with is part of its message.

The main statements: a malformed file has one finding, of more than one line
(`check_of_isMalformed`), and a plain file that is not malformed has findings of one line
(`oneLine_of_check`); so a run prints as many lines as it has findings, or more (`prints_of_run`).
-/
import ManifestLint.Proofs.Independence
import ManifestLint.Proofs.MessageLines

namespace ManifestLint.CommandLine

open PN
open Text (OneLine)

/-! ## 1. Diagnostics -/

/-- A diagnostic about a file is shown in one line if the file and the message are. -/
theorem oneLine_text_iff {d : Diagnostic} {file : Text} (hfile : Span.named d.span.file = some file)
    (hseverity : d.severity.OneLine) : d.text.OneLine ↔ file.OneLine ∧ d.message.OneLine := by
  have hspan : d.span.text.OneLine ↔ file.OneLine := by
    rw [Span.text, hfile]
    cases d.span.line with
    | none => rfl
    | some line => simp
  have hcode : ∀ c : Code, '\n' ∉ c.key.toList := by
    intro c
    cases c <;> decide
  unfold Diagnostic.text
  cases d.code with
  | none => simp [hspan, hseverity]
  | some c => simp [hspan, hseverity, hcode, toString]

/-- Holds of files that are decoded to a text that the grammar cannot go on with. -/
def IsMalformed (content : Content) : Prop :=
  ∃ bytes m, content = .ok bytes ∧ readSource bytes = .error (.text (.malformed m))

/-- What a source brings along takes one line: its path, the reason why it cannot be read, and what
the strings in its text mean. -/
structure IsPlain (path : Path) (content : Content) : Prop where
  path : '\n' ∉ path.shown.toList
  fault : ∀ f, content = .error f → '\n' ∉ f.message.toList
  strings : ∀ bytes cs, content = .ok bytes → Text.Utf8.decode bytes = .ok cs →
    OneLineStrings (Text.Utf8.unifyNewlines cs)

/-! ## 2. One source -/

section

variable {s : Settings} {path : Path} {content : Content} {ds : List Diagnostic}

theorem oneLine_severity_of_check (h : (check s path content).diagnostics = .ok ds) :
    ∀ d ∈ ds, d.severity.OneLine := by
  have hword : ∀ severity : Severity, OneLine severity.word := by
    intro severity
    cases severity <;> decide
  intro d hd
  rcases check_cases h with ⟨bytes, root, -, -, rfl⟩ | ⟨-, message, line, column, rfl⟩
  · obtain ⟨-, -, r, -, -, rfl⟩ := Report.exists_of_mem_issues hd
    exact hword _
  · obtain rfl := List.mem_singleton.mp hd
    exact hword .error

/-- What is found in a source is shown in one line if its path and its message are. -/
theorem oneLine_text_of_check (h : (check s path content).diagnostics = .ok ds) :
    ∀ d ∈ ds, d.text.OneLine ↔ '\n' ∉ path.shown.toList ∧ d.message.OneLine := by
  intro d hd
  have hfile := ((foundIn_of_check h).located _ (List.mem_map_of_mem hd)).2.1
  have hnamed : Span.named d.span.file = some (Text.ofString path.shown) := by
    rw [hfile]
    simp [Span.named, path.ofString_shown_ne_nil]
  rw [oneLine_text_iff hnamed (oneLine_severity_of_check h d hd), Text.oneLine_ofString]

/-- In a malformed file one thing is found, with a message of more than one line. -/
theorem check_of_isMalformed (h : (check s path content).diagnostics = .ok ds)
    (hmalformed : IsMalformed content) : ∃ d, ds = [d] ∧ ¬ d.message.OneLine := by
  obtain ⟨bytes, m, rfl, hread⟩ := hmalformed
  unfold check at h
  dsimp only at h
  split at h
  · cases h
  · rw [hread] at h
    cases h
    exact ⟨_, rfl, not_oneLine_of_malformed m⟩

/-- What is found in a plain source that is not malformed has a message of one line. -/
theorem oneLine_of_check (h : (check s path content).diagnostics = .ok ds)
    (hplain : IsPlain path content) (hformed : ¬ IsMalformed content) :
    ∀ d ∈ ds, d.message.OneLine := by
  unfold check at h
  dsimp only at h
  split at h
  · cases h
  · cases content with
    | error f =>
      cases h
      simpa [Diagnostic.unreadable, toString] using hplain.fault f rfl
    | ok bytes =>
      dsimp only at h
      cases hread : readSource bytes with
      | ok root =>
        obtain ⟨cs, hdecode, hroot⟩ := readSource_eq_ok_iff.mp hread
        have hstrings := hplain.strings bytes cs rfl hdecode
        simp only [hread, Checker.validate_eq_ok] at h
        cases h
        exact Report.oneLine_message (oneLine_of_read hroot hstrings)
      | error e =>
        rw [hread] at h
        cases e with
        | encoding f =>
          cases h
          have hreason : '\n' ∉ f.reason.message.toList := by
            cases f.reason <;> decide
          simpa [Diagnostic.unreadable, toString] using hreason
        | text e =>
          obtain ⟨cs, hdecode, hrefused⟩ := readSource_eq_text_iff.mp hread
          have hstrings := hplain.strings bytes cs rfl hdecode
          cases e with
          | malformed m => exact absurd ⟨bytes, m, rfl, hread⟩ hformed
          | refused r =>
            cases r with
            | tooManyDigits n => cases h
            | fault p why =>
              cases h
              have hwhy := oneLine_of_refused hrefused hstrings
              simpa [Diagnostic.unreadable, ReadError.reason] using hwhy

end

/-! ## 3. All sources -/

/-- The findings of a run are those of the checks of its sources, which all return. -/
theorem mem_findings {s : Settings} {sources : List (Path × Content)} {fs : List Finding}
    (h : (checkAll s sources).findings = .ok fs) :
    (∀ source ∈ sources, ∃ ds, (check s source.1 source.2).diagnostics = .ok ds ∧
        ∀ d ∈ ds, ⟨source.1, d⟩ ∈ fs) ∧
      ∀ f ∈ fs, ∃ source ∈ sources, ∃ ds, (check s source.1 source.2).diagnostics = .ok ds ∧
        f.path = source.1 ∧ f.diagnostic ∈ ds := by
  induction sources generalizing fs with
  | nil =>
    cases h
    simp
  | cons source sources ih =>
    obtain ⟨path, content⟩ := source
    simp only [checkAll] at h
    cases hd : (check s path content).diagnostics with
    | error failure => simp [hd] at h
    | ok ds =>
      cases hrest : (checkAll s sources).findings with
      | error failure => simp [hd, hrest, Except.map] at h
      | ok gs =>
        simp only [hd, hrest, Except.map, Except.ok.injEq] at h
        obtain ⟨hchecked, hfound⟩ := ih hrest
        subst h
        constructor
        · rw [List.forall_mem_cons]
          refine ⟨⟨ds, hd, fun d hmem => ?_⟩, fun source hsource => ?_⟩
          · exact List.mem_append_left gs (List.mem_map_of_mem hmem)
          · obtain ⟨us, hus, hmem⟩ := hchecked source hsource
            exact ⟨us, hus, fun d hd => List.mem_append_right _ (hmem d hd)⟩
        · intro f hf
          rcases List.mem_append.mp hf with hf | hf
          · obtain ⟨d, hmem, rfl⟩ := List.mem_map.mp hf
            exact ⟨_, List.mem_cons_self, ds, hd, rfl, hmem⟩
          · obtain ⟨source, hsource, others⟩ := hfound f hf
            exact ⟨source, List.mem_cons_of_mem _ hsource, others⟩

/-- The error stream has one line for each of the findings, in their order, and nothing else. -/
def Outcome.IsLines (o : Outcome) (fs : List Finding) : Prop :=
  Text.splitLines o.err = (fs.map fun f => f.diagnostic.text, [])

/-- How the error stream of a run stands to its findings, of which the JSON document of the run has
as many entries in the same order. It has a line for each of them exactly if no path and no message
of them has a line feed, and more lines otherwise; so it never has if a file is malformed, and over
plain files this is the only reason not to. -/
structure Prints (files : Path → Content) (s : Settings) (names : List String) (o : Outcome)
    (fs : List Finding) : Prop where
  reports : Reports files s names fs o.exitCode
  out : o.out = []
  err : o.err = Text.unlines (fs.map fun f => f.diagnostic.text)
  isLines_iff : o.IsLines fs ↔
    ∀ f ∈ fs, '\n' ∉ f.path.shown.toList ∧ f.diagnostic.message.OneLine
  more : ¬ o.IsLines fs → fs.length < (Text.splitLines o.err).1.length
  malformed : ∀ name ∈ names, IsMalformed (files (Path.ofString name)) → ¬ o.IsLines fs
  plain : (∀ name ∈ names, IsPlain (Path.ofString name) (files (Path.ofString name))) →
    (o.IsLines fs ↔ ∀ name ∈ names, ¬ IsMalformed (files (Path.ofString name)))

variable {files : Path → Content} {s : Settings} {names : List String}

/-- The lines of a run over named sources, from what is found in these. -/
theorem prints_of_findings (hnames : names ≠ []) {fs : List Finding}
    (h : (checkAll s (sourcesOf files names)).findings = .ok fs) :
    Prints files s names ⟨exitCode fs, [], lines fs⟩ fs := by
  obtain ⟨hchecked, hfound⟩ := mem_findings h
  have htexts : Outcome.IsLines ⟨exitCode fs, [], lines fs⟩ fs ↔
      ∀ f ∈ fs, f.diagnostic.text.OneLine := by
    rw [Outcome.IsLines, lines, Text.splitLines_unlines_iff, List.forall_mem_map]
  have hmessages : Outcome.IsLines ⟨exitCode fs, [], lines fs⟩ fs ↔
      ∀ f ∈ fs, '\n' ∉ f.path.shown.toList ∧ f.diagnostic.message.OneLine := by
    rw [htexts]
    refine forall₂_congr fun f hf => ?_
    obtain ⟨source, -, ds, hds, hpath, hmem⟩ := hfound f hf
    rw [hpath]
    exact oneLine_text_of_check hds _ hmem
  have hbreaks : ∀ name ∈ names, IsMalformed (files (Path.ofString name)) →
      ¬ Outcome.IsLines ⟨exitCode fs, [], lines fs⟩ fs := by
    intro name hname hmalformed hlines
    obtain ⟨ds, hds, hmem⟩ := hchecked _ (List.mem_map_of_mem hname)
    obtain ⟨d, rfl, hd⟩ := check_of_isMalformed hds hmalformed
    exact hd (hmessages.mp hlines _ (hmem d List.mem_cons_self)).2
  constructor
  case reports => exact reports_of_findings hnames h
  case out => rfl
  case err => rfl
  case isLines_iff => exact hmessages
  case more =>
    rw [htexts, not_forall₂]
    intro hbroken
    obtain ⟨f, hf, hline⟩ := hbroken
    simpa [lines] using Text.length_lt_splitLines ⟨_, List.mem_map_of_mem hf, hline⟩
  case malformed => exact hbreaks
  case plain =>
    intro hplain
    refine ⟨fun hlines name hname hmalformed => hbreaks name hname hmalformed hlines, ?_⟩
    intro hformed
    rw [hmessages]
    intro f hf
    obtain ⟨source, hsource, ds, hds, hpath, hmem⟩ := hfound f hf
    obtain ⟨name, hname, rfl⟩ := List.mem_map.mp hsource
    rw [hpath]
    exact ⟨(hplain name hname).path,
      oneLine_of_check hds (hplain name hname) (hformed name hname) _ hmem⟩

/-- A run without JSON that returns prints its findings, each in one line unless its path or its
message has a line feed, as that of a malformed file has. -/
theorem prints_of_run (hnames : names ≠ []) (hquiet : s.verbose = false) {o : Outcome}
    (h : run files (commandLine { s with json := false } names) = .ok o) :
    ∃ fs, Prints files s names o fs := by
  rw [run_commandLine _ hnames, report, checkAll_json] at h
  cases hfs : (checkAll s (sourcesOf files names)).findings with
  | error failure => simp [hfs] at h
  | ok fs =>
    simp only [hfs, hquiet] at h
    cases h
    exact ⟨fs, prints_of_findings hnames hfs⟩

/-- A file with nothing but a closing bracket. -/
def unbalancedFiles : FileTree := [(["a.pn"], .file [41])]

/-- The bracket is one thing to report, in more than one line. -/
theorem findings_unbalanced : ∃ d,
    (checkAll ⟨⟨false, false, false⟩, .error⟩ (sourcesOf unbalancedFiles.read ["a.pn"])).findings =
      .ok [⟨Path.ofString "a.pn", d⟩] ∧ ¬ d.message.OneLine := by
  have hfile : unbalancedFiles.read (Path.ofString "a.pn") = .ok [41] := by cbv
  have hnull : (Path.ofString "a.pn").holdsNull = false := by decide
  have hread : readSource [41] = .error (.text (.malformed (.unexpected
      ⟨.rightParen, [')'], ⟨1, 1⟩⟩
      [.falseWord, .leftParen, .leftBracket, .nilWord, .number, .string, .trueWord]))) := by cbv
  have hcheck : ∃ ds, (check ⟨⟨false, false, false⟩, .error⟩ (Path.ofString "a.pn")
      (.ok [41])).diagnostics = .ok ds := by
    simp only [check, hnull, hread]
    exact ⟨_, rfl⟩
  obtain ⟨ds, hds⟩ := hcheck
  obtain ⟨d, rfl, hbroken⟩ := check_of_isMalformed hds ⟨_, _, rfl, hread⟩
  refine ⟨d, ?_, hbroken⟩
  simp only [sourcesOf, List.map_cons, List.map_nil, checkAll, hfile, hds]
  rfl

theorem prints_of_run_unbalanced : ∃ o fs,
    run unbalancedFiles.read (commandLine ⟨⟨false, false, false⟩, .error⟩ ["a.pn"]) = .ok o ∧
      Prints unbalancedFiles.read ⟨⟨false, false, false⟩, .error⟩ ["a.pn"] o fs := by
  obtain ⟨d, hd, -⟩ := findings_unbalanced
  have hrun := (reports_of_findings (by decide) hd).lines
  obtain ⟨fs, hprints⟩ := prints_of_run (by decide) rfl hrun
  exact ⟨_, fs, hrun, hprints⟩

/-- The run over the bracket has one finding and more than one line. -/
theorem not_isLines_unbalanced : ¬ ∀ (files : Path → Content) (s : Settings) (names : List String)
    (o : Outcome), names ≠ [] → s.verbose = false →
    run files (commandLine { s with json := false } names) = .ok o →
      ∃ fs, (checkAll s (sourcesOf files names)).findings = .ok fs ∧ o.IsLines fs := by
  intro h
  obtain ⟨d, hd, hbroken⟩ := findings_unbalanced
  have hrun := (reports_of_findings (by decide) hd).lines
  obtain ⟨fs, hfs, hlines⟩ := h _ _ _ _ (by decide) rfl hrun
  rw [hd] at hfs
  obtain rfl := Except.ok.inj hfs
  have hmessages := (prints_of_findings (by decide) hd).isLines_iff.mp hlines
  exact hbroken (hmessages _ List.mem_cons_self).2

end ManifestLint.CommandLine
