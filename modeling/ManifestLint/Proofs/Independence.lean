/-
ManifestLint.Proofs.Independence — sources of a run are checked on their own.

A run goes from source to source and keeps nothing of one for the next. What it prints and how it
ends is therefore made of what the runs over the single sources report, in the order of the
sources, in both forms of output.

The main statements: what a check finds is located in its source, and it finds one error of the
reader where nothing can be read (`foundIn_of_check`); a run reports what is found in its sources
(`reports_of_findings`), with the largest of their exit codes (`max?_exitCode`); so each source is
reported as in a run of its own (`run_independent`).
-/
import ManifestLint.Proofs.ArgumentWords
import ManifestLint.Proofs.Sites

namespace ManifestLint

/-- The value of a member of an object. -/
def Json.member? : Json → String → Option Json
  | .object members, name => members.lookup name
  | _, _ => none

namespace CommandLine

/-! ## 1. The findings in one source -/

/-- There is a file, it can be decoded, and its text is that of a tree. -/
def IsRead (content : Content) : Prop :=
  ∃ bytes root, content = .ok bytes ∧ readSource bytes = .ok root

/-- What there is to the findings in one source. All are located in it, and shown so; they come from
the validator if the source is read, and otherwise there is one, an error of the reader. -/
structure FoundIn (path : Path) (content : Content) (fs : List Finding) : Prop where
  located : ∀ f ∈ fs, f.path = path ∧ f.diagnostic.span.file = some (Text.ofString path.shown) ∧
    f.json.member? "file" = some (.text (Text.ofString path.shown))
  checked : IsRead content → ∀ f ∈ fs, f.diagnostic.phase = some (Text.ofString "validator")
  unread : ¬ IsRead content → ∃ d, fs = [⟨path, d⟩] ∧ d.phase = some (Text.ofString "reader") ∧
    d.severity = Text.ofString "error" ∧ d.code = none

/-- A path is shown as something. -/
theorem Path.ofString_shown_ne_nil (p : Path) : Text.ofString p.shown ≠ [] := by
  have hne : p.shown ≠ "" := by
    unfold shown
    dsimp only
    split
    · decide
    · assumption
  intro hnil
  exact hne (by simpa [Text.ofString, Text.ofChars] using hnil)

/-- A finding located in its source is shown so. -/
theorem Finding.member?_file {f : Finding}
    (h : f.diagnostic.span.file = some (Text.ofString f.path.shown)) :
    f.json.member? "file" = some (.text (Text.ofString f.path.shown)) := by
  have hnamed : Span.named f.diagnostic.span.file = some (Text.ofString f.path.shown) := by
    simp [h, Span.named, f.path.ofString_shown_ne_nil]
  change some (Json.text ((Span.named f.diagnostic.span.file).getD _)) = _
  rw [hnamed, Option.getD_some]

/-- An error of a source is an error of the reader in it. -/
theorem eq_unreadable_of_sourceDiagnostic {file : Text} {e : SourceError} {d : Diagnostic}
    (h : sourceDiagnostic file e = .ok d) :
    ∃ message line column, d = .unreadable message (.ofPlace (some file) line column) := by
  unfold sourceDiagnostic at h
  split at h
  · cases h
    exact ⟨_, none, none, rfl⟩
  · cases h
  · cases h
    exact ⟨_, _, _, rfl⟩

/-- A check that returns finds what the rules report on the tree of its source, or else one error of
the reader. -/
theorem check_cases {s : Settings} {path : Path} {content : Content} {ds : List Diagnostic}
    (h : (check s path content).diagnostics = .ok ds) :
    (∃ bytes root, content = .ok bytes ∧ readSource bytes = .ok root ∧
      ds = Report.issues s.strictness (some (Text.ofString path.shown)) (root.reports s.mode)) ∨
    ¬ IsRead content ∧ ∃ message line column,
      ds = [.unreadable message (.ofPlace (some (Text.ofString path.shown)) line column)] := by
  cases hnull : path.holdsNull with
  | true => simp [check, hnull] at h
  | false =>
    cases content with
    | error f =>
      simp only [check, hnull] at h
      cases h
      exact .inr ⟨by simp [IsRead], _, none, none, rfl⟩
    | ok bytes =>
      cases hread : readSource bytes with
      | ok root =>
        simp only [check, hnull, hread, Checker.validate_eq_ok] at h
        cases h
        exact .inl ⟨bytes, root, rfl, hread, rfl⟩
      | error e =>
        simp only [check, hnull, hread] at h
        cases hd : sourceDiagnostic (Text.ofString path.shown) e with
        | error failure => simp [hd, Except.map] at h
        | ok d =>
          obtain ⟨message, line, column, rfl⟩ := eq_unreadable_of_sourceDiagnostic hd
          simp only [hd] at h
          cases h
          exact .inr ⟨by simp [IsRead, hread], message, line, column, rfl⟩

/-- Findings at the file that a path shows are located in the source. -/
theorem located_of_span {path : Path} {ds : List Diagnostic}
    (h : ∀ d ∈ ds, d.span.file = some (Text.ofString path.shown)) :
    ∀ f ∈ ds.map (Finding.mk path), f.path = path ∧
      f.diagnostic.span.file = some (Text.ofString path.shown) ∧
      f.json.member? "file" = some (.text (Text.ofString path.shown)) := by
  rw [List.forall_mem_map]
  intro d hd
  exact ⟨rfl, h d hd, Finding.member?_file (h d hd)⟩

/-- What a check finds is located in its source. -/
theorem foundIn_of_check {s : Settings} {path : Path} {content : Content} {ds : List Diagnostic}
    (h : (check s path content).diagnostics = .ok ds) :
    FoundIn path content (ds.map (Finding.mk path)) := by
  rcases check_cases h with ⟨bytes, root, rfl, hread, rfl⟩ | ⟨hunread, message, line, column, rfl⟩
  · obtain ⟨cs, -, hsource⟩ := readSource_eq_ok_iff.mp hread
    have hfound := Report.isFoundOn_of_read hsource s.mode s.strictness
      (some (Text.ofString path.shown))
    constructor
    case located =>
      refine located_of_span ?_
      intro d hd
      rw [(hfound d hd).file]
      simp [Span.named, path.ofString_shown_ne_nil]
    case checked =>
      intro _
      rw [List.forall_mem_map]
      exact fun d hd => (hfound d hd).phase
    case unread =>
      intro hunread
      exact absurd ⟨bytes, root, rfl, hread⟩ hunread
  · constructor
    case located =>
      exact located_of_span (by simp [Diagnostic.unreadable, Span.ofPlace])
    case checked =>
      intro hisRead
      exact absurd hisRead hunread
    case unread =>
      intro _
      exact ⟨_, rfl, rfl, rfl, rfl⟩

/-! ## 2. The findings in all sources -/

variable {files : Path → Content} {s : Settings} {names : List String}

/-- The sources that names on a command line lead to. -/
def sourcesOf (files : Path → Content) (names : List String) : List (Path × Content) :=
  names.map fun name => (Path.ofString name, files (Path.ofString name))

/-- What a run logs before it reports anything. -/
def logged (files : Path → Content) (s : Settings) (names : List String) : Text :=
  if s.verbose then Text.unlines (checkAll s (sourcesOf files names)).log else []

/-- A run over the files of these names ends with these findings and this exit code, be it in lines
or in a JSON document, which has the exit code too; and the exit code says whether an error is
among the findings. -/
structure Reports (files : Path → Content) (s : Settings) (names : List String) (fs : List Finding)
    (code : Nat) : Prop where
  lines : run files (commandLine { s with json := false } names) =
    .ok ⟨code, [], logged files s names ++ lines fs⟩
  json : ∃ document : Json, run files (commandLine { s with json := true } names) =
      .ok ⟨code, Text.unlines [Text.ofChars document.chars], logged files s names⟩ ∧
    document.member? "exit_code" = some (Json.ofNat code) ∧
    document.member? "diagnostics" = some (.list (fs.map Finding.json))
  failed : code = 1 ↔ ∃ f ∈ fs, f.diagnostic.severity = Text.ofString "error"
  le_one : code ≤ 1

theorem exitCode_eq_one_iff (fs : List Finding) :
    exitCode fs = 1 ↔ ∃ f ∈ fs, f.diagnostic.severity = Text.ofString "error" := by
  have herrors : hasErrors (fs.map Finding.diagnostic) = true ↔
      ∃ f ∈ fs, f.diagnostic.severity = Text.ofString "error" := by
    simp only [hasErrors, List.any_map, List.any_eq_true, Function.comp, Diagnostic.isError,
      decide_eq_true_eq]
    rfl
  rw [← herrors, exitCode]
  split <;> simp_all

theorem exitCode_le_one (fs : List Finding) : exitCode fs ≤ 1 := by
  unfold exitCode
  split <;> simp

/-- The form of the output makes no difference to what is found. -/
theorem checkAll_json (s : Settings) (json : Bool) (sources : List (Path × Content)) :
    checkAll { s with json } sources = checkAll s sources := by
  induction sources with
  | nil => rfl
  | cons source sources ih =>
    simp only [checkAll, ih]
    rfl

/-- A command line that names sources reports on these. -/
theorem run_commandLine (s : Settings) (hnames : names ≠ []) :
    run files (commandLine s names) = report s (sourcesOf files names) := by
  simp only [run, parseArguments_commandLine s hnames, sourcesOf, List.map_map]
  rfl

/-- A run reports what is found in its sources. -/
theorem reports_of_findings (hnames : names ≠ []) {fs : List Finding}
    (h : (checkAll s (sourcesOf files names)).findings = .ok fs) :
    Reports files s names fs (exitCode fs) := by
  constructor
  case lines =>
    rw [run_commandLine _ hnames, report, checkAll_json]
    simp only [h, logged]
    rfl
  case json =>
    refine ⟨payload fs, ?_, rfl, rfl⟩
    rw [run_commandLine _ hnames, report, checkAll_json]
    simp only [h, logged]
    rfl
  case failed => exact exitCode_eq_one_iff fs
  case le_one => exact exitCode_le_one fs

/-- The order of findings makes no difference to the exit code. -/
theorem exitCode_perm {fs gs : List Finding} (h : fs.Perm gs) : exitCode fs = exitCode gs := by
  rw [exitCode, exitCode, hasErrors, hasErrors, (h.map Finding.diagnostic).any_eq]

theorem exitCode_append (fs gs : List Finding) :
    exitCode (fs ++ gs) = max (exitCode fs) (exitCode gs) := by
  simp only [exitCode, List.map_append, hasErrors_append]
  cases hasErrors (fs.map Finding.diagnostic) <;>
    cases hasErrors (gs.map Finding.diagnostic) <;> rfl

/-- The exit code for findings from several sources is the largest of those for each of them. -/
theorem max?_exitCode (alone : String → List Finding) (hnames : names ≠ []) :
    (names.map fun name => exitCode (alone name)).max? = some (exitCode (names.flatMap alone)) := by
  induction names with
  | nil => exact absurd rfl hnames
  | cons name rest ih =>
    rw [List.map_cons, List.max?_cons, List.flatMap_cons, exitCode_append]
    cases rest with
    | nil => simp [exitCode, hasErrors]
    | cons next rest =>
      rw [ih (List.cons_ne_nil next rest)]
      rfl

/-- Each source of a run is checked and reported as it is in a run of its own. If every check
returns, there are findings and an exit code of each source, with which a run over it alone ends;
the findings are those of the check, and located in the source. A run over all sources, in any
order, ends with all the findings in that order and with the largest of the exit codes. -/
theorem run_independent (hnames : names ≠ [])
    (hreturns : ∀ name ∈ names, ∃ ds,
      (check s (Path.ofString name) (files (Path.ofString name))).diagnostics = .ok ds) :
    ∃ (alone : String → List Finding) (code : String → Nat),
      (∀ name ∈ names, Reports files s [name] (alone name) (code name) ∧
        (check s (Path.ofString name) (files (Path.ofString name))).diagnostics =
          .ok ((alone name).map Finding.diagnostic) ∧
        FoundIn (Path.ofString name) (files (Path.ofString name)) (alone name)) ∧
      ∀ order, order.Perm names → ∃ total, Reports files s order (order.flatMap alone) total ∧
        (names.map code).max? = some total := by
  let found (source : Path × Content) : List Diagnostic :=
    ((check s source.1 source.2).diagnostics.toOption).getD []
  let alone (name : String) : List Finding :=
    (found (Path.ofString name, files (Path.ofString name))).map (Finding.mk (Path.ofString name))
  have hfound : ∀ name ∈ names,
      (check s (Path.ofString name) (files (Path.ofString name))).diagnostics =
        .ok (found (Path.ofString name, files (Path.ofString name))) := by
    intro name hname
    obtain ⟨ds, hds⟩ := hreturns name hname
    simp only [found, hds]
    rfl
  have hreports : ∀ ns, ns ≠ [] → ns ⊆ names →
      Reports files s ns (ns.flatMap alone) (exitCode (ns.flatMap alone)) := by
    intro ns hne hsub
    have hchecks : ∀ source ∈ sourcesOf files ns,
        (check s source.1 source.2).diagnostics = .ok (found source) := by
      rw [sourcesOf, List.forall_mem_map]
      exact fun name hname => hfound name (hsub hname)
    refine reports_of_findings hne ?_
    rw [findings_checkAll hchecks, sourcesOf, List.flatMap_map]
  refine ⟨alone, fun name => exitCode (alone name), ?_, ?_⟩
  · intro name hname
    have halone := hreports [name] (by simp) (by simpa using hname)
    rw [List.flatMap_singleton] at halone
    refine ⟨halone, ?_, foundIn_of_check (hfound name hname)⟩
    rw [hfound name hname, List.map_map]
    exact congrArg Except.ok (List.map_id _).symm
  · intro order hperm
    have hne : order ≠ [] := by
      rintro rfl
      exact hnames hperm.symm.eq_nil
    refine ⟨_, hreports order hne hperm.subset, ?_⟩
    rw [max?_exitCode alone hnames, exitCode_perm (hperm.flatMap_right alone)]

/-- A file and a directory beside it. -/
def sampleFiles : FileTree :=
  [(["site.pn"], .file ("(block 1 2)".toList.map fun c => UInt8.ofNat c.toNat)),
    (["modules"], .directory)]

/-- The file is checked, twice, although nothing around it can be read, which the run fails for. -/
theorem run_independent_mixed :
    ∃ fs, Reports sampleFiles.read ⟨⟨true, false, false⟩, .warning⟩
      ["gone.pn", "site.pn", "modules", "site.pn"] fs 1 := by
  have hgone : sampleFiles.read (Path.ofString "gone.pn") = .error .noSuchFile := by cbv
  have hmodules : sampleFiles.read (Path.ofString "modules") = .error .isDirectory := by cbv
  have hsite : sampleFiles.read (Path.ofString "site.pn") =
      .ok ("(block 1 2)".toList.map fun c => UInt8.ofNat c.toNat) := by cbv
  have hread : readSource ("(block 1 2)".toList.map fun c => UInt8.ofNat c.toNat) =
      .ok (.node .block (.point (some 1) (some 1))
        [.node (.integer 1) (.point (some 1) (some 8)) [],
          .node (.integer 2) (.point (some 1) (some 10)) []]) := by cbv
  have hnull : ∀ name ∈ ["gone.pn", "site.pn", "modules"],
      (Path.ofString name).holdsNull = false := by decide
  simp only [List.forall_mem_cons] at hnull
  have hfile : ∃ ds, (check ⟨⟨true, false, false⟩, .warning⟩ (Path.ofString "site.pn")
      (sampleFiles.read (Path.ofString "site.pn"))).diagnostics = .ok ds := by
    simp only [check, hsite, hread, hnull, Checker.validate_eq_ok]
    exact ⟨_, rfl⟩
  have hreturns : ∀ name ∈ ["gone.pn", "site.pn", "modules", "site.pn"], ∃ ds,
      (check ⟨⟨true, false, false⟩, .warning⟩ (Path.ofString name)
        (sampleFiles.read (Path.ofString name))).diagnostics = .ok ds := by
    simp only [List.forall_mem_cons]
    refine ⟨?_, hfile, ?_, hfile, List.forall_mem_nil _⟩
    · simp only [check, hgone, hnull]
      exact ⟨_, rfl⟩
    · simp only [check, hmodules, hnull]
      exact ⟨_, rfl⟩
  obtain ⟨alone, code, halone, horder⟩ := run_independent (by simp) hreturns
  obtain ⟨total, hreports, hmax⟩ := horder _ (List.Perm.refl _)
  obtain ⟨hfailed, -, hfound⟩ := halone "gone.pn" (by simp)
  obtain ⟨d, hd, -, hseverity, -⟩ := hfound.unread (by simp [hgone, IsRead])
  have hcode : code "gone.pn" = 1 := hfailed.failed.mpr ⟨_, by rw [hd]; exact .head _, hseverity⟩
  have hle := (List.max?_eq_some_iff.mp hmax).2 (code "gone.pn") (by simp)
  obtain rfl : total = 1 := Nat.le_antisymm hreports.le_one (hcode ▸ hle)
  exact ⟨_, hreports⟩

end CommandLine

end ManifestLint
