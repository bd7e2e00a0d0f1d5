/-
ManifestLint.Proofs.Strictness — what the settings of a pass change, and what they leave.

Strictness and file do not reach the rules: in every pass the rules of a mode report the same
(`Tree.reports`). The settings only decide what becomes of the reports, one by one. Strictness
is about a single code, which only blocks report; the file is about spans.

The main statements: with strictness off, one code is missing from the issues of a strict pass
(`issues_off`), and with warnings it is demoted (`issues_warning`); that code is among the issues
when a statement before the last one of some block has no effect (`exists_idem_iff`); and a pass
follows its settings like that and in nothing else (`validate_follows_settings`).
-/
import ManifestLint.Proofs.Pass
import Mathlib.Data.List.Forall2

namespace ManifestLint

/-! ## 1. Strictness -/

/-- The diagnostic as a warning if it is about a statement without effect, else as it is. -/
def Diagnostic.demoted (d : Diagnostic) : Diagnostic :=
  if d.code = some .idemExpressionNotLast then { d with severity := Severity.warning.word } else d

namespace Report

variable {r : Report}

theorem severity_of_idem (s : Strictness) (h : r.code = .idemExpressionNotLast) :
    r.severity s = s.severity := by
  simp [severity, h, Code.isDemotable]

theorem severity_of_ne_idem (s : Strictness) (h : r.code ≠ .idemExpressionNotLast) :
    r.severity s = .error := by
  simp [severity, h, Code.isDemotable, Code.severity]

/-- A pass that takes notice of statements without effect ignores nothing. -/
theorem issues_eq_map {s : Strictness} (hs : s.severity ≠ .ignore) (file : Option Text)
    (rs : List Report) : issues s file rs = rs.map (diagnostic s file) := by
  have hall : ∀ r ∈ rs, decide (r.severity s ≠ .ignore) = true := by
    intro r _
    by_cases h : r.code = .idemExpressionNotLast
    · simp [severity_of_idem _ h, hs]
    · simp [severity_of_ne_idem _ h]
  rw [issues, List.filter_eq_self.mpr hall]

/-- Without strictness, statements without effect are left out. -/
theorem issues_off (file : Option Text) (rs : List Report) :
    issues .off file rs =
      (issues .error file rs).filter fun d => d.code ≠ some .idemExpressionNotLast := by
  have herror : Strictness.error.severity ≠ .ignore := by decide
  rw [issues_eq_map herror, issues, List.filter_map]
  have hkept : ∀ r ∈ rs, decide (r.severity .off ≠ .ignore) =
      ((fun d : Diagnostic => decide (d.code ≠ some .idemExpressionNotLast)) ∘
        diagnostic .error file) r := by
    intro r _
    by_cases h : r.code = .idemExpressionNotLast
    · simp [severity_of_idem _ h, Strictness.severity, diagnostic, h]
    · simp [severity_of_ne_idem _ h, diagnostic, h]
  rw [← List.filter_congr hkept]
  refine List.map_congr_left ?_
  intro r hr
  have hcode : r.code ≠ .idemExpressionNotLast := by
    intro h
    simp [severity_of_idem _ h, Strictness.severity] at hr
  simp only [diagnostic, severity_of_ne_idem _ hcode]

/-- With warnings, statements without effect are demoted. -/
theorem issues_warning (file : Option Text) (rs : List Report) :
    issues .warning file rs = (issues .error file rs).map Diagnostic.demoted := by
  have hwarning : Strictness.warning.severity ≠ .ignore := by decide
  have herror : Strictness.error.severity ≠ .ignore := by decide
  rw [issues_eq_map hwarning, issues_eq_map herror, List.map_map]
  refine List.map_congr_left ?_
  intro r _
  by_cases h : r.code = .idemExpressionNotLast
  · simp [Diagnostic.demoted, diagnostic, h, severity_of_idem _ h, Strictness.severity]
  · simp [Diagnostic.demoted, diagnostic, h, severity_of_ne_idem _ h]

/-- A diagnostic counts as an error exactly when its severity is that. -/
theorem isError_diagnostic (s : Strictness) (file : Option Text) (r : Report) :
    (r.diagnostic s file).isError = decide (r.severity s = .error) := by
  have hword : ∀ a : Severity, decide (Text.ofString a.word = Text.ofString Severity.error.word) =
      decide (a = .error) := by
    intro a
    cases a <;> decide
  exact hword (r.severity s)

/-- There are errors as soon as some report has that severity. -/
theorem hasErrors_issues (s : Strictness) (file : Option Text) (rs : List Report) :
    hasErrors (issues s file rs) = true ↔ ∃ r ∈ rs, r.severity s = .error := by
  simp only [hasErrors, issues, List.any_map, List.any_eq_true, List.mem_filter, Function.comp,
    isError_diagnostic, decide_eq_true_eq]
  constructor
  · rintro ⟨r, ⟨hr, -⟩, hs⟩
    exact ⟨r, hr, hs⟩
  · rintro ⟨r, hr, hs⟩
    exact ⟨r, ⟨hr, by simp [hs]⟩, hs⟩

/-- A pass with warnings has errors exactly when one without strictness has. -/
theorem hasErrors_off (file : Option Text) (rs : List Report) :
    hasErrors (issues .off file rs) = hasErrors (issues .warning file rs) := by
  rw [Bool.eq_iff_iff, hasErrors_issues, hasErrors_issues]
  have hsame : ∀ r : Report, r.severity .off = .error ↔ r.severity .warning = .error := by
    intro r
    by_cases h : r.code = .idemExpressionNotLast
    · simp [severity_of_idem _ h, Strictness.severity]
    · simp [severity_of_ne_idem _ h]
  simp only [hsame]

/-- A statement without effect is an issue of a strict pass. -/
theorem exists_idem_issue_iff (file : Option Text) (rs : List Report) :
    (∃ d ∈ issues .error file rs, d.code = some .idemExpressionNotLast) ↔
      ∃ r ∈ rs, r.code = .idemExpressionNotLast := by
  have herror : Strictness.error.severity ≠ .ignore := by decide
  simp [issues_eq_map herror, diagnostic]

/-- Every issue of a strict pass is an error, and those about statements without effect are what it
has more than other passes. -/
theorem hasErrors_error_iff (file : Option Text) (rs : List Report) :
    hasErrors (issues .error file rs) = true ↔ hasErrors (issues .off file rs) = true ∨
      ∃ d ∈ issues .error file rs, d.code = some .idemExpressionNotLast := by
  rw [exists_idem_issue_iff, hasErrors_issues, hasErrors_issues, ← exists_or]
  refine exists_congr fun r => ?_
  by_cases h : r.code = .idemExpressionNotLast
  · simp [severity_of_idem _ h, Strictness.severity, h]
  · simp [severity_of_ne_idem _ h, h]

end Report

/-! ## 2. Statements without effect -/

/-- Holds of blocks with a statement before the last one that has no effect. -/
def Tree.HasDeadStatement (t : Tree) : Prop :=
  t.kind? = some .block ∧ ∃ u ∈ t.parts.dropLast, u.isIdem = true

/-- A dead statement is the first one without effect before the last. -/
theorem deadStatement?_eq_findIdx? {i : Nat} {ts : List Tree} :
    deadStatement? i ts = (ts.dropLast.findIdx? Tree.isIdem).map (i + ·) := by
  induction ts generalizing i with
  | nil => rfl
  | cons t ts ih =>
    cases ts with
    | nil => rfl
    | cons u us =>
      have hshift : ((i + ·) ∘ fun j => j + 1) = (i + 1 + ·) := by
        funext j
        show i + (j + 1) = i + 1 + j
        omega
      rw [deadStatement?, List.dropLast_cons_cons, List.findIdx?_cons, ih]
      split
      · rfl
      · rw [Option.map_map, hshift]

namespace Mode

variable {m : Mode} {parent : Option Occurrence} {o : Occurrence}

/-- A statement without effect is reported exactly on the blocks that have one. -/
theorem exists_idem_report_iff :
    (∃ r ∈ m.reports parent o, r.code = .idemExpressionNotLast) ↔ o.tree.HasDeadStatement := by
  have hdead : (∃ u ∈ o.tree.parts.dropLast, u.isIdem = true) ↔
      (deadStatement? 0 o.tree.parts).isSome = true := by
    rw [deadStatement?_eq_findIdx?, Option.isSome_map, List.findIdx?_isSome, List.any_eq_true]
  rw [Tree.HasDeadStatement, hdead]
  constructor
  · rintro ⟨r, hr, hcode⟩
    obtain ⟨hk, hr⟩ := mem_rule_reports hr hcode rfl rfl
    refine ⟨hk, ?_⟩
    obtain ⟨h, hhead, -⟩ := Option.map_eq_some_iff.mp hk
    simp only [Rule.reports, hhead, Rule.blockReports] at hr
    split at hr
    · rename_i i hi
      rw [hi]
      rfl
    · simp at hr
  · rintro ⟨hk, hdead⟩
    obtain ⟨i, hi⟩ := Option.isSome_iff_exists.mp hdead
    obtain ⟨h, hhead, -⟩ := Option.map_eq_some_iff.mp hk
    rw [reports_of_kind? .block hk rfl (by decide)]
    simp [Rule.reports, hhead, Rule.blockReports, hi]

end Mode

/-- Statements without effect are reported exactly on trees with a block that has one. -/
theorem Tree.exists_idem_iff (m : Mode) (root : Tree) :
    (∃ r ∈ root.reports m, r.code = .idemExpressionNotLast) ↔
      ∃ u ∈ root.nodes, u.HasDeadStatement := by
  simp only [reports, List.mem_flatMap, nodes_eq_map, List.mem_map]
  constructor
  · rintro ⟨r, ⟨p, hp, hr⟩, hcode⟩
    exact ⟨_, ⟨p, hp, rfl⟩, Mode.exists_idem_report_iff.mp ⟨r, hr, hcode⟩⟩
  · rintro ⟨u, ⟨p, hp, rfl⟩, hdead⟩
    obtain ⟨r, hr, hcode⟩ := (Mode.exists_idem_report_iff (m := m)).mpr hdead
    exact ⟨r, ⟨p, hp, hr⟩, hcode⟩

/-! ## 3. Files -/

/-- The spans differ at most in their files. -/
def Span.Refiled (s s' : Span) : Prop := s' = { s with file := s'.file }

/-- A span keeps all but its file in another pass. -/
theorem Span.refiled_ofLocation (l : Location) (file file' : Option Text) :
    (ofLocation l file).Refiled (ofLocation l file') := by
  cases l with
  | unknown | point | object => rfl
  | span s =>
    simp only [Refiled, ofLocation]
    split <;> split <;> rfl

/-- The diagnostics differ at most in the files of their spans, and as text in how the spans are
written. -/
structure Diagnostic.Refiled (d d' : Diagnostic) : Prop where
  span : d.span.Refiled d'.span
  others : d' = { d with span := d'.span }
  text : ∃ rest, d.text = d.span.text ++ rest ∧ d'.text = d'.span.text ++ rest

/-- A report is the same in a pass over another file, but for the span. -/
theorem Report.refiled_diagnostic (s : Strictness) (file file' : Option Text) (r : Report) :
    (r.diagnostic s file).Refiled (r.diagnostic s file') := by
  refine ⟨Span.refiled_ofLocation _ _ _, rfl, ?_⟩
  simp only [Diagnostic.text, List.append_assoc]
  exact ⟨_, rfl, rfl⟩

/-- The issues of a pass over another file are the same one by one. -/
theorem Report.refiled_issues (s : Strictness) (file file' : Option Text) (rs : List Report) :
    List.Forall₂ Diagnostic.Refiled (issues s file rs) (issues s file' rs) := by
  rw [issues, issues, List.forall₂_map_left_iff, List.forall₂_map_right_iff, List.forall₂_same]
  intro r _
  exact refiled_diagnostic s file file' r

/-! ## 4. Passes -/

/-- A pass follows its settings. Off drops from the issues of a strict pass those about statements
without effect, and warnings demote these; so errors are the same in both, and a strict pass has
more only if some block has such a statement. Another file changes the files of the spans. -/
theorem Checker.validate_follows_settings (c : Checker) (root : Tree) :
    (∃ off warning error,
      (c.setStrictness .off).validate root = .ok off ∧
      (c.setStrictness .warning).validate root = .ok warning ∧
      (c.setStrictness .error).validate root = .ok error ∧
      off.issues = error.issues.filter (fun d => d.code ≠ some .idemExpressionNotLast) ∧
      warning.issues = error.issues.map Diagnostic.demoted ∧
      hasErrors off.issues = hasErrors warning.issues ∧
      (hasErrors error.issues = true ↔
        hasErrors off.issues = true ∨ ∃ d ∈ error.issues, d.code = some .idemExpressionNotLast) ∧
      ((∃ d ∈ error.issues, d.code = some .idemExpressionNotLast) ↔
        ∃ u ∈ root.nodes, u.HasDeadStatement)) ∧
    ∀ file file', ∃ one other,
      (c.setFile file).validate root = .ok one ∧ (c.setFile file').validate root = .ok other ∧
      List.Forall₂ Diagnostic.Refiled one.issues other.issues := by
  constructor
  · refine ⟨_, _, _, validate_eq_ok _ root, validate_eq_ok _ root, validate_eq_ok _ root, ?_⟩
    have hdead := Report.exists_idem_issue_iff c.file (root.reports c.mode)
    exact ⟨Report.issues_off _ _, Report.issues_warning _ _, Report.hasErrors_off _ _,
      Report.hasErrors_error_iff _ _, hdead.trans (Tree.exists_idem_iff c.mode root)⟩
  · intro file file'
    refine ⟨_, _, validate_eq_ok _ root, validate_eq_ok _ root, ?_⟩
    exact Report.refiled_issues c.strictness file file' (root.reports c.mode)

end ManifestLint
