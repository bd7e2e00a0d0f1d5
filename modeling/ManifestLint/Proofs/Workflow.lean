/-
ManifestLint.Proofs.Workflow — checking workflows is checking manifests, and one thing more.

The table of workflows has an entry that the table of manifests lacks, for a kind that no group of
that table has. So on every node but an activity both modes report the same; on an activity
manifests have nothing to report, and workflows an unknown style.

The main statements: what a workflow pass reports on a node is what a manifest pass does and
then the style (`reports_workflow`), so the issues of one pass are those of the other with the
unknown styles put in, each where its activity is visited (`validate_workflow_extends`).
-/
import ManifestLint.Proofs.Pass
import Mathlib.Data.List.Basic

namespace ManifestLint

/-! ## 1. One node -/

/-- The styles that an activity may have. -/
def knownStyles : List Text :=
  ["action", "resource", "stateHandler", "workflow"].map Text.ofString

theorem isSome_ofText?_iff {style : Text} :
    (Style.ofText? style).isSome = true ↔ style ∈ knownStyles := by
  have hwords : knownStyles = Style.all.map fun s => Text.ofString s.word := rfl
  rw [hwords, List.mem_map, Style.ofText?, List.find?_isSome]
  simp only [decide_eq_true_eq]

namespace Mode

/-- The entry for activities is the only one that the modes differ in. -/
theorem routine?_workflow : ∀ k, workflow.table.routine? k =
    if k = .activity then some .activity else manifest.table.routine? k := by decide

/-- Manifests are not checked for anything at an activity. -/
theorem routine?_manifest_ne : ∀ k, manifest.table.routine? k ≠ some .activity := by decide

theorem routine?_manifest_activity : manifest.table.routine? .activity = none := by decide

variable {parent : Option Occurrence} {o : Occurrence}

/-- The rule for activities has nothing to report on other nodes. -/
theorem reports_activity_of_ne (h : o.tree.kind? ≠ some .activity) :
    Rule.activity.reports parent o = [] := by
  unfold Tree.kind? at h
  cases hhead : o.tree.head? with
  | none => simp [Rule.reports, hhead]
  | some head =>
    rw [hhead] at h
    cases head with
    | activity style name => exact absurd rfl h
    | _ => simp [Rule.reports, hhead]

/-- A workflow pass reports on a node what a manifest pass does, and then its style. -/
theorem reports_workflow (parent : Option Occurrence) (o : Occurrence) :
    workflow.reports parent o = manifest.reports parent o ++ Rule.activity.reports parent o := by
  unfold reports DispatchTable.routineFor
  by_cases hactivity : o.tree.kind? = some .activity
  · rw [hactivity, Option.bind_some, Option.bind_some, routine?_workflow, if_pos rfl,
      routine?_manifest_activity]
    rfl
  · rw [reports_activity_of_ne hactivity, List.append_nil]
    cases hk : o.tree.kind? with
    | none => rfl
    | some k =>
      have hne : k ≠ .activity := by
        rintro rfl
        exact hactivity hk
      rw [Option.bind_some, Option.bind_some, routine?_workflow, if_neg hne]

/-- A manifest pass reports no style. -/
theorem code_of_mem_reports_manifest {r : Report} (hr : r ∈ manifest.reports parent o) :
    r.code ≠ .invalidActivityStyle := by
  intro hcode
  obtain ⟨rule, hrule, -, hreported⟩ := reported_of_mem_reports hr
  obtain rfl : rule = .activity := hreported.eq_of_rule? hcode rfl
  obtain ⟨k, -, hroutine⟩ := Option.bind_eq_some_iff.mp hrule
  exact routine?_manifest_ne k hroutine

end Mode

/-! ## 2. Issues, node by node -/

namespace Report

/-- The reports of several nodes are recorded node by node. -/
theorem issues_flatMap {α : Type} (s : Strictness) (file : Option Text) (g : α → List Report)
    (xs : List α) : issues s file (xs.flatMap g) = xs.flatMap fun x => issues s file (g x) := by
  induction xs with
  | nil => rfl
  | cons x xs ih => rw [List.flatMap_cons, issues_append, ih, List.flatMap_cons]

end Report

namespace Tree

/-- The issues that a pass of a mode dispatches on the node at a position. -/
def dispatched (root : Tree) (m : Mode) (s : Strictness) (file : Option Text) (p : Position) :
    List Diagnostic :=
  Report.issues s file (m.reports (root.parentAt p) (root.occurrenceAt p))

/-- The issue of the style of an activity at a position, unless the style is known. -/
def styleIssue? (root : Tree) (file : Option Text) (p : Position) : Option Diagnostic :=
  match (root.occurrenceAt p).tree with
  | node (.activity style _) location _ =>
    if style ∈ knownStyles then none
    else some {
      message := Text.ofString "Invalid activity style '" ++ style ++ Text.ofString "'"
      code := some .invalidActivityStyle
      phase := some "validator"
      severity := Text.ofString "error"
      span := Span.ofLocation location file
      arguments := [("style", .text style)]
      notes := []
      site := some p }
  | _ => none

variable {root : Tree} {s : Strictness} {file : Option Text} {p : Position} {d : Diagnostic}

/-- The rule for activities finds the unknown styles. -/
theorem issues_activity :
    Report.issues s file (Rule.activity.reports (root.parentAt p) (root.occurrenceAt p)) =
      (root.styleIssue? file p).toList := by
  unfold styleIssue? occurrenceAt
  generalize (root.at? p).getD absent = t
  cases t with
  | foreign x => rfl
  | node head location ps =>
    cases head with
    | activity style name =>
      simp only [Rule.reports, head?_node, Rule.activityReports, isSome_ofText?_iff]
      by_cases hknown : style ∈ knownStyles
      · rw [if_pos hknown, if_pos hknown]
        rfl
      · rw [if_neg hknown, if_neg hknown]
        simp [Report.issues, Report.diagnostic, Report.severity, Code.isDemotable, Code.severity,
          Code.template, Template.filled, Severity.word, Datum.spelled]
    | _ => rfl

/-- A workflow pass dispatches on a node what a manifest pass does, and then its style. -/
theorem dispatched_workflow : root.dispatched .workflow s file p =
    root.dispatched .manifest s file p ++ (root.styleIssue? file p).toList := by
  rw [← @issues_activity root s, dispatched, Mode.reports_workflow, Report.issues_append]
  rfl

/-- No issue of a manifest pass is about a style. -/
theorem code_of_mem_dispatched_manifest (hd : d ∈ root.dispatched .manifest s file p) :
    d.code ≠ some .invalidActivityStyle := by
  obtain ⟨r, hr, rfl⟩ := List.mem_map.mp hd
  have hcode := Mode.code_of_mem_reports_manifest (List.mem_of_mem_filter hr)
  intro h
  exact hcode (Option.some.inj h)

/-- The issue of a style stands on an activity and is all that is dispatched there. -/
theorem dispatched_of_styleIssue? (h : root.styleIssue? file p = some d) :
    d.code = some .invalidActivityStyle ∧ root.dispatched .workflow s file p = [d] := by
  rw [dispatched_workflow, h]
  unfold styleIssue? at h
  split at h
  · rename_i style name location ps htree
    have hmanifest : Mode.manifest.reports (root.parentAt p) (root.occurrenceAt p) = [] := by
      rw [Mode.reports, DispatchTable.routineFor, htree]
      rfl
    rw [dispatched, hmanifest]
    split at h <;> cases h
    exact ⟨rfl, rfl⟩
  · cases h

/-- What a workflow pass dispatches without the styles is what a manifest pass does. -/
theorem filter_ne_dispatched :
    (root.dispatched .workflow s file p).filter (fun d => d.code ≠ some .invalidActivityStyle) =
      root.dispatched .manifest s file p := by
  have hmanifest : ∀ d ∈ root.dispatched .manifest s file p,
      decide (d.code ≠ some .invalidActivityStyle) = true := by
    intro d hd
    simpa using code_of_mem_dispatched_manifest hd
  have hstyle : ∀ d ∈ (root.styleIssue? file p).toList,
      ¬ decide (d.code ≠ some .invalidActivityStyle) = true := by
    intro d hd
    simpa using (dispatched_of_styleIssue? (s := s) (Option.mem_toList.mp hd)).1
  rw [dispatched_workflow, List.filter_append, List.filter_eq_self.mpr hmanifest,
    List.filter_eq_nil_iff.mpr hstyle, List.append_nil]

/-- The styles are what a workflow pass dispatches besides. -/
theorem filter_eq_dispatched :
    (root.dispatched .workflow s file p).filter (fun d => d.code = some .invalidActivityStyle) =
      (root.styleIssue? file p).toList := by
  have hmanifest : ∀ d ∈ root.dispatched .manifest s file p,
      ¬ decide (d.code = some .invalidActivityStyle) = true := by
    intro d hd
    simpa using code_of_mem_dispatched_manifest hd
  have hstyle : ∀ d ∈ (root.styleIssue? file p).toList,
      decide (d.code = some .invalidActivityStyle) = true := by
    intro d hd
    simpa using (dispatched_of_styleIssue? (s := s) (Option.mem_toList.mp hd)).1
  rw [dispatched_workflow, List.filter_append, List.filter_eq_nil_iff.mpr hmanifest,
    List.filter_eq_self.mpr hstyle, List.nil_append]

/-- In pre-order, what is inside of a node comes after it. -/
theorem exists_split_positions (hp : p ∈ root.positions) : ∃ before after,
    root.positions = before ++ p :: after ∧
      ∀ q ∈ root.positions, p <+: q → q ≠ p → q ∈ after := by
  obtain ⟨before, after, hsplit⟩ := List.append_of_mem hp
  refine ⟨before, after, hsplit, ?_⟩
  rintro q hq ⟨r, rfl⟩ hne
  have horder := root.pairwise_positions
  rw [hsplit] at hq horder
  have hbefore := (List.pairwise_append.mp horder).2.2
  rcases List.mem_append.mp hq with hq | hq
  · -- the positions before `p` are smaller, and those inside of it are larger
    have hlt : p ++ r < p := hbefore _ hq p List.mem_cons_self
    cases r with
    | nil => exact absurd (List.append_nil p) hne
    | cons i r =>
      have hgt : p ++ [] < p ++ i :: r := List.append_left_lt (List.nil_lt_cons i r)
      rw [List.append_nil] at hgt
      exact absurd hlt (List.lt_asymm hgt)
  · exact (List.mem_cons.mp hq).resolve_left hne

end Tree

/-! ## 3. Passes -/

namespace Checker

/-- A pass holds what is dispatched on the nodes, one after another. -/
theorem issues_of_validate (m : Mode) (s : Strictness) (file : Option Text) (root : Tree) :
    ∃ c, (new m s file).validate root = .ok c ∧
      c.issues = root.positions.flatMap (root.dispatched m s file) :=
  ⟨_, validate_eq_ok (new m s file) root, Report.issues_flatMap s file _ root.positions⟩

/-- The step of a pass at a position appends what is dispatched there. -/
theorem step_eq_dispatched (m : Mode) (s : Strictness) (file : Option Text) (root : Tree)
    (p : Position) (ds : List Diagnostic) :
    step m (root.parentAt p) (root.occurrenceAt p) ⟨.forStrictness s, file, ds⟩ =
      .ok ⟨.forStrictness s, file, ds ++ root.dispatched m s file p⟩ := by
  have hcomplete : ∀ r ∈ m.reports (root.parentAt p) (root.occurrenceAt p), r.Complete :=
    fun _ hr => Mode.complete_of_mem_reports hr
  rw [step, Sink.reportAll_eq s file hcomplete]
  rfl

/-- The workflow checker extends the manifest checker. Without the issues about styles, its issues
are those of a manifest pass; the issues about styles are, in pre-order, one for each activity
whose style is not known; and each stands before all that steps inside of its activity append. -/
theorem validate_workflow_extends (s : Strictness) (file : Option Text) (root : Tree) :
    ∃ w m, (new .workflow s file).validate root = .ok w ∧
      (new .manifest s file).validate root = .ok m ∧
      w.issues.filter (fun d => d.code ≠ some .invalidActivityStyle) = m.issues ∧
      w.issues.filter (fun d => d.code = some .invalidActivityStyle) =
        root.positions.filterMap (root.styleIssue? file) ∧
      ∀ p ∈ root.positions, ∀ d, root.styleIssue? file p = some d → ∃ before after,
        root.positions = before ++ p :: after ∧
        (∀ q ∈ root.positions, p <+: q → q ≠ p → q ∈ after) ∧
        w.issues = before.flatMap (root.dispatched .workflow s file) ++
          d :: after.flatMap (root.dispatched .workflow s file) ∧
        ∀ q ds, step .workflow (root.parentAt q) (root.occurrenceAt q)
            ⟨.forStrictness s, file, ds⟩ =
          .ok ⟨.forStrictness s, file, ds ++ root.dispatched .workflow s file q⟩ := by
  obtain ⟨w, hw, hworkflow⟩ := issues_of_validate .workflow s file root
  obtain ⟨m, hm, hmanifest⟩ := issues_of_validate .manifest s file root
  refine ⟨w, m, hw, hm, ?_, ?_, ?_⟩
  · rw [hworkflow, hmanifest, List.filter_flatMap]
    simp only [Tree.filter_ne_dispatched]
  · rw [hworkflow, List.filter_flatMap, List.filterMap_eq_flatMap_toList]
    simp only [Tree.filter_eq_dispatched]
  · intro p hp d hd
    obtain ⟨before, after, hsplit, hinside⟩ := Tree.exists_split_positions hp
    refine ⟨before, after, hsplit, hinside, ?_, step_eq_dispatched .workflow s file root⟩
    rw [hworkflow, hsplit, List.flatMap_append, List.flatMap_cons,
      (Tree.dispatched_of_styleIssue? hd).2, List.singleton_append]

end Checker

end ManifestLint
