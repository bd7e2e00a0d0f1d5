/-
ManifestLint.Proofs.Pass — a pass of a checker is a function of the tree.

A pass threads a path and a sink through the whole tree. What comes out is said here
without either: list the nodes in pre-order, pair each with its direct parent, and set the
reports of the one rule that applies one after another (`Tree.reports`); those that are not
ignored are the issues.

The main statements: a walk hands each node to its step once, in pre-order, together with
its direct parent, whatever the steps do with the state (`run_eq_foldVisits`), and so a pass
never fails and ends with an empty path and with these issues
(`validate_eq_stateless`).
-/
import ManifestLint.Proofs.Preorder
import ManifestLint.Proofs.Reporting

namespace ManifestLint

/-- All that the rules of a mode report on a tree: node by node in pre-order, on each node
under its direct parent. -/
def Tree.reports (m : Mode) (root : Tree) : List Report :=
  root.positions.flatMap fun p => m.reports (root.parentAt p) (root.occurrenceAt p)

/-- Every issue is what a report on some node becomes that is not ignored. -/
theorem Report.exists_of_mem_issues {m : Mode} {s : Strictness} {file : Option Text} {root : Tree}
    {d : Diagnostic} (hd : d ∈ issues s file (root.reports m)) :
    ∃ q ∈ root.positions, ∃ r ∈ m.reports (root.parentAt q) (root.occurrenceAt q),
      r.severity s ≠ .ignore ∧ r.diagnostic s file = d := by
  obtain ⟨r, hr, rfl⟩ := List.mem_map.mp hd
  obtain ⟨hr, hshown⟩ := List.mem_filter.mp hr
  obtain ⟨q, hq, hr⟩ := List.mem_flatMap.mp hr
  exact ⟨q, hq, r, hr, of_decide_eq_true hshown, rfl⟩

/-- A walk goes once to every position of the tree, in pre-order, with the direct parent at hand,
and ends where it began. -/
theorem Walk.run_eq_foldVisits {ε σ : Type}
    (step : Option Occurrence → Occurrence → σ → Except ε σ) (root : Tree) (s : σ) :
    Walk.run step root s =
      (foldVisits step (root.positions.map root.visitAt) s).map fun s' => ⟨[], s'⟩ := by
  rw [run, walkAt_eq_foldVisits, ← Tree.visits_eq_map]
  rfl

namespace Checker

/-- Dispatching visits one after another appends the issues of their reports. -/
theorem foldVisits_step_eq (m : Mode) (s : Strictness) (file : Option Text) (vs : List Visit)
    (ds : List Diagnostic) :
    Walk.foldVisits (step m) vs ⟨.forStrictness s, file, ds⟩ =
      .ok ⟨.forStrictness s, file,
        ds ++ Report.issues s file (vs.flatMap fun v => m.reports v.parent v.node)⟩ := by
  induction vs generalizing ds with
  | nil => simp [Walk.foldVisits, Report.issues]
  | cons v vs ih =>
    have hv : ∀ r ∈ m.reports v.parent v.node, r.Complete :=
      fun _ hr => Mode.complete_of_mem_reports hr
    simp only [Walk.foldVisits, step, Sink.reportAll_eq s file hv ds, Except.bind]
    rw [ih, List.append_assoc, ← Report.issues_append, List.flatMap_cons]

/-- A pass returns: it leaves the checker with an empty path and a sink of its own that holds the
issues of the tree. -/
theorem validate_eq_ok (c : Checker) (root : Tree) :
    c.validate root =
      .ok { c with
        path := []
        sink := ⟨.forStrictness c.strictness, c.file,
          Report.issues c.strictness c.file (root.reports c.mode)⟩ } := by
  have hreports : (root.visits.flatMap fun v => c.mode.reports v.parent v.node) =
      root.reports c.mode := by
    rw [Tree.visits_eq_map, List.flatMap_map]
    rfl
  rw [validate_eq, Sink.empty, foldVisits_step_eq, hreports]
  rfl

/-- A pass equals its stateless description. It returns, with an empty path and with the issues
that the rules' reports make in pre-order, each recorded exactly if it is not ignored. Whatever
its steps do, the walk behind it goes to every position once, in pre-order, with the direct parent
at hand; the positions are the places of nodes, in strictly increasing order. -/
theorem validate_eq_stateless (c : Checker) (root : Tree) :
    c.validate root =
        .ok { c with
          path := []
          sink := ⟨.forStrictness c.strictness, c.file,
            Report.issues c.strictness c.file (root.reports c.mode)⟩ } ∧
      (∀ (ε σ : Type) (step : Option Occurrence → Occurrence → σ → Except ε σ) (s : σ),
        Walk.run step root s =
          (Walk.foldVisits step (root.positions.map root.visitAt) s).map fun s' => ⟨[], s'⟩) ∧
      root.positions.Pairwise (· < ·) ∧
      ∀ p, p ∈ root.positions ↔ ∃ h l ps, root.at? p = some (.node h l ps) :=
  ⟨validate_eq_ok c root, fun _ _ step s => Walk.run_eq_foldVisits step root s,
    root.pairwise_positions, root.mem_positions_iff⟩

end Checker

end ManifestLint
