/-
ManifestLint.Proofs.DeadStatements — statements whose values are forgotten.

A block reports its first idem statement before the last one and then stops. The last statement is
free, since it gives the value of the block; and each block is looked at by itself, wherever it
stands. So a pass has one issue for each block with such a statement, in the order of the blocks
(`Tree.deadIssue?`).

The main statements: the issues of a block depend on the block alone, and statements set after its
own change none of them (`deadIssue?_append`); and a pass without such issues is over a tree in
which every statement that is not the last one of its block reaches an effect
(`deadStatements_exact`).
-/
import ManifestLint.Proofs.Effects
import ManifestLint.Proofs.Strictness
import ManifestLint.Proofs.Workflow

namespace ManifestLint

/-! ## 1. Blocks one by one -/

/-- The issue of a statement at a position whose value is forgotten. -/
def Diagnostic.dead (s : Strictness) (file : Option Text) (statement : Tree) (p : Position) :
    Diagnostic where
  message := Text.ofString "This " ++ statement.label ++
    Text.ofString " has no effect. A value was produced and then forgotten " ++
    Text.ofString "(one or more preceding expressions may have the wrong form)"
  code := some .idemExpressionNotLast
  phase := some "validator"
  severity := s.severity.word
  span := Span.ofLocation statement.location file
  arguments := [("expression", .text statement.label)]
  notes := []
  site := some p

theorem Report.diagnostic_dead (s : Strictness) (file : Option Text) (o : Occurrence) :
    Report.diagnostic s file ⟨.idemExpressionNotLast, o, [("expression", o.tree.label)]⟩ =
      Diagnostic.dead s file o.tree o.position := by
  simp [diagnostic, severity, Code.isDemotable, Code.template, Template.filled, Diagnostic.dead]

namespace Tree

/-- The issue of a block at a position: its first idem statement before the last one, if it has
one. -/
def deadIssue? (root : Tree) (s : Strictness) (file : Option Text) (p : Position) :
    Option Diagnostic :=
  match (root.occurrenceAt p).tree with
  | node .block _ statements => (statements.dropLast.findIdx? isIdem).map fun i =>
    .dead s file (statements[i]?.getD absent) (p ++ [i])
  | _ => none

variable {m : Mode} {root : Tree} {s : Strictness} {file : Option Text} {p : Position}
  {l : Location} {statements : List Tree}

theorem deadIssue?_block (hat : root.at? p = some (node .block l statements)) :
    root.deadIssue? s file p = (statements.dropLast.findIdx? isIdem).map fun i =>
      .dead s file (statements[i]?.getD absent) (p ++ [i]) := by
  rw [deadIssue?, occurrenceAt_of_at? hat]

/-- Only blocks have such issues. -/
theorem exists_block_of_deadIssue? {d : Diagnostic} (h : root.deadIssue? s file p = some d) :
    ∃ l statements, root.at? p = some (node .block l statements) := by
  unfold deadIssue? occurrenceAt at h
  cases hat : root.at? p with
  | none => simp [hat, absent] at h
  | some t =>
    rw [hat] at h
    split at h
    · rename_i l statements htree
      exact ⟨l, statements, congrArg some htree⟩
    · cases h

/-- The rule for blocks finds the first idem statement before the last. -/
theorem issues_block (hs : s.severity ≠ .ignore)
    (hat : root.at? p = some (node .block l statements)) :
    root.dispatched m s file p = (root.deadIssue? s file p).toList := by
  have hreports : m.reports (root.parentAt p) ⟨p, node .block l statements⟩ =
      Rule.blockReports ⟨p, node .block l statements⟩ :=
    Mode.reports_of_kind? .block rfl rfl (by decide)
  rw [dispatched, occurrenceAt_of_at? hat, hreports, Report.issues_eq_map hs, Rule.blockReports,
    parts_node, deadStatement?_eq_findIdx?, deadIssue?_block hat]
  cases statements.dropLast.findIdx? isIdem with
  | none => rfl
  | some i =>
    simp only [Option.map_some, Nat.zero_add, Option.toList_some, List.map_cons, List.map_nil,
      Report.diagnostic_dead]
    rfl

/-- What a pass dispatches about statements without effect is the issue of the block. -/
theorem filter_dead_dispatched (hs : s.severity ≠ .ignore) (hp : p ∈ root.positions) :
    (root.dispatched m s file p).filter (fun d => d.code = some .idemExpressionNotLast) =
      (root.deadIssue? s file p).toList := by
  obtain ⟨h, l, ps, hat⟩ := (mem_positions_iff root p).mp hp
  by_cases hblock : h = .block
  · subst hblock
    rw [issues_block hs hat, deadIssue?_block hat]
    cases ps.dropLast.findIdx? isIdem <;> rfl
  · have hother : ∀ d ∈ root.dispatched m s file p,
        ¬ decide (d.code = some .idemExpressionNotLast) = true := by
      intro d hd hcode
      obtain ⟨r, hr, rfl⟩ := List.mem_map.mp hd
      have hrcode : r.code = .idemExpressionNotLast := Option.some.inj (of_decide_eq_true hcode)
      rw [occurrenceAt_of_at? hat] at hr
      obtain ⟨hk, -⟩ := Mode.mem_rule_reports (List.mem_of_mem_filter hr) hrcode rfl rfl
      cases h <;> first | exact hblock rfl | cases hk
    have hnone : root.deadIssue? s file p = none := by
      rw [Option.eq_none_iff_forall_not_mem]
      intro d hd
      obtain ⟨l', statements, hat'⟩ := exists_block_of_deadIssue? hd
      rw [hat] at hat'
      cases hat'
      exact hblock rfl
    rw [List.filter_eq_nil_iff.mpr hother, hnone]
    rfl

/-! ## 2. More statements -/

theorem dropLast_prefix_dropLast_append (ts us : List Tree) :
    ts.dropLast <+: (ts ++ us).dropLast := by
  cases us with
  | nil => simp
  | cons u us =>
    rw [List.dropLast_append_of_ne_nil (List.cons_ne_nil u us)]
    exact (List.dropLast_prefix ts).trans (List.prefix_append ts _)

/-- Statements that are set after those of a block leave its issue as it is, whatever else the
tree with the longer block is. -/
theorem deadIssue?_append {root' : Tree} {l' : Location} {more : List Tree} {d : Diagnostic}
    (hat : root.at? p = some (node .block l statements))
    (hat' : root'.at? p = some (node .block l' (statements ++ more)))
    (hd : root.deadIssue? s file p = some d) : root'.deadIssue? s file p = some d := by
  rw [deadIssue?_block hat, Option.map_eq_some_iff] at hd
  obtain ⟨i, hi, rfl⟩ := hd
  have hlt : i < statements.length := by
    obtain ⟨h, -⟩ := List.findIdx?_eq_some_iff_getElem.mp hi
    rw [List.length_dropLast] at h
    omega
  have hfirst := (dropLast_prefix_dropLast_append statements more).findIdx?_eq_some hi
  rw [deadIssue?_block hat', hfirst, Option.map_some, List.getElem?_append_left hlt]

/-! ## 3. Trees without such issues -/

/-- There is no issue exactly where no statement before the last is idem. -/
theorem forall_deadIssue?_eq_none_iff (root : Tree) (s : Strictness) (file : Option Text) :
    (∀ p ∈ root.positions, root.deadIssue? s file p = none) ↔
      ∀ p l statements, root.at? p = some (node .block l statements) →
        ∀ t ∈ statements.dropLast, t.isIdem = false := by
  constructor
  · intro hnone p l statements hat
    have hp := hnone p ((mem_positions_iff root p).mpr ⟨_, l, statements, hat⟩)
    rwa [deadIssue?_block hat, Option.map_eq_none_iff, List.findIdx?_eq_none_iff] at hp
  · intro heffects p _
    rw [Option.eq_none_iff_forall_not_mem]
    intro d hd
    obtain ⟨l, statements, hat⟩ := exists_block_of_deadIssue? hd
    have hnone := List.findIdx?_eq_none_iff.mpr (heffects p l statements hat)
    rw [deadIssue?_block hat, hnone] at hd
    cases hd

/-- On a tree that is laid out, what is not idem reaches an effect. -/
theorem isIdem_eq_false_iff_reachesEffect (hlaid : ∀ u ∈ root.nodes, u.isLaidOut = true)
    (hat : root.at? p = some (node .block l statements)) {t : Tree} (ht : t ∈ statements.dropLast) :
    t.isIdem = false ↔ t.ReachesEffect := by
  obtain ⟨i, hi⟩ := List.getElem?_of_mem (List.dropLast_subset statements ht)
  have hatt : root.at? (p ++ [i]) = some t := (at?_snoc hat i).trans hi
  have hinside : ∀ u ∈ t.nodes, u.isLaidOut = true := fun u hu =>
    hlaid u (mem_nodes_of_mem_nodes_at? hatt hu)
  exact ⟨reachesEffect_of_isIdem_eq_false t hinside, isIdem_eq_false_of_reachesEffect⟩

end Tree

/-! ## 4. Passes -/

/-- The issues of a pass about statements without effect are those of the blocks. -/
theorem Report.filter_dead_issues (m : Mode) {s : Strictness} (hs : s.severity ≠ .ignore)
    (file : Option Text) (root : Tree) :
    (issues s file (root.reports m)).filter (fun d => d.code = some .idemExpressionNotLast) =
      root.positions.filterMap (root.deadIssue? s file) := by
  rw [Tree.reports, issues_flatMap, List.filter_flatMap, List.filterMap_eq_flatMap_toList]
  exact List.flatMap_congr fun p hp => Tree.filter_dead_dispatched hs hp

/-- Issues about statements without effect are exact. In a pass that takes notice of them they are,
in pre-order, one for each block with an idem statement before its last one, on the first such
statement and with its label. On a tree that is laid out, there are none exactly if each statement
before the last one of each block reaches an effect. And statements set after those of a block leave
its issue as it is. -/
theorem Checker.deadStatements_exact (c : Checker) (hs : c.strictness ≠ .off) (root : Tree) :
    ∃ c', c.validate root = .ok c' ∧
      c'.issues.filter (fun d => d.code = some .idemExpressionNotLast) =
        root.positions.filterMap (root.deadIssue? c.strictness c.file) ∧
      ((∀ u ∈ root.nodes, u.isLaidOut = true) →
        ((∀ d ∈ c'.issues, d.code ≠ some .idemExpressionNotLast) ↔
          ∀ p l statements, root.at? p = some (.node .block l statements) →
            ∀ t ∈ statements.dropLast, t.ReachesEffect)) ∧
      ∀ p l statements d, root.at? p = some (.node .block l statements) →
        root.deadIssue? c.strictness c.file p = some d →
        ∀ root' l' more, root'.at? p = some (.node .block l' (statements ++ more)) →
          ∃ c'', c.validate root' = .ok c'' ∧ d ∈ c''.issues ∧
            root'.deadIssue? c.strictness c.file p = some d := by
  have hseverity : c.strictness.severity ≠ .ignore := by
    cases hstrictness : c.strictness <;> first | exact absurd hstrictness hs | decide
  have hissues := Report.filter_dead_issues c.mode hseverity c.file
  refine ⟨_, c.validate_eq_ok root, hissues root, ?_, ?_⟩
  · intro hlaid
    have hnone : (∀ d ∈ Report.issues c.strictness c.file (root.reports c.mode),
        d.code ≠ some .idemExpressionNotLast) ↔
          ∀ p ∈ root.positions, root.deadIssue? c.strictness c.file p = none := by
      rw [← List.filterMap_eq_nil_iff, ← hissues root, List.filter_eq_nil_iff]
      simp
    refine (hnone.trans (root.forall_deadIssue?_eq_none_iff c.strictness c.file)).trans ?_
    refine forall_congr' fun p => forall_congr' fun l => forall_congr' fun statements => ?_
    refine forall_congr' fun hat => forall_congr' fun t => forall_congr' fun ht => ?_
    exact Tree.isIdem_eq_false_iff_reachesEffect hlaid hat ht
  · intro p l statements d hat hd root' l' more hat'
    have hd' := Tree.deadIssue?_append hat hat' hd
    refine ⟨_, c.validate_eq_ok root', ?_, hd'⟩
    have hp := (Tree.mem_positions_iff root' p).mpr ⟨_, l', _, hat'⟩
    have hmem := List.mem_filterMap.mpr ⟨p, hp, hd'⟩
    rw [← hissues root'] at hmem
    exact List.mem_of_mem_filter hmem

/-- A block with a number first, then a condition on a block that has an idem statement first and
assigns last, and a number at the end. -/
def Tree.nestedBlocks : Tree :=
  .node .block .unknown
    [.node (.integer 1) .unknown [],
      .node .ifStatement .unknown
        [.node (.boolean true) .unknown [],
          .node .block .unknown
            [.node (.var "x") .unknown [],
              .node (.assignment "=") .unknown
                [.node (.var "x") .unknown [], .node (.integer 2) .unknown []]],
          absent],
      .node (.integer 3) .unknown []]

/-- Both blocks have an issue, the outer one first. -/
theorem Checker.deadStatements_exact_nested : Strictness.warning ≠ .off ∧
    ∃ c', (Checker.new .workflow .warning none).validate Tree.nestedBlocks = .ok c' ∧
      (c'.issues.filter fun d => d.code = some .idemExpressionNotLast).map (fun d => d.site) =
        [some [0], some [1, 1, 0]] := by
  have hs : Strictness.warning ≠ .off := by decide
  obtain ⟨c', hc', hissues, -⟩ :=
    deadStatements_exact (Checker.new .workflow .warning none) hs Tree.nestedBlocks
  refine ⟨hs, c', hc', ?_⟩
  rw [hissues]
  rfl

end ManifestLint
