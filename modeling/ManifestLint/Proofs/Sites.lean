/-
ManifestLint.Proofs.Sites — what the issues of a pass are about.

A rule reports on the node it is given, on its parent, or on something below it that it comes to
part by part. Whatever that is, it stands in the tree where the report says, and if the parts of
the tree fill their slots it is a node: nothing is left out where a rule takes a part for granted,
the functor of a call and the statements of a block.

The main statements: every report on a filled tree is about one of its nodes
(`isNodeOf_of_mem_reports`); so every issue about a text that was read points at the place of a
node in that text, with a severity that is shown and a message that lacks nothing
(`validate_read_reported`).
-/
import ManifestLint.Proofs.ReadFailure
import ManifestLint.Proofs.Strictness
import ManifestLint.Proofs.Targets
import ManifestLint.Proofs.Values

namespace ManifestLint

/-! ## 1. Occurrences of nodes -/

namespace Occurrence

/-- What occurs is a node of the tree, and stands where the occurrence says. -/
def IsNodeOf (root : Tree) (o : Occurrence) : Prop :=
  root.at? o.position = some o.tree ∧ o.tree.isNode = true

variable {root : Tree} {o : Occurrence} {i : Nat}

theorem isNodeOf_node {p : Position} {h : Head} {l : Location} {ps : List Tree}
    (hat : root.at? p = some (.node h l ps)) : IsNodeOf root ⟨p, .node h l ps⟩ := ⟨hat, rfl⟩

theorem IsNodeOf.mem_nodes (ho : o.IsNodeOf root) : o.tree ∈ root.nodes := by
  obtain ⟨p, t⟩ := o
  obtain ⟨hat, hnode⟩ := ho
  cases t with
  | node => exact Tree.mem_nodes_of_at? hat
  | foreign => cases hnode

/-- A part that is a node is a node of the tree. -/
theorem IsNodeOf.part (ho : o.IsNodeOf root) {u : Tree} (hu : o.tree.parts[i]? = some u)
    (hnode : u.isNode = true) : (o.part i).IsNodeOf root := by
  have hpart : o.part i = ⟨o.position ++ [i], u⟩ := by simp [Occurrence.part, Tree.part, hu]
  rw [hpart]
  exact ⟨(Tree.at?_snoc ho.1 i).trans hu, hnode⟩

end Occurrence

namespace Tree

variable {root : Tree}

/-- The parent of a place where something stands is a node of the tree. -/
theorem isNodeOf_of_parentAt {p : Position} {t : Tree} {o : Occurrence} (hat : root.at? p = some t)
    (ho : root.parentAt p = some o) : o.IsNodeOf root := by
  induction p using List.reverseRecOn with
  | nil => simp at ho
  | append_singleton p i _ =>
    obtain ⟨v, hv, hpart⟩ := exists_of_at?_snoc hat
    rw [parentAt_snoc, occurrenceAt_of_at? hv] at ho
    obtain rfl := Option.some.inj ho
    cases v with
    | node => exact Occurrence.isNodeOf_node hv
    | foreign x => simp [parts] at hpart

end Tree

/-! ## 2. Rules -/

namespace Rule

variable {root : Tree} {o : Occurrence} {r : Report}

theorem isNodeOf_of_mem_assignmentReports (ho : o.IsNodeOf root) {operator : Text}
    (hr : r ∈ assignmentReports o operator) : r.site.IsNodeOf root := by
  simp only [assignmentReports] at hr
  split at hr
  · have htargeted := Occurrence.targetedFrom_of_mem_part ho.1 hr
    obtain ⟨h, l, ps, htree, -⟩ := htargeted.refused
    exact ⟨htargeted.stands, by rw [htree, Tree.isNode_node]⟩
  · obtain rfl := List.mem_singleton.mp hr
    exact ho

theorem isNodeOf_of_mem_attrReports {parent : Option Occurrence} (ho : o.IsNodeOf root)
    {name operator : Text} (hr : r ∈ attrReports parent o name operator) :
    r.site.IsNodeOf root := by
  simp only [attrReports] at hr
  split at hr
  · obtain rfl := List.mem_singleton.mp hr
    exact ho
  · simp at hr

theorem isNodeOf_of_mem_activityReports (ho : o.IsNodeOf root) {style : Text}
    (hr : r ∈ activityReports o style) : r.site.IsNodeOf root := by
  simp only [activityReports] at hr
  split at hr
  · simp at hr
  · obtain rfl := List.mem_singleton.mp hr
    exact ho

/-- What a part reports as no value is a node of the tree. -/
theorem isNodeOf_of_mem_valueReports (ho : o.IsNodeOf root) {i : Nat}
    (hr : r ∈ (o.part i).valueReports) : r.site.IsNodeOf root := by
  obtain ⟨u, hu, hr⟩ := Occurrence.exists_of_mem_valueReports hr
  have hreached :=
    Tree.reachedFrom_of_mem_valueReports u _ ((Tree.at?_snoc ho.1 i).trans hu) r hr
  obtain ⟨h, l, ps, htree, -⟩ := hreached.noValue
  exact ⟨hreached.stands, by rw [htree, Tree.isNode_node]⟩

theorem isNodeOf_of_mem_splatReports {parent : Option Occurrence} (ho : o.IsNodeOf root)
    (hparent : ∀ q, parent = some q → q.IsNodeOf root) (hr : r ∈ splatReports parent o) :
    r.site.IsNodeOf root := by
  simp only [splatReports, List.mem_append] at hr
  rcases hr with hr | hr
  · split at hr
    · split at hr
      · obtain rfl := List.mem_singleton.mp hr
        exact hparent _ rfl
      · simp at hr
    · simp at hr
  · exact isNodeOf_of_mem_valueReports ho hr

theorem isNodeOf_of_mem_binaryReports (ho : o.IsNodeOf root) (hr : r ∈ binaryReports o) :
    r.site.IsNodeOf root := by
  simp only [binaryReports, List.mem_append] at hr
  rcases hr with hr | hr
  · exact isNodeOf_of_mem_valueReports ho hr
  · exact isNodeOf_of_mem_valueReports ho hr

/-- The dead statement of a block is a node if none is left out. -/
theorem isNodeOf_of_mem_blockReports (ho : o.IsNodeOf root)
    (hnodes : ∀ t ∈ o.tree.parts, t.isNode = true) (hr : r ∈ blockReports o) :
    r.site.IsNodeOf root := by
  simp only [blockReports] at hr
  split at hr
  · rename_i i hdead
    obtain rfl := List.mem_singleton.mp hr
    have hlt : i < o.tree.parts.length := by
      have := deadStatement?_lt hdead
      omega
    exact ho.part (List.getElem?_eq_getElem hlt) (hnodes _ (List.getElem_mem hlt))
  · simp at hr

/-- The functor of a call is a node if it is not left out. -/
theorem isNodeOf_of_mem_callReports (ho : o.IsNodeOf root)
    (hnodes : ∀ t ∈ o.tree.parts, t.isNode = true) (hne : o.tree.parts ≠ [])
    (hr : r ∈ callReports o) : r.site.IsNodeOf root := by
  simp only [callReports] at hr
  split at hr
  · simp at hr
  · obtain rfl := List.mem_singleton.mp hr
    have hlt := List.length_pos_iff.mpr hne
    exact ho.part (List.getElem?_eq_getElem hlt) (hnodes _ (List.getElem_mem hlt))

end Rule

/-- Blocks and calls leave none of their parts out, and a call has a functor. -/
theorem Tree.parts_of_filled {h : Head} {l : Location} {ps : List Tree}
    (hfilled : (node h l ps).Filled) :
    (h.kind = .block → ∀ t ∈ ps, t.isNode = true) ∧
      (h.kind = .call → (∀ t ∈ ps, t.isNode = true) ∧ ps ≠ []) := by
  rw [Filled] at hfilled
  constructor
  · intro hblock
    rw [hblock] at hfilled
    exact isNode_of_fills hfilled (by decide)
  · intro hcall
    rw [hcall] at hfilled
    exact ⟨isNode_of_fills hfilled (by decide), ne_nil_of_fills rfl hfilled⟩

/-- What a mode reports on a node of a filled tree is about a node of that tree. -/
theorem Mode.isNodeOf_of_mem_reports {m : Mode} {root : Tree} {p : Position}
    (hfilled : ∀ u ∈ root.nodes, u.Filled) (hp : p ∈ root.positions) {r : Report}
    (hr : r ∈ m.reports (root.parentAt p) (root.occurrenceAt p)) : r.site.IsNodeOf root := by
  obtain ⟨h, l, ps, hat⟩ := (Tree.mem_positions_iff root p).mp hp
  rw [Tree.occurrenceAt_of_at? hat] at hr
  have ho := Occurrence.isNodeOf_node hat
  obtain ⟨hblock, hcall⟩ := Tree.parts_of_filled (hfilled _ (Tree.mem_nodes_of_at? hat))
  obtain ⟨rule, hrule, hr, -⟩ := reported_of_mem_reports hr
  unfold Rule.reports at hr
  split at hr
  · exact Rule.isNodeOf_of_mem_assignmentReports ho hr
  · exact Rule.isNodeOf_of_mem_attrReports ho hr
  · exact Rule.isNodeOf_of_mem_splatReports ho (fun _ => Tree.isNodeOf_of_parentAt hat) hr
  · have hnodes := hblock (eq_kind_of_routine? .block m h.kind hrule .block rfl)
    exact Rule.isNodeOf_of_mem_blockReports ho hnodes hr
  · obtain ⟨hnodes, hne⟩ := hcall (eq_kind_of_routine? .call m h.kind hrule .call rfl)
    exact Rule.isNodeOf_of_mem_callReports ho hnodes hne hr
  · exact Rule.isNodeOf_of_mem_binaryReports ho hr
  · exact Rule.isNodeOf_of_mem_activityReports ho hr
  · simp at hr

/-! ## 3. Texts that are read -/

/-- A node of a tree that is read is located at a place in the text. -/
theorem PN.isIn_of_mem_nodes {source : List Char} {t u : Tree} (h : read source = .ok t)
    (hu : u ∈ t.nodes) : ∃ p : Point, p.IsIn source ∧ u.location = p.location := by
  obtain ⟨v, hv, ht⟩ := read_eq_ok_iff.mp h
  obtain ⟨w, hw, hdenotes⟩ := denoted_of_mem_nodes v t ht u hu
  exact ⟨w.point, isIn_of_mem_subvalues hv hw, location_of_tree hdenotes⟩

/-- What there is to every issue that a pass over a file finds on a tree read from a text. It is
about a node of the tree, at the place of that node in the text, and located in the file; it comes
from the validator as an error or a warning; and its message is that of its code, with an argument
for every field. -/
structure Diagnostic.IsFoundOn (source : List Char) (root : Tree) (file : Option Text)
    (d : Diagnostic) : Prop where
  place : ∃ (q : Position) (u : Tree) (p : PN.Point), d.site = some q ∧ root.at? q = some u ∧
    u ∈ root.nodes ∧ u.location = p.location ∧ p.IsIn source ∧
    d.span.line = some (p.line : Int) ∧ d.span.column = some (p.column : Int)
  file : d.span.file = Span.named file
  severity : d.severity = Text.ofString "error" ∨ d.severity = Text.ofString "warning"
  phase : d.phase = some (Text.ofString "validator")
  message : ∃ code, d.code = some code ∧
    (∀ name ∈ code.template.fields, (d.arguments.lookup name).isSome) ∧
    code.template.fill d.arguments = .ok d.message

/-- The severities that are not ignored are errors and warnings. -/
theorem Severity.word_of_ne_ignore {s : Severity} (h : s ≠ .ignore) :
    s.word = "error" ∨ s.word = "warning" := by
  cases s with
  | ignore => exact absurd rfl h
  | warning => exact .inr rfl
  | error => exact .inl rfl

/-- The issues of what the rules report on a tree that is read point into its text. -/
theorem Report.isFoundOn_of_read {source : List Char} {t : Tree} (h : PN.read source = .ok t)
    (m : Mode) (s : Strictness) (file : Option Text) :
    ∀ d ∈ issues s file (t.reports m), d.IsFoundOn source t file := by
  intro d hd
  have hfilled : ∀ u ∈ t.nodes, u.Filled := by
    intro u hu
    obtain ⟨v, -, ht⟩ := PN.read_eq_ok_iff.mp h
    exact Tree.filled_of_typed (PN.typed_of_tree v t ht u hu).1
  obtain ⟨q, hq, r, hr, hshown, rfl⟩ := Report.exists_of_mem_issues hd
  have hcomplete := Mode.complete_of_mem_reports hr
  have hsite := Mode.isNodeOf_of_mem_reports hfilled hq hr
  obtain ⟨p, hin, hlocation⟩ := PN.isIn_of_mem_nodes h hsite.mem_nodes
  have hspan : (r.diagnostic s file).span = Span.ofLocation p.location file := by
    rw [← hlocation]
    rfl
  constructor
  case place =>
    refine ⟨_, _, p, rfl, hsite.1, hsite.mem_nodes, hlocation, hin, ?_, ?_⟩
    · rw [hspan]
      rfl
    · rw [hspan]
      rfl
  case file =>
    rw [hspan]
    rfl
  case severity =>
    rcases Severity.word_of_ne_ignore hshown with hword | hword
    · exact .inl (congrArg Text.ofString hword)
    · exact .inr (congrArg Text.ofString hword)
  case phase => rfl
  case message => exact ⟨r.code, rfl, hcomplete, Template.fill_eq_ok hcomplete⟩

/-- A pass never fails on what is read, and whatever it finds points into the text. -/
theorem Checker.validate_read_reported {source : List Char} {t : Tree}
    (h : PN.read source = .ok t) (c : Checker) :
    ∃ c', c.validate t = .ok c' ∧ ∀ d ∈ c'.issues, d.IsFoundOn source t c.file :=
  ⟨_, c.validate_eq_ok t, Report.isFoundOn_of_read h c.mode c.strictness c.file⟩

/-- Of a block of two numbers the first has no effect. -/
theorem Checker.validate_read_block : ∃ t c',
    PN.read "(block 1\n 2)".toList = .ok t ∧
      (Checker.new .manifest .warning (some "site.pn")).validate t = .ok c' ∧
      c'.issues.map (fun d => d.span.text) = [Text.ofString "site.pn:1:8"] ∧
      ∀ d ∈ c'.issues, d.IsFoundOn "(block 1\n 2)".toList t (some "site.pn") := by
  have h : PN.read "(block 1\n 2)".toList =
      .ok (.node .block (.point (some 1) (some 1))
        [.node (.integer 1) (.point (some 1) (some 8)) [],
          .node (.integer 2) (.point (some 2) (some 2)) []]) := by cbv
  obtain ⟨c', hc', hfound⟩ :=
    validate_read_reported h (Checker.new .manifest .warning (some "site.pn"))
  refine ⟨_, c', h, hc', ?_, hfound⟩
  rw [Checker.validate_eq_ok] at hc'
  cases hc'
  rfl

end ManifestLint
