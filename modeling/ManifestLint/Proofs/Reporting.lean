/-
ManifestLint.Proofs.Reporting — what becomes of the reports of a rule.

A report is recorded unless its code is ignored, and then reads the same whatever was
recorded before (`Report.diagnostic`). Recording can fail only on a message that lacks an
argument; the rules never leave one out, which is seen rule by rule.

The main statements: a rule reports a few codes with a few arguments each
(`reported_of_mem_reports`), so every report has all that its message needs
(`complete_of_mem_reports`), and recording such reports appends their issues
(`reportAll_eq`).
-/
import ManifestLint.Check.Checker

namespace ManifestLint

/-! ## 1. Messages that lack nothing -/

/-- A message with its fields replaced, those without an argument by nothing. -/
def Template.filled (arguments : Arguments) : Template → Text
  | [] => []
  | .words t :: ps => Text.ofString t ++ filled arguments ps
  | .field name :: ps =>
    ((arguments.lookup name).map Datum.spelled).getD [] ++ filled arguments ps

/-- Where every field has an argument, filling gives the filled message. -/
theorem Template.fill_eq_ok {arguments : Arguments} {t : Template}
    (h : ∀ name ∈ fields t, (arguments.lookup name).isSome) :
    fill arguments t = .ok (filled arguments t) := by
  induction t with
  | nil => rfl
  | cons p ps ih =>
    cases p with
    | words w => simp [fill, filled, ih h, Except.map]
    | field name =>
      simp only [fields, List.mem_cons, forall_eq_or_imp] at h
      obtain ⟨d, hd⟩ := Option.isSome_iff_exists.mp h.1
      simp [fill, filled, hd, ih h.2, Except.map]

namespace Report

/-- Holds of reports with an argument for every field of their message. -/
def Complete (r : Report) : Prop :=
  ∀ name ∈ r.code.template.fields, (r.arguments.lookup name).isSome

/-- The severity of a report in a pass of a given strictness. -/
def severity (s : Strictness) (r : Report) : Severity :=
  if r.code.isDemotable then s.severity else r.code.severity

/-- The diagnostic that a report becomes in a pass of a given strictness over a given file. -/
def diagnostic (s : Strictness) (file : Option Text) (r : Report) : Diagnostic where
  message := r.code.template.filled r.arguments
  code := some r.code
  phase := some "validator"
  severity := (r.severity s).word
  span := Span.ofLocation r.site.tree.location file
  arguments := r.arguments
  notes := []
  site := some r.site.position

/-- The issues that reports become: those that are ignored are left out. -/
def issues (s : Strictness) (file : Option Text) (rs : List Report) : List Diagnostic :=
  (rs.filter fun r => r.severity s ≠ .ignore).map (diagnostic s file)

@[simp] theorem issues_append (s : Strictness) (file : Option Text) (rs us : List Report) :
    issues s file (rs ++ us) = issues s file rs ++ issues s file us := by
  simp [issues]

end Report

/-! ## 2. Recording -/

/-- A complete report is recorded at the end of the sink of a pass, unless it is ignored. -/
theorem Sink.reportOn_eq (s : Strictness) (file : Option Text) (ds : List Diagnostic)
    {r : Report} (h : r.Complete) :
    (Sink.mk (.forStrictness s) file ds).reportOn r =
      .ok ⟨.forStrictness s, file, ds ++ Report.issues s file [r]⟩ := by
  have heff : (Severities.forStrictness s).effective r.code = r.severity s :=
    Severities.effective_forStrictness s r.code
  simp only [reportOn, report, heff, Template.fill_eq_ok h, Report.issues]
  by_cases hi : r.severity s = .ignore
  · simp [hi]
  · simp [hi, Except.map, diagnose, Report.diagnostic, heff]

/-- Complete reports are recorded one after another. -/
theorem Sink.reportAll_eq (s : Strictness) (file : Option Text) {rs : List Report}
    (h : ∀ r ∈ rs, r.Complete) (ds : List Diagnostic) :
    (Sink.mk (.forStrictness s) file ds).reportAll rs =
      .ok ⟨.forStrictness s, file, ds ++ Report.issues s file rs⟩ := by
  induction rs generalizing ds with
  | nil => simp [reportAll, Report.issues]
  | cons r rs ih =>
    have hr := h r List.mem_cons_self
    have hrs := ih (fun u hu => h u (List.mem_cons_of_mem r hu)) (ds ++ Report.issues s file [r])
    simp only [reportAll, reportOn_eq s file ds hr, Except.bind]
    rw [hrs, List.append_assoc, ← Report.issues_append]
    rfl

/-! ## 3. What rules report -/

/-- The reports that a rule can make: for each code one shape of the arguments. -/
inductive Rule.Reported : Rule → Report → Prop where
  | index (o : Occurrence) : Reported .assignment ⟨.illegalAssignmentViaIndex, o, []⟩
  | numeral (o : Occurrence) (name : Text) :
      Reported .assignment ⟨.illegalNumericAssignment, o, [("var", name)]⟩
  | scope (o : Occurrence) (name : Text) :
      Reported .assignment ⟨.crossScopeAssignment, o, [("name", name)]⟩
  | operator (o : Occurrence) (operator : Text) :
      Reported .assignment ⟨.appendsDeletesNoLongerSupported, o, [("operator", operator)]⟩
  | append (o : Occurrence) (name parent : Text) :
      Reported .attr ⟨.illegalAttributeAppend, o, [("attr", name), ("expression", parent)]⟩
  | spread (o : Occurrence) (operator parent : Text) :
      Reported .splat ⟨.unsupportedOperatorInContext, o,
        [("operator", operator), ("value", parent)]⟩
  | spreadValue (o : Occurrence) (value : Text) :
      Reported .splat ⟨.notRvalue, o, [("value", value)]⟩
  | operand (o : Occurrence) (value : Text) :
      Reported .binary ⟨.notRvalue, o, [("value", value)]⟩
  | functor (o : Occurrence) (expression feature container : Text) :
      Reported .call ⟨.illegalExpression, o,
        [("expression", expression), ("feature", feature), ("container", container)]⟩
  | statement (o : Occurrence) (expression : Text) :
      Reported .block ⟨.idemExpressionNotLast, o, [("expression", expression)]⟩
  | style (o : Occurrence) (style : Text) :
      Reported .activity ⟨.invalidActivityStyle, o, [("style", style)]⟩

namespace Tree

mutual

/-- A tree that is no value is reported with what it is. -/
theorem eq_of_mem_valueReports {p : Position} :
    ∀ (t : Tree), ∀ r ∈ t.valueReports p, ∃ o value, r = ⟨.notRvalue, o, [("value", .text value)]⟩
  | node h l ps, r, hr => by
    simp only [valueReports] at hr
    split at hr
    · exact eq_of_mem_operandReports ps r hr
    · split at hr
      · exact ⟨_, _, List.mem_singleton.mp hr⟩
      · simp at hr
  | foreign _, r, hr => by simp [valueReports] at hr

theorem eq_of_mem_operandReports {p : Position} :
    ∀ (ts : List Tree), ∀ r ∈ operandReports p ts,
      ∃ o value, r = ⟨.notRvalue, o, [("value", .text value)]⟩
  | [], r, hr => by simp [operandReports] at hr
  | t :: _, r, hr => eq_of_mem_valueReports t r (by simpa [operandReports] using hr)

end

theorem reported_of_mem_variableTargetReports {site : Occurrence} {name : Text} {r : Report}
    (hr : r ∈ variableTargetReports site name) : Rule.assignment.Reported r := by
  simp only [variableTargetReports, List.mem_append] at hr
  rcases hr with hr | hr
  · split at hr
    · obtain rfl := List.mem_singleton.mp hr
      exact .numeral site name
    · simp at hr
  · split at hr
    · obtain rfl := List.mem_singleton.mp hr
      exact .scope site name
    · simp at hr

mutual

theorem reported_of_mem_targetReports {p : Position} :
    ∀ (t : Tree), ∀ r ∈ t.targetReports p, Rule.assignment.Reported r
  | node h l ps, r, hr => by
    unfold targetReports at hr
    split at hr
    · exact reported_of_mem_variableTargetReports hr
    · obtain rfl := List.mem_singleton.mp hr
      exact .index _
    · rename_i ps' heq
      cases heq
      exact reported_of_mem_elementTargetReports ps r hr
    · simp at hr
  | foreign _, r, hr => by simp [targetReports] at hr

theorem reported_of_mem_elementTargetReports {p : Position} {i : Nat} :
    ∀ (ts : List Tree), ∀ r ∈ elementTargetReports p i ts, Rule.assignment.Reported r
  | [], r, hr => by simp [elementTargetReports] at hr
  | t :: ts, r, hr => by
    simp only [elementTargetReports, List.mem_append] at hr
    rcases hr with hr | hr
    · exact reported_of_mem_targetReports t r hr
    · exact reported_of_mem_elementTargetReports ts r hr

end

end Tree

namespace Rule

theorem reported_of_mem_assignmentReports {o : Occurrence} {operator : Text} {r : Report}
    (hr : r ∈ assignmentReports o operator) : Rule.assignment.Reported r := by
  simp only [assignmentReports] at hr
  split at hr
  · exact Tree.reported_of_mem_targetReports _ r hr
  · obtain rfl := List.mem_singleton.mp hr
    exact .operator o operator

theorem reported_of_mem_attrReports {parent : Option Occurrence} {o : Occurrence}
    {name operator : Text} {r : Report} (hr : r ∈ attrReports parent o name operator) :
    Rule.attr.Reported r := by
  simp only [attrReports] at hr
  split at hr
  · obtain rfl := List.mem_singleton.mp hr
    exact .append o name _
  · simp at hr

theorem reported_of_mem_splatReports {parent : Option Occurrence} {o : Occurrence} {r : Report}
    (hr : r ∈ splatReports parent o) : Rule.splat.Reported r := by
  simp only [splatReports, List.mem_append] at hr
  rcases hr with hr | hr
  · split at hr
    · split at hr
      · obtain rfl := List.mem_singleton.mp hr
        exact .spread _ _ _
      · simp at hr
    · simp at hr
  · obtain ⟨site, value, rfl⟩ := Tree.eq_of_mem_valueReports _ r hr
    exact .spreadValue site value

theorem reported_of_mem_blockReports {o : Occurrence} {r : Report} (hr : r ∈ blockReports o) :
    Rule.block.Reported r := by
  simp only [blockReports] at hr
  split at hr
  · obtain rfl := List.mem_singleton.mp hr
    exact .statement _ _
  · simp at hr

theorem reported_of_mem_callReports {o : Occurrence} {r : Report} (hr : r ∈ callReports o) :
    Rule.call.Reported r := by
  simp only [callReports] at hr
  split at hr
  · simp at hr
  · obtain rfl := List.mem_singleton.mp hr
    exact .functor _ _ _ _

theorem reported_of_mem_binaryReports {o : Occurrence} {r : Report} (hr : r ∈ binaryReports o) :
    Rule.binary.Reported r := by
  simp only [binaryReports, List.mem_append] at hr
  have hvalue : ∃ site value, r = ⟨.notRvalue, site, [("value", .text value)]⟩ := by
    rcases hr with hr | hr
    · exact Tree.eq_of_mem_valueReports _ r hr
    · exact Tree.eq_of_mem_valueReports _ r hr
  obtain ⟨site, value, rfl⟩ := hvalue
  exact .operand site value

theorem reported_of_mem_activityReports {o : Occurrence} {style : Text} {r : Report}
    (hr : r ∈ activityReports o style) : Rule.activity.Reported r := by
  simp only [activityReports] at hr
  split at hr
  · simp at hr
  · obtain rfl := List.mem_singleton.mp hr
    exact .style o style

/-- Whatever a rule reports has one of its shapes. -/
theorem reported_of_mem_reports {rule : Rule} {parent : Option Occurrence} {o : Occurrence}
    {r : Report} (hr : r ∈ rule.reports parent o) : rule.Reported r := by
  unfold reports at hr
  split at hr
  · exact reported_of_mem_assignmentReports hr
  · exact reported_of_mem_attrReports hr
  · exact reported_of_mem_splatReports hr
  · exact reported_of_mem_blockReports hr
  · exact reported_of_mem_callReports hr
  · exact reported_of_mem_binaryReports hr
  · exact reported_of_mem_activityReports hr
  · simp at hr

end Rule

/-! ## 4. What follows from the shapes -/

/-- A report with arguments of the names of all its fields is complete. -/
theorem Report.complete_of_all {r : Report}
    (h : r.code.template.fields.all (r.arguments.map Prod.fst).contains = true) : r.Complete := by
  intro name hname
  have hmem := List.all_eq_true.mp h name hname
  rw [List.contains_iff_mem, List.mem_map] at hmem
  obtain ⟨a, ha, rfl⟩ := hmem
  rw [List.lookup_isSome_iff]
  exact ⟨a, ha, by simp⟩

theorem Rule.Reported.complete {rule : Rule} {r : Report} (h : rule.Reported r) : r.Complete := by
  cases h <;> exact Report.complete_of_all rfl

/-- The rule that reports a code, where it is one rule alone: values are looked for by two. -/
def Code.rule? : Code → Option Rule
  | .illegalAssignmentViaIndex | .illegalNumericAssignment | .crossScopeAssignment
  | .appendsDeletesNoLongerSupported => some .assignment
  | .illegalAttributeAppend => some .attr
  | .unsupportedOperatorInContext => some .splat
  | .notRvalue => none
  | .illegalExpression => some .call
  | .idemExpressionNotLast => some .block
  | .invalidActivityStyle => some .activity

/-- The kind that a rule is for, where it is one kind alone. -/
def Rule.kind? : Rule → Option Kind
  | .assignment => some .assignment
  | .attr => some .attr
  | .splat => some .splat
  | .block => some .block
  | .call => some .call
  | .binary => none
  | .activity => some .activity

theorem Rule.Reported.eq_of_rule? {rule rule' : Rule} {r : Report} {code : Code}
    (h : rule.Reported r) (hcode : r.code = code) (hrule : code.rule? = some rule') :
    rule = rule' := by
  subst hcode
  cases h <;> first | exact Option.some.inj hrule | cases hrule

/-- Only binary expressions and splats are checked for values. -/
theorem Rule.Reported.eq_binary_or_splat {rule : Rule} {r : Report} (h : rule.Reported r)
    (hcode : r.code = .notRvalue) : rule = .binary ∨ rule = .splat := by
  cases h <;> first | exact .inl rfl | exact .inr rfl | cases hcode

/-- What a mode reports on a node is what one of its rules does. -/
theorem Mode.reported_of_mem_reports {m : Mode} {parent : Option Occurrence} {o : Occurrence}
    {r : Report} (hr : r ∈ m.reports parent o) :
    ∃ rule, m.table.routineFor o.tree = some rule ∧ r ∈ rule.reports parent o ∧
      rule.Reported r := by
  simp only [reports] at hr
  split at hr
  · rename_i rule hrule
    exact ⟨rule, hrule, hr, Rule.reported_of_mem_reports hr⟩
  · simp at hr

/-- In every mode a rule for one kind is given nodes of that kind alone. -/
theorem Mode.eq_kind_of_routine? (rule : Rule) : ∀ (m : Mode) (k : Kind),
    m.table.routine? k = some rule → ∀ k' ∈ rule.kind?, k = k' := by
  cases rule <;> decide

/-- In every mode the nodes of the kind of a rule are given to that rule, activities apart, which
manifests are not checked for. -/
theorem Mode.routine?_of_kind? (rule : Rule) (hne : rule ≠ .activity) : ∀ m : Mode,
    ∀ k ∈ rule.kind?, m.table.routine? k = some rule := by
  cases rule <;> first | decide | exact absurd rfl hne

/-- What a mode reports on a node of the kind of a rule is what that rule does. -/
theorem Mode.reports_of_kind? {m : Mode} {parent : Option Occurrence} {o : Occurrence} {k : Kind}
    (rule : Rule) (hk : o.tree.kind? = some k) (hkind : rule.kind? = some k)
    (hne : rule ≠ .activity) : m.reports parent o = rule.reports parent o := by
  rw [reports, DispatchTable.routineFor, hk, Option.bind_some, routine?_of_kind? rule hne m k hkind]

/-- A code that one rule has is reported on nodes of the kind of that rule, by that rule. -/
theorem Mode.mem_rule_reports {m : Mode} {parent : Option Occurrence} {o : Occurrence} {r : Report}
    {code : Code} {rule : Rule} {k : Kind} (hr : r ∈ m.reports parent o) (hcode : r.code = code)
    (hrule : code.rule? = some rule) (hkind : rule.kind? = some k) :
    o.tree.kind? = some k ∧ r ∈ rule.reports parent o := by
  obtain ⟨rule', hgiven, hr, hreported⟩ := reported_of_mem_reports hr
  obtain rfl := hreported.eq_of_rule? hcode hrule
  obtain ⟨k', hk', hroutine⟩ := Option.bind_eq_some_iff.mp hgiven
  obtain rfl := eq_kind_of_routine? rule' m k' hroutine k hkind
  exact ⟨hk', hr⟩

/-- Whatever a rule reports has an argument for every field of its message. -/
theorem Mode.complete_of_mem_reports {m : Mode} {parent : Option Occurrence} {o : Occurrence}
    {r : Report} (hr : r ∈ m.reports parent o) : r.Complete := by
  obtain ⟨rule, -, -, hreported⟩ := reported_of_mem_reports hr
  exact hreported.complete

end ManifestLint
