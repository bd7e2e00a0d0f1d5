/-
ManifestLint.Proofs.Attributes — attribute operators and the parents they stand in.

The rules for attribute operators ask the walk for the parent of the node at hand. Here the parent
is read off the tree: what an attribute or a splat has reported depends on the node one step above
it, on nothing further up and on nothing beside it. A splat is reported on its parent, so that one
node can have several issues of one code; they are counted by its parts.

The main statements: an attribute that appends is reported on itself, once, and with what it stands
in (`exactlyOn_appendsAt`, `eq_of_mem_appendReports`); a node that refuses splats is reported as
often as it has splats for parts (`countP_unsupported_reports`); and what stands higher up changes
neither (`attributeOperators_exact`).
-/
import ManifestLint.Proofs.Counting

namespace ManifestLint

/-! ## 1. Parents -/

namespace Tree

/-- The kind of the direct parent of a place; the root has none. -/
def parentKind? (root : Tree) (p : Position) : Option Kind :=
  (root.parentAt p).bind fun parent => parent.tree.kind?

/-- What a message calls the direct parent of a place; that of the root is the top level. -/
def containerPhrase (root : Tree) (p : Position) : Text :=
  if p = [] then "the top level" else (root.occurrenceAt p.dropLast).tree.aAn

theorem aAn_parentTree (root : Tree) (p : Position) :
    (Rule.parentTree (root.parentAt p)).aAn = root.containerPhrase p := by
  unfold parentAt containerPhrase
  split <;> rfl

/-- Only conditions have special forms; every other kind is a group of its own. -/
theorem isA_kind_iff {t : Tree} {k : Kind} (hk : k ≠ .ifStatement) :
    t.isA (.kind k) = true ↔ t.kind? = some k := by
  have hhas : ∀ k', (Group.kind k).has k' = true ↔ k' = k := by
    intro k'
    cases k <;> first | exact absurd rfl hk | exact decide_eq_true_iff
  simp [isA, Option.any_eq_true, hhas]

end Tree

theorem Rule.admitsAppend_iff {root : Tree} {p : Position} :
    admitsAppend (root.parentAt p) = true ↔
      root.parentKind? p = some .collector ∨ root.parentKind? p = some .override := by
  unfold Tree.parentKind?
  cases root.parentAt p with
  | none => simp [admitsAppend]
  | some parent => simp [admitsAppend, Tree.isA_kind_iff]

/-! ## 2. Attributes that append -/

/-- An attribute with `+>` whose direct parent is neither a collector nor an override stands at the
place. -/
def Tree.AppendsAt (root : Tree) (p : Position) : Prop :=
  (∃ name, root.headAt? p = some (.attr name "+>")) ∧
    root.parentKind? p ≠ some .collector ∧ root.parentKind? p ≠ some .override

section

variable {m : Mode} {root : Tree} {p q : Position} {r : Report}

theorem Mode.reports_attr (m : Mode) (parent : Option Occurrence) (q : Position)
    (name operator : Text) (l : Location) (ps : List Tree) :
    m.reports parent ⟨q, .node (.attr name operator) l ps⟩ =
      Rule.attrReports parent ⟨q, .node (.attr name operator) l ps⟩ name operator :=
  reports_of_kind? .attr rfl rfl (by decide)

namespace Tree

/-- What is reported as an append is an attribute that appends, with its name and what it stands
in. -/
theorem eq_of_mem_appendReports (hq : q ∈ root.positions)
    (hr : r ∈ m.reports (root.parentAt q) (root.occurrenceAt q))
    (hcode : r.code = .illegalAttributeAppend) : root.AppendsAt q ∧
      ∃ name, root.headAt? q = some (.attr name "+>") ∧
        r = ⟨.illegalAttributeAppend, root.occurrenceAt q,
          [("attr", name), ("expression", root.containerPhrase q)]⟩ := by
  obtain ⟨h, l, ps, hat⟩ := (mem_positions_iff root q).mp hq
  obtain ⟨hk, -⟩ := Mode.mem_rule_reports hr hcode rfl rfl
  rw [occurrenceAt_of_at? hat] at hr hk ⊢
  cases h
  case attr name operator =>
    rw [Mode.reports_attr, Rule.attrReports, aAn_parentTree] at hr
    split at hr
    · rename_i happends
      rw [Bool.and_eq_true, decide_eq_true_eq, Bool.not_eq_true', ← Bool.not_eq_true,
        Rule.admitsAppend_iff, not_or] at happends
      obtain ⟨rfl, hparent⟩ := happends
      obtain rfl := List.mem_singleton.mp hr
      have hhead : root.headAt? q = some (.attr name "+>") := headAt?_of_at? hat
      exact ⟨⟨⟨name, hhead⟩, hparent⟩, name, hhead, rfl⟩
    · simp at hr
  all_goals cases hk

/-- Attributes that append are reported on themselves and on nothing else. -/
theorem exactlyOn_appendsAt (m : Mode) (root : Tree) (s : Strictness) (file : Option Text) :
    Diagnostic.ExactlyOn .illegalAttributeAppend root.AppendsAt
      (Report.issues s file (root.reports m)) := by
  refine exactlyOn_issues_of_self rfl s file ?once ?only
  case once =>
    rintro p ⟨⟨name, hp⟩, hparent⟩
    obtain ⟨l, ps, hat⟩ := headAt?_eq_some_iff.mp hp
    have hrefused : Rule.admitsAppend (root.parentAt p) = false := by
      rw [← Bool.not_eq_true, Rule.admitsAppend_iff, not_or]
      exact hparent
    refine ⟨mem_positions_of_headAt? hp, ?_⟩
    rw [occurrenceAt_of_at? hat, Mode.reports_attr, Rule.attrReports, hrefused]
    simp [Report.isOn, Text.ofString]
  case only =>
    intro q hq r hr hcode
    obtain ⟨happends, name, -, rfl⟩ := eq_of_mem_appendReports hq hr hcode
    exact ⟨rfl, happends⟩

end Tree

end

/-! ## 3. Splats -/

/-- Holds of the kinds that no splat may be a part of: the forms of resources, collectors, and
capability mappings. -/
def Kind.refusesSplats : Kind → Bool
  | .resource | .defaults | .override | .collector | .capabilityMapping => true
  | _ => false

/-- Holds of splats. -/
def Tree.isSplat (t : Tree) : Bool := t.kind? = some .splat

/-- How many splats a node has for parts where it may have none. -/
def Tree.unsupportedSplats (t : Tree) : Nat :=
  if t.kind?.any Kind.refusesSplats then t.parts.countP isSplat else 0

theorem Rule.refusesSplat_eq (t : Tree) : refusesSplat t = t.kind?.any Kind.refusesSplats := by
  have hkinds : ∀ k : Kind, (Group.resource.has k || (Group.kind .collector).has k ||
      (Group.kind .capabilityMapping).has k) = k.refusesSplats := by decide
  cases t with
  | node h l ps =>
    rw [refusesSplat, Tree.isA_node, Tree.isA_node, Tree.isA_node, hkinds]
    rfl
  | foreign x => rfl

section

variable {m : Mode} {root : Tree} {p q : Position}

/-- A splat is reported on its parent, once, if that refuses it. -/
theorem Rule.countP_splatReports (parent : Option Occurrence) (o : Occurrence) (p : Position) :
    (splatReports parent o).countP (Report.isOn .unsupportedOperatorInContext p) =
      if parent.any fun above => above.position = p && refusesSplat above.tree then 1 else 0 := by
  have hvalues :
      (o.part 0).valueReports.countP (Report.isOn .unsupportedOperatorInContext p) = 0 := by
    rw [List.countP_eq_zero]
    intro r hr hon
    obtain ⟨site, value, rfl⟩ := Tree.eq_of_mem_valueReports _ r hr
    cases (Report.isOn_iff.mp hon).1
  unfold splatReports
  rw [List.countP_append, hvalues, Nat.add_zero]
  cases parent with
  | none => rfl
  | some above =>
    by_cases hrefused : refusesSplat above.tree = true
    · simp [hrefused, List.countP_singleton, Report.isOn]
    · simp [hrefused]

namespace Tree

/-- What stands at the place that a node has its parent at is the parent. -/
theorem any_parentAt_and (root : Tree) (p q : Position) (P : Tree → Bool) :
    (root.parentAt q).any (fun above => above.position = p && P above.tree) =
      ((root.parentAt q).any (fun above => above.position = p) &&
        P (root.occurrenceAt p).tree) := by
  rcases List.eq_nil_or_concat q with rfl | ⟨q, i, rfl⟩
  · rfl
  · by_cases hp : q = p
    · subst hp
      simp [occurrenceAt]
    · simp [occurrenceAt, hp]

/-- The nodes that have their parent at a place stand one step further. -/
theorem any_parentAt_iff : (root.parentAt q).any (fun above => above.position = p) = true ↔
    ∃ i, q = p ++ [i] := by
  rcases List.eq_nil_or_concat q with rfl | ⟨q, i, rfl⟩
  · simp
  · simp [occurrenceAt]

/-- What a node has reported on a place is that it is a splat there that the place refuses. -/
theorem countP_reports_unsupported (m : Mode) (p : Position) (hq : q ∈ root.positions) :
    (m.reports (root.parentAt q) (root.occurrenceAt q)).countP
        (Report.isOn .unsupportedOperatorInContext p) =
      if (root.occurrenceAt q).tree.isSplat &&
        (root.parentAt q).any (fun above => above.position = p) &&
          Rule.refusesSplat (root.occurrenceAt p).tree then 1 else 0 := by
  obtain ⟨h, l, ps, hat⟩ := (mem_positions_iff root q).mp hq
  rw [occurrenceAt_of_at? hat]
  cases hsplat : (node h l ps).isSplat with
  | true =>
    have hreports : m.reports (root.parentAt q) ⟨q, node h l ps⟩ =
        Rule.splatReports (root.parentAt q) ⟨q, node h l ps⟩ :=
      Mode.reports_of_kind? .splat (of_decide_eq_true hsplat) rfl (by decide)
    rw [hreports, Rule.countP_splatReports, any_parentAt_and, Bool.true_and]
  | false =>
    rw [Bool.false_and, Bool.false_and, if_neg Bool.false_ne_true, List.countP_eq_zero]
    intro r hr hon
    obtain ⟨hk, -⟩ := Mode.mem_rule_reports hr (Report.isOn_iff.mp hon).1 rfl rfl
    rw [isSplat, hk] at hsplat
    cases hsplat

theorem mem_positions_snoc_iff {t : Tree} (hat : root.at? p = some t) {i : Nat} :
    p ++ [i] ∈ root.positions ↔ (t.part i).isNode = true := by
  rw [mem_positions_iff, at?_snoc hat, part]
  cases t.parts[i]? with
  | none => simp [absent]
  | some u => cases u <;> simp

theorem lt_length_of_isNode_part {t : Tree} {i : Nat} (h : (t.part i).isNode = true) :
    i < t.parts.length := by
  by_contra hge
  simp [part, List.getElem?_eq_none (Nat.le_of_not_lt hge), absent] at h

/-- The nodes whose parent stands at a place are the parts that are nodes. -/
theorem countP_positions_parts {t : Tree} (hat : root.at? p = some t) {P : Tree → Bool}
    (hP : ∀ u, P u = true → u.isNode = true) :
    root.positions.countP (fun q => P (root.occurrenceAt q).tree &&
      (root.parentAt q).any fun above => above.position = p) = t.parts.countP P := by
  have hparts : (List.range t.parts.length).map t.part = t.parts :=
    List.ext_getElem (by simp) fun i _ hi => by simp [part, hi]
  have hperm : (root.positions.filter fun q => P (root.occurrenceAt q).tree &&
      (root.parentAt q).any fun above => above.position = p).Perm
        (((List.range t.parts.length).filter (P ∘ t.part)).map fun i => p ++ [i]) := by
    refine (List.perm_ext_iff_of_nodup (root.nodup_positions.filter _) ?_).mpr fun q => ?_
    · refine List.Nodup.map ?_ (List.nodup_range.filter _)
      intro i j hij
      simpa using hij
    · simp only [List.mem_filter, Bool.and_eq_true, any_parentAt_iff, List.mem_map, List.mem_range,
        Function.comp]
      constructor
      · rintro ⟨-, hq, i, rfl⟩
        rw [occurrenceAt_snoc hat] at hq
        exact ⟨i, ⟨lt_length_of_isNode_part (hP _ hq), hq⟩, rfl⟩
      · rintro ⟨i, ⟨-, hi⟩, rfl⟩
        rw [occurrenceAt_snoc hat]
        exact ⟨(mem_positions_snoc_iff hat).mpr (hP _ hi), hi, i, rfl⟩
  rw [List.countP_eq_length_filter, hperm.length_eq, List.length_map,
    ← List.countP_eq_length_filter, ← List.countP_map, hparts]

theorem isNode_of_isSplat {t : Tree} (h : t.isSplat = true) : t.isNode = true := by
  cases t with
  | node => rfl
  | foreign => cases h

/-- A node that refuses splats is reported as often as it has splats for parts, and no other place
ever. -/
theorem countP_unsupported_reports (m : Mode) (root : Tree) (p : Position) :
    (root.reports m).countP (Report.isOn .unsupportedOperatorInContext p) =
      (root.occurrenceAt p).tree.unsupportedSplats := by
  rw [reports, countP_flatMap_of_ite fun q hq => countP_reports_unsupported m p hq,
    unsupportedSplats, ← Rule.refusesSplat_eq]
  cases hrefused : Rule.refusesSplat (root.occurrenceAt p).tree with
  | true =>
    cases hat : root.at? p with
    | none =>
      rw [occurrenceAt, hat] at hrefused
      cases hrefused
    | some t =>
      simp only [Bool.and_true, if_true]
      rw [countP_positions_parts hat fun _ => isNode_of_isSplat, occurrenceAt_of_at? hat]
  | false => simp

end Tree

end

/-! ## 4. Passes -/

/-- What an issue of an attribute that appends says. -/
theorem Report.message_append (s : Strictness) (file : Option Text) (o : Occurrence)
    (name phrase : Text) :
    (Report.diagnostic s file
      ⟨.illegalAttributeAppend, o, [("attr", name), ("expression", phrase)]⟩).message =
        Text.ofString "Illegal +> operation on attribute " ++ name ++
          Text.ofString ". This operator can not be used in " ++ phrase := by
  simp [diagnostic, Code.template, Template.filled, List.lookup_cons]

/-- Issues of attribute operators are exact. Each attribute with `+>` has one issue for that, unless
its direct parent is a collector or an override, and nothing else has; the issue names the attribute
and what it stands in, which for the root is the top level. A resource, defaults, override,
collector or capability mapping has as many issues for splats as it has splats for direct parts, and
nothing else has any. Neither depends on what stands higher up: in whatever trees two attributes
stand, they are treated alike if they and the kinds of their direct parents are alike; and so are
two nodes that have the same parts. -/
theorem Checker.attributeOperators_exact (c : Checker) (root : Tree) :
    ∃ c', c.validate root = .ok c' ∧
      Diagnostic.ExactlyOn .illegalAttributeAppend root.AppendsAt c'.issues ∧
      (∀ d ∈ c'.issues, d.code = some .illegalAttributeAppend → ∃ p name, d.site = some p ∧
        root.headAt? p = some (.attr name "+>") ∧
        d.message = Text.ofString "Illegal +> operation on attribute " ++ name ++
          Text.ofString ". This operator can not be used in " ++ root.containerPhrase p) ∧
      (∀ p, c'.issues.countP (Diagnostic.isOn .unsupportedOperatorInContext p) =
        (root.occurrenceAt p).tree.unsupportedSplats) ∧
      (∀ d ∈ c'.issues, d.code = some .unsupportedOperatorInContext → ∃ p, d.site = some p ∧
        0 < (root.occurrenceAt p).tree.unsupportedSplats) ∧
      ∀ root', ∃ c'', c.validate root' = .ok c'' ∧ ∀ p p',
        (root.headAt? p = root'.headAt? p' → root.parentKind? p = root'.parentKind? p' →
          c'.issues.countP (Diagnostic.isOn .illegalAttributeAppend p) =
            c''.issues.countP (Diagnostic.isOn .illegalAttributeAppend p')) ∧
        (root.at? p = root'.at? p' →
          c'.issues.countP (Diagnostic.isOn .unsupportedOperatorInContext p) =
            c''.issues.countP (Diagnostic.isOn .unsupportedOperatorInContext p')) := by
  have happends := fun root : Tree => Tree.exactlyOn_appendsAt c.mode root c.strictness c.file
  have hsplats : ∀ (root : Tree) (p : Position),
      (Report.issues c.strictness c.file (root.reports c.mode)).countP
        (Diagnostic.isOn .unsupportedOperatorInContext p) =
          (root.occurrenceAt p).tree.unsupportedSplats := by
    intro root p
    rw [Report.countP_issues rfl, Tree.countP_unsupported_reports]
  refine ⟨_, c.validate_eq_ok root, happends root, ?message, hsplats root, ?sites,
    fun root' => ⟨_, c.validate_eq_ok root', fun p p' => ⟨?appends, ?splats⟩⟩⟩
  case message =>
    intro d hd hcode
    obtain ⟨q, hq, r, hr, -, rfl⟩ := Report.exists_of_mem_issues hd
    obtain ⟨-, name, hhead, rfl⟩ := Tree.eq_of_mem_appendReports hq hr (Option.some.inj hcode)
    exact ⟨q, name, rfl, hhead, Report.message_append c.strictness c.file _ name _⟩
  case sites =>
    intro d hd hcode
    obtain ⟨-, -, r, -, -, rfl⟩ := Report.exists_of_mem_issues hd
    refine ⟨r.site.position, rfl, ?_⟩
    rw [← hsplats root, List.countP_pos_iff]
    refine ⟨_, hd, ?_⟩
    rw [Report.isOn_diagnostic, Report.isOn_iff]
    exact ⟨Option.some.inj hcode, rfl⟩
  case appends =>
    intro hhead hparent
    refine (happends root).countP_eq_of_iff (happends root') ?_
    rw [Tree.AppendsAt, Tree.AppendsAt, hhead, hparent]
  case splats =>
    intro hat
    calc _ = (root.occurrenceAt p).tree.unsupportedSplats := hsplats root p
      _ = (root'.occurrenceAt p').tree.unsupportedSplats := by
        rw [Tree.occurrenceAt, Tree.occurrenceAt, hat]
      _ = _ := (hsplats root' p').symm

end ManifestLint
