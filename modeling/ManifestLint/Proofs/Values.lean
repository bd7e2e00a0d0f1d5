/-
ManifestLint.Proofs.Values — places where a value is wanted and none stands.

Definitions and collectors are no values. Binary expressions want values as their operands, and
splats as what they spread; a unary expression wants of its operand what is wanted of itself. The
rules go down from each binary expression and each splat, through chains of unary expressions.
Here the same is said upwards: the first ancestor of a place that is no unary expression uses what
stands there (`Tree.user?`), and it alone decides whether that has to be a value.

The main statements: going down from a place leads to places with the same user
(`reachedFrom_of_mem_valueReports`), and from every place the way up leads to its user
(`valueReports_of_user?`); so no value is reported twice, and a non-value is reported exactly where
its user wants a value (`notRvalue_exact`).
-/
import ManifestLint.Proofs.Counting
import ManifestLint.Proofs.WellTyped
import Mathlib.Data.List.Induction

namespace ManifestLint

/-! ## 1. Users -/

/-- Holds of the kinds that want values as their parts. Assignments are binary, but have a rule of
their own. -/
def Kind.wantsValues (k : Kind) : Bool := (k.isBinary && k ≠ .assignment) || k = .splat

/-- A unary expression has one operand. -/
theorem Kind.slots_of_isUnary : ∀ k : Kind, k.isUnary = true →
    k.slots.length = 1 ∧ ∀ s ∈ k.slots, s.many = false := by decide

/-- A splat has one operand, the other kinds that want values have two. -/
theorem Kind.slots_of_wantsValues : ∀ k : Kind, k.wantsValues = true →
    k.slots.length = (if k = .splat then 1 else 2) ∧ ∀ s ∈ k.slots, s.many = false := by decide

theorem Kind.not_isUnary_of_isNoValue : ∀ k : Kind, k.isNoValue = true → k.isUnary = false := by
  decide

theorem Kind.not_isUnary_of_wantsValues : ∀ k : Kind, k.wantsValues = true → k.isUnary = false := by
  decide

namespace Tree

/-- Holds of the places of unary expressions. -/
def isUnaryAt (root : Tree) (p : Position) : Bool := (root.occurrenceAt p).tree.isA .unary

/-- The first place that is not of a unary expression on the way to the root, given by the part
numbers from the place upwards. -/
def userFrom? (root : Tree) : List Nat → Option Position
  | [] => none
  | _ :: up => if root.isUnaryAt up.reverse then root.userFrom? up else some up.reverse

/-- The place of the first ancestor that is no unary expression, if there is one: it uses what
stands at the position. -/
def user? (root : Tree) (p : Position) : Option Position := root.userFrom? p.reverse

/-- What stands at the position has to be a value. -/
def WantsValueAt (root : Tree) (p : Position) : Prop :=
  ∃ q h l ps, root.user? p = some q ∧ root.at? q = some (node h l ps) ∧ h.kind.wantsValues = true

variable {root t : Tree} {p q : Position}

@[simp] theorem user?_nil (root : Tree) : root.user? [] = none := rfl

/-- The parent uses a place, unless it is unary: then its own user does. -/
@[simp] theorem user?_snoc (root : Tree) (p : Position) (i : Nat) :
    root.user? (p ++ [i]) = if root.isUnaryAt p then root.user? p else some p := by
  simp [user?, userFrom?]

theorem isUnaryAt_of_at? (h : root.at? p = some t) : root.isUnaryAt p = t.isA .unary := by
  rw [isUnaryAt, occurrenceAt_of_at? h]

end Tree

/-! ## 2. The way down -/

/-- Going down from `p`, the report has come to a non-value that stands where the report says and
has the same user as what stands at `p`. -/
structure Report.ReachedFrom (root : Tree) (p : Position) (r : Report) : Prop where
  user : root.user? r.site.position = root.user? p
  below : p <+: r.site.position
  stands : root.at? r.site.position = some r.site.tree
  noValue : ∃ h l ps, r.site.tree = .node h l ps ∧ h.kind.isNoValue = true

namespace Tree

variable {root : Tree}

mutual

/-- The way down leads to a non-value with the same user. -/
theorem reachedFrom_of_mem_valueReports :
    ∀ (t : Tree) (p : Position), root.at? p = some t → ∀ r ∈ t.valueReports p, r.ReachedFrom root p
  | node h l ps, p, hat, r, hr => by
    simp only [valueReports] at hr
    split at hr
    · rename_i hunary
      refine reachedFrom_of_mem_operandReports ps p ?_ (at?_snoc hat) r hr
      rw [isUnaryAt_of_at? hat, isA_node]
      exact hunary
    · split at hr
      · rename_i hno
        obtain rfl := List.mem_singleton.mp hr
        exact ⟨rfl, List.prefix_rfl, hat, h, l, ps, rfl, hno⟩
      · simp at hr
  | foreign _, _, _, r, hr => by simp [valueReports] at hr

theorem reachedFrom_of_mem_operandReports :
    ∀ (ts : List Tree) (p : Position), root.isUnaryAt p = true →
      (∀ i, root.at? (p ++ [i]) = ts[i]?) → ∀ r ∈ operandReports p ts, r.ReachedFrom root p
  | [], _, _, _, r, hr => by simp [operandReports] at hr
  | t :: _, p, hunary, hat, r, hr => by
    have hbelow := reachedFrom_of_mem_valueReports t (p ++ [0]) (hat 0) r
      (by simpa [operandReports] using hr)
    refine ⟨?_, (List.prefix_append p [0]).trans hbelow.below, hbelow.stands, hbelow.noValue⟩
    rw [hbelow.user, user?_snoc, if_pos hunary]

end

/-! ## 3. The way up -/

variable {t : Tree} {p q : Position}

/-- A unary expression that is filled has one operand. -/
theorem length_parts_of_isUnary {h : Head} {l : Location} {ps : List Tree}
    (hfilled : (node h l ps).Filled) (hunary : h.kind.isUnary = true) : ps.length = 1 := by
  obtain ⟨hlen, hsingle⟩ := h.kind.slots_of_isUnary hunary
  rw [length_of_fills hfilled hsingle, hlen]

/-- A unary expression is reported as its operand is. -/
theorem valueReports_unary {h : Head} {l : Location} {u : Tree} (hunary : h.kind.isUnary = true) :
    (node h l [u]).valueReports p = u.valueReports (p ++ [0]) := by
  simp [valueReports, operandReports, hunary]

/-- A non-value is reported as itself. -/
theorem valueReports_of_isNoValue {h : Head} {l : Location} {ps : List Tree}
    (hno : h.kind.isNoValue = true) : (node h l ps).valueReports p =
      [⟨.notRvalue, ⟨p, node h l ps⟩, [("value", (node h l ps).aAnCapitalized)]⟩] := by
  simp [valueReports, h.kind.not_isUnary_of_isNoValue hno, hno]

/-- From every place that is used, the way up leads to a part of its user, from which the way down
leads back. -/
theorem valueReports_of_user? (hfilled : ∀ u ∈ root.nodes, u.Filled) (hat : root.at? p = some t)
    (hq : root.user? p = some q) : ∃ (user : Tree) (i : Nat) (u : Tree), root.at? q = some user ∧
      user.parts[i]? = some u ∧ u.valueReports (q ++ [i]) = t.valueReports p := by
  induction p using List.reverseRecOn generalizing t with
  | nil => simp at hq
  | append_singleton p j ih =>
    obtain ⟨v, hv, hpart⟩ := exists_of_at?_snoc hat
    rw [user?_snoc] at hq
    split at hq
    · rename_i hunary
      obtain ⟨user, i, u, huser, hu, hreports⟩ := ih hv hq
      refine ⟨user, i, u, huser, hu, hreports.trans ?_⟩
      rw [isUnaryAt_of_at? hv] at hunary
      cases v with
      | foreign x => simp [isA_foreign] at hunary
      | node h l ps =>
        have hlen := length_parts_of_isUnary (hfilled _ (mem_nodes_of_at? hv)) hunary
        obtain ⟨operand, rfl⟩ := List.length_eq_one_iff.mp hlen
        match j, hpart with
        | 0, hpart =>
          obtain rfl : operand = t := by simpa using hpart
          exact valueReports_unary hunary
    · cases hq
      exact ⟨v, j, t, hv, hpart, rfl⟩

end Tree

/-! ## 4. The rules of one node -/

namespace Mode

variable {m : Mode} {parent : Option Occurrence} {o : Occurrence} {k : Kind} {r : Report}

/-- Splats and binary expressions but assignments have rules that look for values. -/
theorem routine?_of_wantsValues : ∀ (m : Mode) (k : Kind), k.wantsValues = true →
    m.table.routine? k = some (if k = .splat then .splat else .binary) := by decide

/-- No other kinds have such rules. -/
theorem wantsValues_of_routine? : ∀ (m : Mode) (k : Kind),
    m.table.routine? k = some .binary ∨ m.table.routine? k = some .splat →
      k.wantsValues = true := by decide

end Mode

namespace Occurrence

variable {o : Occurrence} {i : Nat}

theorem valueReports_part {u : Tree} (hu : o.tree.parts[i]? = some u) :
    (o.part i).valueReports = u.valueReports (o.position ++ [i]) := by
  simp [valueReports, part, Tree.part, hu]

/-- A part that is reported as a value is there. -/
theorem exists_of_mem_valueReports {r : Report} (hr : r ∈ (o.part i).valueReports) :
    ∃ u : Tree, o.tree.parts[i]? = some u ∧ r ∈ u.valueReports (o.position ++ [i]) := by
  cases h : o.tree.parts[i]? with
  | none => simp [valueReports, part, Tree.part, h, Tree.absent, Tree.valueReports] at hr
  | some u =>
    rw [valueReports_part h] at hr
    exact ⟨u, rfl, hr⟩

end Occurrence

/-- What a rule reports as no value it has found going down from a part of a node that wants
values. -/
theorem Mode.exists_part_of_notRvalue {m : Mode} {parent : Option Occurrence} {o : Occurrence}
    {r : Report} (hr : r ∈ m.reports parent o) (hcode : r.code = .notRvalue) :
    (∃ k, o.tree.kind? = some k ∧ k.wantsValues = true) ∧
      ∃ i, r ∈ (o.part i).valueReports := by
  obtain ⟨rule, hrule, hr, hreported⟩ := reported_of_mem_reports hr
  have hvalues := hreported.eq_binary_or_splat hcode
  obtain ⟨k, hk, hroutine⟩ := Option.bind_eq_some_iff.mp hrule
  obtain ⟨h, hhead, -⟩ := Option.map_eq_some_iff.mp hk
  have hrules : m.table.routine? k = some .binary ∨ m.table.routine? k = some .splat := by
    rcases hvalues with rfl | rfl
    · exact .inl hroutine
    · exact .inr hroutine
  refine ⟨⟨k, hk, m.wantsValues_of_routine? k hrules⟩, ?_⟩
  rcases hvalues with rfl | rfl
  · simp only [Rule.reports, hhead, Rule.binaryReports, List.mem_append] at hr
    rcases hr with hr | hr
    · exact ⟨0, hr⟩
    · exact ⟨1, hr⟩
  · simp only [Rule.reports, hhead, Rule.splatReports, List.mem_append] at hr
    rcases hr with hr | hr
    · split at hr
      · split at hr
        · obtain rfl := List.mem_singleton.mp hr
          cases hcode
        · simp at hr
      · simp at hr
    · exact ⟨0, hr⟩

/-! ## 5. Each non-value once -/

section

variable {m : Mode} {root : Tree} {p q : Position} {h : Head} {l : Location} {ps : List Tree}

/-- A node that wants values reports non-values part by part. -/
theorem Mode.countP_notRvalue {parent : Option Occurrence} (hfilled : (Tree.node h l ps).Filled)
    (hwants : h.kind.wantsValues = true) :
    (m.reports parent ⟨q, .node h l ps⟩).countP (Report.isOn .notRvalue p) =
      ((List.range ps.length).flatMap fun i =>
        (Occurrence.part ⟨q, .node h l ps⟩ i).valueReports).countP (Report.isOn .notRvalue p) := by
  obtain ⟨hlen, hsingle⟩ := h.kind.slots_of_wantsValues hwants
  have hrule : m.table.routineFor (.node h l ps) =
      some (if h.kind = .splat then .splat else .binary) := m.routine?_of_wantsValues h.kind hwants
  rw [length_of_fills hfilled hsingle, hlen, reports, hrule]
  by_cases hsplat : h.kind = .splat
  · -- what a splat reports on its parent has another code
    cases parent with
    | none => simp [hsplat, Rule.reports, Rule.splatReports, List.range_succ]
    | some o =>
      by_cases hrefuses : Rule.refusesSplat o.tree = true
      · simp [hsplat, Rule.reports, Rule.splatReports, List.range_succ, hrefuses, Report.isOn]
      · simp [hsplat, Rule.reports, Rule.splatReports, List.range_succ, hrefuses]
  · simp [hsplat, Rule.reports, Rule.binaryReports, List.range_succ]

namespace Tree

/-- What a node reports as no value is used by that node, which wants values. -/
theorem user?_of_notRvalue (hq : q ∈ root.positions) {r : Report}
    (hr : r ∈ m.reports (root.parentAt q) (root.occurrenceAt q)) (hcode : r.code = .notRvalue) :
    (∃ h l ps, root.at? q = some (node h l ps) ∧ h.kind.wantsValues = true) ∧
      root.user? r.site.position = some q ∧ root.at? r.site.position = some r.site.tree ∧
      ∃ h l ps, r.site.tree = node h l ps ∧ h.kind.isNoValue = true := by
  obtain ⟨h, l, ps, hat⟩ := (mem_positions_iff root q).mp hq
  rw [occurrenceAt_of_at? hat] at hr
  obtain ⟨⟨k, hk, hwants⟩, i, hi⟩ := Mode.exists_part_of_notRvalue hr hcode
  cases hk
  obtain ⟨u, hu, hru⟩ := Occurrence.exists_of_mem_valueReports hi
  have hreached := reachedFrom_of_mem_valueReports u (q ++ [i]) ((at?_snoc hat i).trans hu) r hru
  have hunary : root.isUnaryAt q = false := by
    rw [isUnaryAt_of_at? hat, isA_node]
    exact h.kind.not_isUnary_of_wantsValues hwants
  refine ⟨⟨h, l, ps, hat, hwants⟩, ?_, hreached.stands, hreached.noValue⟩
  rw [hreached.user, user?_snoc, hunary]
  rfl

/-- Of the parts of a node that wants values only the one that a place is in is reported for that
place. -/
theorem countP_notRvalue_of_prefix {parent : Option Occurrence} {u : Tree} {i : Nat}
    (hfilled : (node h l ps).Filled) (hwants : h.kind.wantsValues = true)
    (hat : root.at? q = some (node h l ps)) (hu : ps[i]? = some u) (hi : q ++ [i] <+: p) :
    (m.reports parent ⟨q, node h l ps⟩).countP (Report.isOn .notRvalue p) =
      (u.valueReports (q ++ [i])).countP (Report.isOn .notRvalue p) := by
  have hpart : (Occurrence.part ⟨q, node h l ps⟩ i).valueReports = u.valueReports (q ++ [i]) :=
    Occurrence.valueReports_part hu
  rw [Mode.countP_notRvalue hfilled hwants,
    countP_flatMap_of_unique (a := i) List.nodup_range, hpart]
  · obtain ⟨hlt, -⟩ := List.getElem?_eq_some_iff.mp hu
    exact List.mem_range.mpr hlt
  · intro j _ r hr hon
    obtain ⟨-, rfl⟩ := Report.isOn_iff.mp hon
    obtain ⟨v, hv, hr⟩ := Occurrence.exists_of_mem_valueReports hr
    have hreached := reachedFrom_of_mem_valueReports v (q ++ [j]) ((at?_snoc hat j).trans hv) r hr
    exact eq_of_prefix_of_prefix hreached.below hi

/-- A non-value that has to be a value is reported once. -/
theorem countP_notRvalue_of_wantsValueAt (hfilled : ∀ u ∈ root.nodes, u.Filled)
    (hat : root.at? p = some (node h l ps)) (hno : h.kind.isNoValue = true)
    (hwants : root.WantsValueAt p) :
    (root.reports m).countP (Report.isOn .notRvalue p) = 1 := by
  obtain ⟨q, h', l', ps', huser, hatq, hkind⟩ := hwants
  have hq : q ∈ root.positions := (mem_positions_iff root q).mpr ⟨h', l', ps', hatq⟩
  -- the way up from the non-value leads to its user, and back from there to it
  obtain ⟨user, i, u, huserAt, hu, hreports⟩ := valueReports_of_user? hfilled hat huser
  obtain rfl : node h' l' ps' = user := Option.some.inj (hatq.symm.trans huserAt)
  rw [valueReports_of_isNoValue hno] at hreports
  have hi : q ++ [i] <+: p := by
    have hreached := reachedFrom_of_mem_valueReports u (q ++ [i]) ((at?_snoc hatq i).trans hu)
      ⟨.notRvalue, ⟨p, node h l ps⟩, [("value", (node h l ps).aAnCapitalized)]⟩ (by simp [hreports])
    exact hreached.below
  -- no other node reports on it, since it has one user only
  have hother : ∀ q' ∈ root.positions,
      ∀ r ∈ m.reports (root.parentAt q') (root.occurrenceAt q'),
        r.isOn .notRvalue p = true → q' = q := by
    intro q' hq' r hr hon
    obtain ⟨hcode, rfl⟩ := Report.isOn_iff.mp hon
    obtain ⟨-, huser', -⟩ := user?_of_notRvalue hq' hr hcode
    exact Option.some.inj (huser'.symm.trans huser)
  rw [countP_reports_eq hq hother, occurrenceAt_of_at? hatq,
    countP_notRvalue_of_prefix (hfilled _ (mem_nodes_of_at? hatq)) hkind hatq hu hi, hreports]
  simp [Report.isOn]

/-- What does not have to be a value is not reported as none. -/
theorem countP_notRvalue_of_not_wantsValueAt (hnot : ¬ root.WantsValueAt p) :
    (root.reports m).countP (Report.isOn .notRvalue p) = 0 := by
  rw [List.countP_eq_zero]
  intro r hr hon
  obtain ⟨hcode, rfl⟩ := Report.isOn_iff.mp hon
  obtain ⟨q, hq, hr⟩ := List.mem_flatMap.mp hr
  obtain ⟨⟨h, l, ps, hat, hwants⟩, huser, -⟩ := user?_of_notRvalue hq hr hcode
  exact hnot ⟨q, h, l, ps, huser, hat, hwants⟩

end Tree

end

/-- Non-values are reported exactly where values are wanted, and once. On a tree whose nodes are
filled, as those of well-typed trees are, a pass returns, and a definition or a collector that
stands in the tree has one issue of that code if the first ancestor that is no unary expression is a
splat or a binary expression but an assignment, and none otherwise. All issues of that code are
about definitions and collectors, at their locations. -/
theorem Checker.notRvalue_exact (c : Checker) {root : Tree}
    (hfilled : ∀ u ∈ root.nodes, u.Filled) : ∃ c', c.validate root = .ok c' ∧
      (∀ p h l ps, root.at? p = some (.node h l ps) →
        (h.kind.isDefinition = true ∨ h.kind = .collector) →
        (root.WantsValueAt p → c'.issues.countP (Diagnostic.isOn .notRvalue p) = 1) ∧
        (¬ root.WantsValueAt p → c'.issues.countP (Diagnostic.isOn .notRvalue p) = 0)) ∧
      ∀ d ∈ c'.issues, d.code = some .notRvalue →
        ∃ p h l ps, d.site = some p ∧ root.at? p = some (.node h l ps) ∧
          d.span = Span.ofLocation l c.file ∧
          (h.kind.isDefinition = true ∨ h.kind = .collector) := by
  have hno : ∀ k : Kind, k.isNoValue = true ↔ k.isDefinition = true ∨ k = .collector := by
    intro k
    simp [Kind.isNoValue]
  refine ⟨_, c.validate_eq_ok root, ?_, ?_⟩
  · intro p h l ps hat hkind
    have hdemotable : Code.notRvalue.isDemotable = false := rfl
    simp only [Checker.issues, Report.countP_issues hdemotable]
    exact ⟨root.countP_notRvalue_of_wantsValueAt hfilled hat ((hno _).mpr hkind),
      root.countP_notRvalue_of_not_wantsValueAt⟩
  · intro d hd hcode
    obtain ⟨r, hr, rfl⟩ := List.mem_map.mp hd
    obtain ⟨q, hq, hr⟩ := List.mem_flatMap.mp (List.mem_filter.mp hr).1
    obtain ⟨-, -, hat, h, l, ps, htree, hkind⟩ :=
      Tree.user?_of_notRvalue hq hr (Option.some.inj hcode)
    refine ⟨_, h, l, ps, rfl, by rw [hat, htree], ?_, (hno _).mp hkind⟩
    rw [Report.diagnostic, htree, Tree.location_node]

/-- A type alias in parentheses, compared with nothing. -/
def Tree.comparedAlias : Tree :=
  .node (.comparison "==") .unknown
    [.node .parenthesized .unknown
      [.node (.typeAlias "T") .unknown [.node .undef .unknown []]],
    .node .undef .unknown []]

/-- The comparison uses the alias in the parentheses. -/
theorem Checker.notRvalue_exact_compared :
    (∀ u ∈ Tree.comparedAlias.nodes, u.Filled) ∧ Tree.comparedAlias.WantsValueAt [0, 0] ∧
      ∃ c', (Checker.new .manifest .warning none).validate Tree.comparedAlias = .ok c' ∧
        c'.issues.countP (Diagnostic.isOn .notRvalue [0, 0]) = 1 := by
  have hholds : ∀ (h : Head) (l : Location) (ps : List Tree),
      Slot.Holds ⟨false, false, none⟩ (.node h l ps) := fun _ _ _ => .inr ⟨rfl, nofun⟩
  have hfilled : ∀ u ∈ Tree.comparedAlias.nodes, u.Filled := by
    simp only [Tree.comparedAlias, Tree.forall_nodes_node_iff, List.forall_mem_cons]
    exact ⟨.single rfl (hholds _ _ _) (.single rfl (hholds _ _ _) .nil),
      ⟨.single rfl (hholds _ _ _) .nil, ⟨.single rfl (hholds _ _ _) .nil,
        ⟨.nil, List.forall_mem_nil _⟩, List.forall_mem_nil _⟩, List.forall_mem_nil _⟩,
      ⟨.nil, List.forall_mem_nil _⟩, List.forall_mem_nil _⟩
  have hwants : Tree.comparedAlias.WantsValueAt [0, 0] :=
    ⟨[], _, _, _, rfl, rfl, rfl⟩
  obtain ⟨c', hc', hcount, -⟩ := notRvalue_exact (Checker.new .manifest .warning none) hfilled
  exact ⟨hfilled, hwants, c', hc', (hcount [0, 0] _ _ _ rfl (.inl rfl)).1 hwants⟩

end ManifestLint
