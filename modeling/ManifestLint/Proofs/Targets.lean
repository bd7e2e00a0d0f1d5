/-
ManifestLint.Proofs.Targets — what may not be assigned to.

An assignment with `=` assigns to its left-hand side, and if that is an array to its elements,
however deep arrays stand in arrays. The rule goes down from the assignment. Here the same is said
upwards: climbing from a target over the arrays that it is an element of leads to the left-hand side
of an assignment (`Tree.TargetOf`), which is one assignment only.

The main statements: the names that are reserved are the decimal numerals of the natural numbers
(`isNumeral_iff`), and the names of other namespaces are those with two colons
(`hasDoubleColon_iff`); going down leads to targets that are refused
(`targetedFrom_of_mem_targetReports`), and what a target has reported is all that its assignment
reports there (`countP_targetReports_of_elementOf`); so every issue of an assignment is exactly
where it belongs (`targets_exact`).
-/
import ManifestLint.Proofs.Counting

namespace ManifestLint

/-! ## 1. Names -/

/-- The digits are those of the numbers below ten. -/
theorem CodePoint.isDigit_iff {p : CodePoint} :
    p.isDigit = true ↔ ∃ d < 10, p = ofChar d.digitChar := by
  simp only [isDigit, Bool.and_eq_true, decide_eq_true_eq]
  constructor
  · rintro ⟨hlow, hhigh⟩
    refine ⟨p.val - 0x30, by omega, Fin.ext ?_⟩
    rw [val_ofChar, Nat.toNat_digitChar_of_lt_ten (by omega)]
    omega
  · rintro ⟨d, hd, rfl⟩
    rw [val_ofChar, Nat.toNat_digitChar_of_lt_ten hd]
    omega

namespace Text

theorem ofString_repr (n : Nat) : ofString n.repr = ofChars (Nat.toDigits 10 n) := by
  rw [ofString, Nat.toList_repr]

theorem ofString_repr_of_lt {d : Nat} (hd : d < 10) :
    ofString d.repr = [CodePoint.ofChar d.digitChar] := by
  rw [ofString_repr, Nat.toDigits_of_lt_base hd]
  rfl

/-- A digit more at the end of a numeral. -/
theorem ofString_repr_append {n d : Nat} (hn : 0 < n) (hd : d < 10) :
    ofString (10 * n + d).repr = ofString n.repr ++ [CodePoint.ofChar d.digitChar] := by
  rw [ofString_repr, ofString_repr, ← Nat.toDigits_append_toDigits (by decide) hn hd,
    ofChars_append, Nat.toDigits_of_lt_base hd]
  rfl

theorem isNumeral_cons_iff {p : CodePoint} {ps : Text} : isNumeral (p :: ps) = true ↔
    p.isDigit = true ∧ (∀ q ∈ ps, q.isDigit = true) ∧ (p ≠ CodePoint.ofChar '0' ∨ ps = []) := by
  simp [isNumeral, and_assoc]

/-- The numeral of a positive number starts with another digit than zero. -/
theorem exists_leading_digit (n : Nat) (hn : 0 < n) : ∃ p ps, ofString n.repr = p :: ps ∧
    p.isDigit = true ∧ p ≠ CodePoint.ofChar '0' ∧ ∀ q ∈ ps, q.isDigit = true := by
  induction n using Nat.strongRecOn with
  | ind n ih =>
    have hd : n % 10 < 10 := Nat.mod_lt n (by decide)
    rcases Nat.lt_or_ge n 10 with hlt | hge
    · refine ⟨_, [], ofString_repr_of_lt hlt, CodePoint.isDigit_iff.mpr ⟨n, hlt, rfl⟩, ?_, nofun⟩
      intro hzero
      have hval : (CodePoint.ofChar n.digitChar).val = 48 := congrArg Fin.val hzero
      rw [CodePoint.val_ofChar, Nat.toNat_digitChar_of_lt_ten hlt] at hval
      omega
    · have htens : 0 < n / 10 := by omega
      obtain ⟨p, ps, heq, hp, hne, hps⟩ := ih (n / 10) (by omega) htens
      refine ⟨p, ps ++ [CodePoint.ofChar (n % 10).digitChar], ?_, hp, hne, ?_⟩
      · rw [← List.cons_append, ← heq, ← ofString_repr_append htens hd, Nat.div_add_mod]
      · rw [List.forall_mem_append, List.forall_mem_singleton]
        exact ⟨hps, CodePoint.isDigit_iff.mpr ⟨_, hd, rfl⟩⟩

/-- A numeral of a positive number stays one with more digits. -/
theorem exists_of_digits {n : Nat} (hn : 0 < n) {ps : Text} (hps : ∀ q ∈ ps, q.isDigit = true) :
    ∃ k : Nat, ofString n.repr ++ ps = ofString k.repr := by
  induction ps generalizing n with
  | nil => exact ⟨n, List.append_nil _⟩
  | cons p ps ih =>
    obtain ⟨hp, htail⟩ := List.forall_mem_cons.mp hps
    obtain ⟨d, hd, rfl⟩ := CodePoint.isDigit_iff.mp hp
    have hpos : 0 < 10 * n + d := by omega
    obtain ⟨k, hk⟩ := ih hpos htail
    refine ⟨k, ?_⟩
    rw [← hk, ofString_repr_append hn hd, List.append_assoc]
    rfl

/-- The reserved names are the decimal numerals of the natural numbers. -/
theorem isNumeral_iff {t : Text} : t.isNumeral = true ↔ ∃ n : Nat, t = ofString n.repr := by
  constructor
  · intro h
    cases t with
    | nil => cases h
    | cons p ps =>
      obtain ⟨hp, hps, hleading⟩ := isNumeral_cons_iff.mp h
      obtain ⟨d, hd, rfl⟩ := CodePoint.isDigit_iff.mp hp
      rcases hleading with hne | rfl
      · have hpos : 0 < d := by
          refine Nat.pos_of_ne_zero ?_
          rintro rfl
          exact hne rfl
        obtain ⟨k, hk⟩ := exists_of_digits hpos hps
        rw [ofString_repr_of_lt hd] at hk
        exact ⟨k, hk⟩
      · exact ⟨d, (ofString_repr_of_lt hd).symm⟩
  · rintro ⟨n, rfl⟩
    rcases Nat.eq_zero_or_pos n with rfl | hn
    · rfl
    · obtain ⟨p, ps, heq, hp, hne, hps⟩ := exists_leading_digit n hn
      rw [heq]
      exact isNumeral_cons_iff.mpr ⟨hp, hps, .inl hne⟩

/-- The names of other namespaces have two colons side by side. -/
theorem hasDoubleColon_iff {t : Text} : t.hasDoubleColon = true ↔ ofString "::" <:+: t := by
  show t.hasDoubleColon = true ↔ [CodePoint.ofChar ':', CodePoint.ofChar ':'] <:+: t
  induction t with
  | nil => simp [hasDoubleColon]
  | cons p ps ih =>
    cases ps with
    | nil => simp [hasDoubleColon, List.infix_cons_iff]
    | cons q ps =>
      rw [List.infix_cons_iff, ← ih, List.cons_prefix_cons, List.cons_prefix_cons, hasDoubleColon,
        Bool.or_eq_true, Bool.and_eq_true, decide_eq_true_eq, decide_eq_true_eq, @eq_comm _ p,
        @eq_comm _ q]
      simp

/-- No name is both. -/
theorem not_hasDoubleColon_of_isNumeral {t : Text} (h : t.isNumeral = true) :
    t.hasDoubleColon = false := by
  rw [← Bool.not_eq_true, hasDoubleColon_iff]
  intro hinfix
  have hcolon : CodePoint.ofChar ':' ∈ t := hinfix.subset List.mem_cons_self
  have hdigits : ∀ p ∈ t, p.isDigit = true := by
    cases t with
    | nil => nofun
    | cons p ps =>
      obtain ⟨hp, hps, -⟩ := isNumeral_cons_iff.mp h
      exact List.forall_mem_cons.mpr ⟨hp, hps⟩
  exact absurd (hdigits _ hcolon) (by decide)

end Text

/-! ## 2. Targets -/

namespace Tree

/-- Climbing from a place over arrays that it is an element of, none or more, leads to `q`. -/
inductive ElementOf (root : Tree) (q : Position) : Position → Prop where
  | self : ElementOf root q q
  | element {p : Position} (hp : ElementOf root q p) (harray : root.headAt? p = some .array)
      (i : Nat) : ElementOf root q (p ++ [i])

/-- The place is a target of the assignment at `q`: climbing from it over arrays leads to the
left-hand side, and the operator assigns. -/
def TargetOf (root : Tree) (q p : Position) : Prop :=
  root.headAt? q = some (.assignment "=") ∧ root.ElementOf (q ++ [0]) p

/-- The place is a target of some assignment. -/
def IsTarget (root : Tree) (p : Position) : Prop := ∃ q, root.TargetOf q p

namespace ElementOf

variable {root : Tree} {q q' p : Position} {i : Nat}

theorem trans {x : Position} (h : root.ElementOf q p) (h' : root.ElementOf p x) :
    root.ElementOf q x := by
  induction h' with
  | self => exact h
  | element _ harray i ih => exact .element ih harray i

/-- Climbing leads towards the root. -/
theorem isPrefix (h : root.ElementOf q p) : q <+: p := by
  induction h with
  | self => exact List.prefix_rfl
  | element _ _ i ih => exact ih.trans (List.prefix_append _ [i])

/-- Climbing ends at once, or goes on from the parent, which is an array. -/
theorem eq_or_array (h : root.ElementOf q (p ++ [i])) :
    q = p ++ [i] ∨ root.ElementOf q p ∧ root.headAt? p = some .array := by
  generalize hx : p ++ [i] = x at h
  cases h with
  | self => exact .inl rfl
  | element hp harray j =>
    obtain ⟨rfl, -⟩ := List.append_inj' hx rfl
    exact .inr ⟨hp, harray⟩

/-- Climbing leads to the left-hand side of one assignment at most, since an assignment is no
array. -/
theorem unique {op op' : Text} (hq : root.headAt? q = some (.assignment op))
    (hq' : root.headAt? q' = some (.assignment op')) (h : root.ElementOf (q ++ [0]) p)
    (h' : root.ElementOf (q' ++ [0]) p) : q = q' := by
  induction h with
  | self =>
    rcases h'.eq_or_array with heq | ⟨-, harray⟩
    · exact (List.append_inj' heq rfl).1.symm
    · rw [hq] at harray
      cases harray
  | element _ harray i ih =>
    rcases h'.eq_or_array with heq | ⟨h', -⟩
    · obtain ⟨rfl, -⟩ := List.append_inj' heq rfl
      rw [hq'] at harray
      cases harray
    · exact ih h'

end ElementOf

end Tree

/-- Holds of the heads that a target may not have, by the code that they are reported with. -/
def Head.refusesAssignment : Head → Code → Bool
  | .access, .illegalAssignmentViaIndex => true
  | .var t, .illegalNumericAssignment => t.isNumeral
  | .var t, .crossScopeAssignment => t.hasDoubleColon
  | _, _ => false

theorem Head.refusesAssignment_index_iff {h : Head} :
    h.refusesAssignment .illegalAssignmentViaIndex = true ↔ h = .access := by
  cases h <;> simp [refusesAssignment]

theorem Head.refusesAssignment_numeral_iff {h : Head} :
    h.refusesAssignment .illegalNumericAssignment = true ↔ ∃ n : Nat, h = .var n.repr := by
  cases h <;> simp [refusesAssignment, Text.isNumeral_iff]

theorem Head.refusesAssignment_scope_iff {h : Head} :
    h.refusesAssignment .crossScopeAssignment = true ↔
      ∃ name, h = .var name ∧ Text.ofString "::" <:+: name := by
  cases h <;> simp [refusesAssignment, Text.hasDoubleColon_iff]

/-- A target is refused for one reason at most. -/
theorem Head.eq_of_refusesAssignment {h : Head} {code code' : Code}
    (hc : h.refusesAssignment code = true) (hc' : h.refusesAssignment code' = true) :
    code = code' := by
  unfold refusesAssignment at hc hc'
  split at hc <;> split at hc' <;> simp_all [Text.not_hasDoubleColon_of_isNumeral]

/-- The place is a target, and refused with the code. -/
def Tree.RefusedAt (root : Tree) (code : Code) (p : Position) : Prop :=
  root.IsTarget p ∧ ∃ h, root.headAt? p = some h ∧ h.refusesAssignment code = true

theorem Tree.RefusedAt.unique {root : Tree} {code code' : Code} {p : Position}
    (h : root.RefusedAt code p) (h' : root.RefusedAt code' p) : code = code' := by
  obtain ⟨-, head, hp, hrefused⟩ := h
  obtain ⟨-, head', hp', hrefused'⟩ := h'
  obtain rfl : head = head' := Option.some.inj (hp.symm.trans hp')
  exact Head.eq_of_refusesAssignment hrefused hrefused'

/-! ## 3. The way down -/

/-- Going down from `q` over arrays, the report has come to what stands where the report says, and
that is refused as a target. -/
structure Report.TargetedFrom (root : Tree) (q : Position) (r : Report) : Prop where
  element : root.ElementOf q r.site.position
  stands : root.at? r.site.position = some r.site.tree
  refused : ∃ h l ps, r.site.tree = .node h l ps ∧ h.refusesAssignment r.code = true

namespace Tree

variable {root : Tree}

/-- A variable is refused for its name. -/
theorem refused_of_mem_variableTargetReports {site : Occurrence} {name : Text} {r : Report}
    (hr : r ∈ variableTargetReports site name) :
    r.site = site ∧ (Head.var name).refusesAssignment r.code = true := by
  simp only [variableTargetReports, List.mem_append] at hr
  rcases hr with hr | hr
  · split at hr
    · rename_i hname
      obtain rfl := List.mem_singleton.mp hr
      exact ⟨rfl, hname⟩
    · simp at hr
  · split at hr
    · rename_i hname
      obtain rfl := List.mem_singleton.mp hr
      exact ⟨rfl, hname⟩
    · simp at hr

mutual

/-- The way down leads to targets that are refused. -/
theorem targetedFrom_of_mem_targetReports :
    ∀ (t : Tree) (p : Position), root.at? p = some t → ∀ r ∈ t.targetReports p,
      r.TargetedFrom root p
  | node h l ps, p, hat, r, hr => by
    unfold targetReports at hr
    split at hr
    · rename_i heq
      cases heq
      obtain ⟨hsite, hrefused⟩ := refused_of_mem_variableTargetReports hr
      constructor
      case element => rw [hsite]; exact .self
      case stands => rw [hsite]; exact hat
      case refused => rw [hsite]; exact ⟨_, _, _, rfl, hrefused⟩
    · rename_i heq
      cases heq
      obtain rfl := List.mem_singleton.mp hr
      exact ⟨.self, hat, _, _, _, rfl, rfl⟩
    · rename_i ps' heq
      cases heq
      refine targetedFrom_of_mem_elementTargetReports ps p 0 (headAt?_of_at? hat) ?_ r hr
      intro j
      rw [Nat.zero_add]
      exact at?_snoc hat j
    · simp at hr
  | foreign _, _, _, r, hr => by simp [targetReports] at hr

theorem targetedFrom_of_mem_elementTargetReports :
    ∀ (ts : List Tree) (p : Position) (i : Nat), root.headAt? p = some .array →
      (∀ j, root.at? (p ++ [i + j]) = ts[j]?) → ∀ r ∈ elementTargetReports p i ts,
        r.TargetedFrom root p
  | [], _, _, _, _, r, hr => by simp [elementTargetReports] at hr
  | t :: ts, p, i, harray, hat, r, hr => by
    simp only [elementTargetReports, List.mem_append] at hr
    rcases hr with hr | hr
    · have htargeted := targetedFrom_of_mem_targetReports t (p ++ [i]) (hat 0) r hr
      have helement : root.ElementOf p (p ++ [i]) := .element .self harray i
      exact ⟨helement.trans htargeted.element, htargeted.stands, htargeted.refused⟩
    · refine targetedFrom_of_mem_elementTargetReports ts p (i + 1) harray ?_ r hr
      intro j
      rw [Nat.add_right_comm, Nat.add_assoc]
      exact hat (j + 1)

end

/-! ## 4. Targets one by one -/

/-- The elements of an array are reported one after another. -/
theorem elementTargetReports_eq (p : Position) (i : Nat) (ts : List Tree) :
    elementTargetReports p i ts =
      (List.range ts.length).flatMap fun j =>
        (ts[j]?.getD absent).targetReports (p ++ [i + j]) := by
  induction ts generalizing i with
  | nil => rfl
  | cons t ts ih =>
    have hshift : ∀ j, i + 1 + j = i + (j + 1) := by omega
    simp [elementTargetReports, ih, List.range_succ_eq_map, List.flatMap_map, hshift]

theorem targetReports_array (p : Position) (l : Location) (ps : List Tree) :
    (node .array l ps).targetReports p = (List.range ps.length).flatMap fun i =>
      (Occurrence.part ⟨p, node .array l ps⟩ i).targetReports := by
  simp [targetReports, elementTargetReports_eq, Occurrence.targetReports, Occurrence.part, part]

/-- A target that is refused is reported for that once. -/
theorem countP_targetReports_of_refused {h : Head} {l : Location} {ps : List Tree} {code : Code}
    {p : Position} (hrefused : h.refusesAssignment code = true) :
    ((node h l ps).targetReports p).countP (Report.isOn code p) = 1 := by
  unfold Head.refusesAssignment at hrefused
  split at hrefused
  · simp [targetReports, Report.isOn]
  · simp [targetReports, variableTargetReports, hrefused,
      Text.not_hasDoubleColon_of_isNumeral hrefused, Report.isOn]
  · rename_i name
    have hnumeral : name.isNumeral = false := by
      rw [← Bool.not_eq_true]
      intro hnumeral
      rw [Text.not_hasDoubleColon_of_isNumeral hnumeral] at hrefused
      cases hrefused
    simp [targetReports, variableTargetReports, hrefused, hnumeral, Report.isOn]
  · cases hrefused

end Tree

namespace Occurrence

variable {o : Occurrence} {i : Nat}

theorem targetReports_part {u : Tree} (hu : o.tree.parts[i]? = some u) :
    (o.part i).targetReports = u.targetReports (o.position ++ [i]) := by
  simp [targetReports, part, Tree.part, hu]

/-- A part that is reported as a target is there. -/
theorem exists_of_mem_targetReports {r : Report} (hr : r ∈ (o.part i).targetReports) :
    ∃ u : Tree, o.tree.parts[i]? = some u ∧ r ∈ u.targetReports (o.position ++ [i]) := by
  cases h : o.tree.parts[i]? with
  | none =>
    simp [targetReports, Occurrence.part, Tree.part, h, Tree.absent, Tree.targetReports] at hr
  | some u =>
    rw [targetReports_part h] at hr
    exact ⟨u, rfl, hr⟩

/-- What a part of a place reports as a target is reached from that part. -/
theorem targetedFrom_of_mem_part {root : Tree} (hat : root.at? o.position = some o.tree)
    {r : Report} (hr : r ∈ (o.part i).targetReports) :
    r.TargetedFrom root (o.position ++ [i]) := by
  obtain ⟨u, hu, hr⟩ := exists_of_mem_targetReports hr
  exact Tree.targetedFrom_of_mem_targetReports u _ ((Tree.at?_snoc hat i).trans hu) r hr

end Occurrence

/-- Of the elements of an array only the one that a place is in is reported for that place; so from
wherever climbing from it leads, a place is reported as often as from itself. -/
theorem Tree.countP_targetReports_of_elementOf {root t u : Tree} {q p x : Position} {code : Code}
    (h : root.ElementOf q p) (ht : root.at? q = some t) (hu : root.at? p = some u) (hx : p <+: x) :
    (t.targetReports q).countP (Report.isOn code x) =
      (u.targetReports p).countP (Report.isOn code x) := by
  induction h generalizing u with
  | self =>
    obtain rfl : t = u := Option.some.inj (ht.symm.trans hu)
    rfl
  | @element p _ harray i ih =>
    obtain ⟨l, ps, hat⟩ := headAt?_eq_some_iff.mp harray
    have hpart : ps[i]? = some u := by rw [← hu, at?_snoc hat, parts_node]
    have hreports : (Occurrence.part ⟨p, node .array l ps⟩ i).targetReports =
        u.targetReports (p ++ [i]) := Occurrence.targetReports_part hpart
    have hlt : i < ps.length := (List.getElem?_eq_some_iff.mp hpart).1
    rw [ih hat ((List.prefix_append p [i]).trans hx), targetReports_array,
      countP_flatMap_of_unique List.nodup_range (List.mem_range.mpr hlt), hreports]
    intro j _ r hr hon
    obtain ⟨-, rfl⟩ := Report.isOn_iff.mp hon
    have htargeted : r.TargetedFrom root (p ++ [j]) := Occurrence.targetedFrom_of_mem_part hat hr
    exact eq_of_prefix_of_prefix htargeted.element.isPrefix hx

/-! ## 5. Assignments -/

section

variable {m : Mode} {root : Tree} {p q : Position} {code : Code} {operator : Text}

theorem Mode.reports_assignment (m : Mode) (parent : Option Occurrence) (q : Position)
    (operator : Text) (l : Location) (ps : List Tree) :
    m.reports parent ⟨q, .node (.assignment operator) l ps⟩ =
      Rule.assignmentReports ⟨q, .node (.assignment operator) l ps⟩ operator :=
  reports_of_kind? .assignment rfl rfl (by decide)

namespace Tree

/-- What an assignment reports is a target of its own that is refused, if it has the operator that
assigns, and itself otherwise. -/
theorem exists_assignment_of_mem_reports (hq : q ∈ root.positions) {r : Report}
    (hr : r ∈ m.reports (root.parentAt q) (root.occurrenceAt q))
    (hcode : r.code.rule? = some .assignment) :
    (root.TargetOf q r.site.position ∧
        ∃ h, root.headAt? r.site.position = some h ∧ h.refusesAssignment r.code = true) ∨
      (∃ operator, root.headAt? q = some (.assignment operator) ∧ operator ≠ Text.ofString "=") ∧
        r.site.position = q ∧ r.code = .appendsDeletesNoLongerSupported := by
  obtain ⟨h, l, ps, hat⟩ := (mem_positions_iff root q).mp hq
  rw [occurrenceAt_of_at? hat] at hr
  obtain ⟨hk, -⟩ := Mode.mem_rule_reports hr rfl hcode rfl
  cases h
  case assignment operator =>
    have hhead := headAt?_of_at? hat
    rw [Mode.reports_assignment, Rule.assignmentReports] at hr
    split at hr
    · rename_i hassigns
      have htargeted : r.TargetedFrom root (q ++ [0]) :=
        Occurrence.targetedFrom_of_mem_part hat hr
      obtain ⟨h, l, ps, htree, hrefused⟩ := htargeted.refused
      have hsite := headAt?_of_at? htargeted.stands
      rw [htree, head?_node] at hsite
      rw [hassigns] at hhead
      exact .inl ⟨⟨hhead, htargeted.element⟩, h, hsite, hrefused⟩
    · rename_i hne
      obtain rfl := List.mem_singleton.mp hr
      exact .inr ⟨⟨operator, hhead, hne⟩, rfl, rfl⟩
  all_goals cases hk

/-- A target that is refused is reported by its assignment once. -/
theorem countP_reports_of_targetOf (htarget : root.TargetOf q p) {h : Head}
    (hp : root.headAt? p = some h) (hrefused : h.refusesAssignment code = true) :
    (m.reports (root.parentAt q) (root.occurrenceAt q)).countP (Report.isOn code p) = 1 := by
  obtain ⟨hq, helement⟩ := htarget
  obtain ⟨l, ps, hat⟩ := headAt?_eq_some_iff.mp hq
  obtain ⟨l', ps', hatp⟩ := headAt?_eq_some_iff.mp hp
  -- something stands on the left of the assignment, for the way down to the target leads there
  obtain ⟨x, hx⟩ := helement.isPrefix
  rw [← hx, at?_append] at hatp
  obtain ⟨u, hu, hbelow⟩ := Option.bind_eq_some_iff.mp hatp
  have hpart : (node (.assignment "=") l ps).parts[0]? = some u := by rw [← at?_snoc hat, hu]
  have hstands : root.at? p = some (node h l' ps') := by
    rw [← hx, at?_append, hu, Option.bind_some, hbelow]
  rw [occurrenceAt_of_at? hat, Mode.reports_assignment, Rule.assignmentReports, if_pos rfl,
    Occurrence.targetReports_part hpart,
    countP_targetReports_of_elementOf helement hu hstands List.prefix_rfl,
    countP_targetReports_of_refused hrefused]

/-- The codes that targets are refused with are reported exactly on the targets that are. -/
theorem exactlyOn_refused (m : Mode) (root : Tree) (hcode : code.rule? = some .assignment)
    (hne : code ≠ .appendsDeletesNoLongerSupported) (s : Strictness) (file : Option Text) :
    Diagnostic.ExactlyOn code (root.RefusedAt code) (Report.issues s file (root.reports m)) := by
  have hdemotable : code.isDemotable = false := by
    cases code <;> first | rfl | cases hcode
  refine exactlyOn_issues root.TargetOf hdemotable s file ?unique ?once ?only
  case unique =>
    intro q q' p h h'
    exact ElementOf.unique h.1 h'.1 h.2 h'.2
  case once =>
    rintro p ⟨⟨q, htarget⟩, h, hp, hrefused⟩
    exact ⟨q, mem_positions_of_headAt? htarget.1, htarget,
      countP_reports_of_targetOf htarget hp hrefused⟩
  case only =>
    rintro q hq r hr rfl
    rcases exists_assignment_of_mem_reports hq hr hcode with ⟨htarget, hrefused⟩ | ⟨-, -, happends⟩
    · exact ⟨htarget, ⟨q, htarget⟩, hrefused⟩
    · exact absurd happends hne

/-- The operators that do not assign are reported exactly on their assignments. -/
theorem exactlyOn_appends (m : Mode) (root : Tree) (s : Strictness) (file : Option Text) :
    Diagnostic.ExactlyOn .appendsDeletesNoLongerSupported (fun p => ∃ operator,
        root.headAt? p = some (.assignment operator) ∧ operator ≠ Text.ofString "=")
      (Report.issues s file (root.reports m)) := by
  refine exactlyOn_issues_of_self rfl s file ?once ?only
  case once =>
    rintro p ⟨operator, hp, hne⟩
    obtain ⟨l, ps, hat⟩ := headAt?_eq_some_iff.mp hp
    refine ⟨mem_positions_of_headAt? hp, ?_⟩
    rw [occurrenceAt_of_at? hat, Mode.reports_assignment, Rule.assignmentReports, if_neg hne]
    simp [Report.isOn]
  case only =>
    intro q hq r hr hcode
    have hrule : r.code.rule? = some .assignment := by rw [hcode]; rfl
    rcases exists_assignment_of_mem_reports hq hr hrule with
      ⟨-, h, -, hrefused⟩ | ⟨happends, rfl, -⟩
    · rw [hcode] at hrefused
      cases h <;> cases hrefused
    · exact ⟨rfl, happends⟩

/-- What makes targets of the left-hand side of an assignment is the operator. -/
theorem not_isTarget_of_elementOf (hq : root.headAt? q = some (.assignment operator))
    (hne : operator ≠ Text.ofString "=") (h : root.ElementOf (q ++ [0]) p) : ¬ root.IsTarget p := by
  rintro ⟨q', hq', h'⟩
  obtain rfl := ElementOf.unique hq hq' h h'
  rw [hq] at hq'
  cases hq'
  exact hne rfl

end Tree

end

/-- Issues of assignments are exact. A place is a target if climbing from it over arrays leads to
the left-hand side of an assignment with `=`. Of the targets, each index access has one issue of its
own code, each variable with a decimal numeral for its name another, and each variable with two
colons in its name a third; these codes are on no other places, and on no place twice. An assignment
with another operator has one issue for that, which no other node has, and makes nothing a
target. -/
theorem Checker.targets_exact (c : Checker) (root : Tree) : ∃ c', c.validate root = .ok c' ∧
    Diagnostic.ExactlyOn .illegalAssignmentViaIndex
      (fun p => root.IsTarget p ∧ root.headAt? p = some .access) c'.issues ∧
    Diagnostic.ExactlyOn .illegalNumericAssignment
      (fun p => root.IsTarget p ∧ ∃ n : Nat, root.headAt? p = some (.var n.repr)) c'.issues ∧
    Diagnostic.ExactlyOn .crossScopeAssignment
      (fun p => root.IsTarget p ∧
        ∃ name, root.headAt? p = some (.var name) ∧ Text.ofString "::" <:+: name) c'.issues ∧
    (∀ p, c'.issues.countP (Diagnostic.isOn .illegalAssignmentViaIndex p) +
      c'.issues.countP (Diagnostic.isOn .illegalNumericAssignment p) +
      c'.issues.countP (Diagnostic.isOn .crossScopeAssignment p) ≤ 1) ∧
    Diagnostic.ExactlyOn .appendsDeletesNoLongerSupported
      (fun p => ∃ operator, root.headAt? p = some (.assignment operator) ∧
        operator ≠ Text.ofString "=") c'.issues ∧
    ∀ q operator, root.headAt? q = some (.assignment operator) → operator ≠ Text.ofString "=" →
      ∀ p, root.ElementOf (q ++ [0]) p → ¬ root.IsTarget p := by
  have hindex : Diagnostic.ExactlyOn .illegalAssignmentViaIndex _ _ :=
    Tree.exactlyOn_refused c.mode root rfl (by decide) c.strictness c.file
  have hnumeral : Diagnostic.ExactlyOn .illegalNumericAssignment _ _ :=
    Tree.exactlyOn_refused c.mode root rfl (by decide) c.strictness c.file
  have hscope : Diagnostic.ExactlyOn .crossScopeAssignment _ _ :=
    Tree.exactlyOn_refused c.mode root rfl (by decide) c.strictness c.file
  refine ⟨_, c.validate_eq_ok root, hindex.congr ?index, hnumeral.congr ?numeral,
    hscope.congr ?scope, ?distinct, Tree.exactlyOn_appends c.mode root c.strictness c.file,
    fun q operator hq hne p => Tree.not_isTarget_of_elementOf hq hne⟩
  case index =>
    intro p
    simp [Tree.RefusedAt, Head.refusesAssignment_index_iff]
  case numeral =>
    intro p
    simp [Tree.RefusedAt, Head.refusesAssignment_numeral_iff]
  case scope =>
    intro p
    simp [Tree.RefusedAt, Head.refusesAssignment_scope_iff]
  case distinct =>
    intro p
    have hunique : ∀ {code code' : Code}, code ≠ code' → root.RefusedAt code p →
        ¬ root.RefusedAt code' p := fun hne h h' => hne (h.unique h')
    have hin := hindex.countP_add_le_one hnumeral (hunique (by decide))
    have his := hindex.countP_add_le_one hscope (hunique (by decide))
    have hns := hnumeral.countP_add_le_one hscope (hunique (by decide))
    simp only [Checker.issues]
    omega

end ManifestLint
