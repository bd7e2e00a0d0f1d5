/-
ManifestLint.Proofs.Counting — issues counted by what they are about.

How often a code is reported on a place is a matter of the whole pass: the rules of many nodes may
have something to say about it. If the rule of one node alone has, its reports are all there are
(`countP_reports_eq`); and a report whose severity strictness leaves alone is one issue
(`countP_issues`).

The main statement: if every place that a code is for is reported by one node, once, and no other
place by any, the issues with that code are exactly on those places (`exactlyOn_issues`).
-/
import ManifestLint.Proofs.Pass
import Mathlib.Algebra.BigOperators.Group.List.Basic
import Mathlib.Data.List.Nodup

namespace ManifestLint

/-- Holds of the issues with a code that are about what stands at a position. -/
def Diagnostic.isOn (code : Code) (p : Position) (d : Diagnostic) : Bool :=
  d.code = some code && d.site = some p

/-- The issues with a code are about the places that `P` holds of, about each of them once, and
about nothing else. -/
structure Diagnostic.ExactlyOn (code : Code) (P : Position → Prop) (ds : List Diagnostic) :
    Prop where
  once : ∀ p, P p → ds.countP (isOn code p) = 1
  only : ∀ d ∈ ds, d.code = some code → ∃ p, d.site = some p ∧ P p

namespace Diagnostic.ExactlyOn

variable {code : Code} {P Q : Position → Prop} {ds ds' : List Diagnostic} {p q : Position}

/-- A place that has an issue with the code is one that it is for. -/
theorem of_countP_pos (h : ExactlyOn code P ds) (hp : 0 < ds.countP (isOn code p)) : P p := by
  obtain ⟨d, hd, hon⟩ := List.countP_pos_iff.mp hp
  simp only [isOn, Bool.and_eq_true, decide_eq_true_eq] at hon
  obtain ⟨q, hsite, hq⟩ := h.only d hd hon.1
  obtain rfl : q = p := Option.some.inj (hsite.symm.trans hon.2)
  exact hq

/-- A place that the code is not for has no issue with it. -/
theorem countP_eq_zero (h : ExactlyOn code P ds) (hp : ¬ P p) : ds.countP (isOn code p) = 0 :=
  Nat.eq_zero_of_not_pos fun hpos => hp (h.of_countP_pos hpos)

/-- No place has two issues with the code. -/
theorem countP_le_one (h : ExactlyOn code P ds) (p : Position) : ds.countP (isOn code p) ≤ 1 := by
  by_cases hp : P p
  · exact Nat.le_of_eq (h.once p hp)
  · rw [h.countP_eq_zero hp]
    exact Nat.zero_le 1

/-- Two codes that are for different places are together on no place twice. -/
theorem countP_add_le_one {code' : Code} (h : ExactlyOn code P ds) (h' : ExactlyOn code' Q ds')
    (hPQ : P p → ¬ Q p) : ds.countP (isOn code p) + ds'.countP (isOn code' p) ≤ 1 := by
  by_cases hp : P p
  · have hone := h.once p hp
    have hzero := h'.countP_eq_zero (hPQ hp)
    omega
  · rw [h.countP_eq_zero hp, Nat.zero_add]
    exact h'.countP_le_one p

/-- Two places are treated alike if the code is for both or for neither. -/
theorem countP_eq_of_iff (h : ExactlyOn code P ds) (h' : ExactlyOn code Q ds') (hpq : P p ↔ Q q) :
    ds.countP (isOn code p) = ds'.countP (isOn code q) := by
  by_cases hp : P p
  · rw [h.once p hp, h'.once q (hpq.mp hp)]
  · rw [h.countP_eq_zero hp, h'.countP_eq_zero (mt hpq.mpr hp)]

/-- What holds of the same places may be said in its stead. -/
theorem congr (h : ExactlyOn code P ds) (hPQ : ∀ p, P p ↔ Q p) : ExactlyOn code Q ds where
  once p hp := h.once p ((hPQ p).mpr hp)
  only d hd hcode := by
    obtain ⟨p, hsite, hp⟩ := h.only d hd hcode
    exact ⟨p, hsite, (hPQ p).mp hp⟩

end Diagnostic.ExactlyOn

namespace Report

/-- Holds of the reports with a code that are about what stands at a position. -/
def isOn (code : Code) (p : Position) (r : Report) : Bool :=
  r.code = code && r.site.position = p

variable {code : Code} {p : Position} {r : Report}

theorem isOn_iff : r.isOn code p = true ↔ r.code = code ∧ r.site.position = p := by
  simp [isOn]

theorem severity_of_not_isDemotable (s : Strictness) (h : r.code.isDemotable = false) :
    r.severity s = .error := by
  simp [severity, h, Code.severity]

theorem isOn_diagnostic (s : Strictness) (file : Option Text) :
    (r.diagnostic s file).isOn code p = r.isOn code p := by
  simp [Diagnostic.isOn, isOn, diagnostic]

/-- Reports that strictness leaves alone are issues, one by one. -/
theorem countP_issues (hcode : code.isDemotable = false) (s : Strictness) (file : Option Text)
    (p : Position) (rs : List Report) :
    (issues s file rs).countP (Diagnostic.isOn code p) = rs.countP (isOn code p) := by
  rw [issues, List.countP_map, List.countP_filter]
  refine List.countP_congr ?_
  intro r _
  simp only [Function.comp, isOn_diagnostic, Bool.and_eq_true, decide_eq_true_eq, isOn_iff]
  constructor
  · rintro ⟨h, -⟩
    exact h
  · rintro ⟨rfl, hp⟩
    exact ⟨⟨rfl, hp⟩, by simp [severity_of_not_isDemotable s hcode]⟩

end Report

/-- Where one member alone gives anything to count, its count is that of all members. -/
theorem countP_flatMap_of_unique {α β : Type} [DecidableEq α] {xs : List α} {f : α → List β}
    {P : β → Bool} {a : α} (hxs : xs.Nodup) (ha : a ∈ xs)
    (h : ∀ x ∈ xs, ∀ y ∈ f x, P y = true → x = a) : (xs.flatMap f).countP P = (f a).countP P := by
  have hothers : ∀ x, x ≠ a → x ∈ xs → (List.countP P ∘ f) x = 0 := by
    intro x hne hx
    rw [Function.comp, List.countP_eq_zero]
    intro y hy hP
    exact hne (h x hx y hy hP)
  rw [List.countP_flatMap, List.sum_map_eq_nsmul_single (M := Nat) a _ hothers,
    List.count_eq_one_of_mem hxs ha, one_nsmul, Function.comp]

/-- Where each member gives one thing to count or none, those that give one are counted. -/
theorem countP_flatMap_of_ite {α β : Type} {xs : List α} {f : α → List β} {P : β → Bool}
    {Q : α → Bool} (h : ∀ x ∈ xs, (f x).countP P = if Q x then 1 else 0) :
    (xs.flatMap f).countP P = xs.countP Q := by
  induction xs with
  | nil => rfl
  | cons x xs ih =>
    obtain ⟨hx, hxs⟩ := List.forall_mem_cons.mp h
    rw [List.flatMap_cons, List.countP_append, List.countP_cons, hx, ih hxs, Nat.add_comm]

namespace Tree

variable {m : Mode} {root : Tree} {code : Code} {p q : Position}

/-- If one node alone has a code reported on a place, its reports are all that there are. -/
theorem countP_reports_eq (hq : q ∈ root.positions)
    (h : ∀ q' ∈ root.positions, ∀ r ∈ m.reports (root.parentAt q') (root.occurrenceAt q'),
      r.isOn code p = true → q' = q) :
    (root.reports m).countP (Report.isOn code p) =
      (m.reports (root.parentAt q) (root.occurrenceAt q)).countP (Report.isOn code p) :=
  countP_flatMap_of_unique root.nodup_positions hq h

/-- If each place that `P` holds of is reported with a code by the one node that is responsible for
it, once, and nothing else is reported with that code, the issues with it are exactly on those
places. -/
theorem exactlyOn_issues {P : Position → Prop} (Responsible : Position → Position → Prop)
    (hcode : code.isDemotable = false) (s : Strictness) (file : Option Text)
    (hunique : ∀ {q q' p}, Responsible q p → Responsible q' p → q = q')
    (honce : ∀ p, P p → ∃ q ∈ root.positions, Responsible q p ∧
      (m.reports (root.parentAt q) (root.occurrenceAt q)).countP (Report.isOn code p) = 1)
    (honly : ∀ q ∈ root.positions, ∀ r ∈ m.reports (root.parentAt q) (root.occurrenceAt q),
      r.code = code → Responsible q r.site.position ∧ P r.site.position) :
    Diagnostic.ExactlyOn code P (Report.issues s file (root.reports m)) where
  once p hp := by
    obtain ⟨q, hq, hresponsible, hcount⟩ := honce p hp
    have hother : ∀ q' ∈ root.positions,
        ∀ r ∈ m.reports (root.parentAt q') (root.occurrenceAt q'),
          r.isOn code p = true → q' = q := by
      intro q' hq' r hr hon
      obtain ⟨hrcode, rfl⟩ := Report.isOn_iff.mp hon
      exact hunique (honly q' hq' r hr hrcode).1 hresponsible
    rw [Report.countP_issues hcode, countP_reports_eq hq hother, hcount]
  only d hd hdcode := by
    obtain ⟨q, hq, r, hr, -, rfl⟩ := Report.exists_of_mem_issues hd
    exact ⟨_, rfl, (honly q hq r hr (Option.some.inj hdcode)).2⟩

/-- If the places that `P` holds of are reported with a code by the nodes that stand there, each
once, and nothing else is, the issues with it are exactly on those places. -/
theorem exactlyOn_issues_of_self {P : Position → Prop} (hcode : code.isDemotable = false)
    (s : Strictness) (file : Option Text)
    (honce : ∀ p, P p → p ∈ root.positions ∧
      (m.reports (root.parentAt p) (root.occurrenceAt p)).countP (Report.isOn code p) = 1)
    (honly : ∀ q ∈ root.positions, ∀ r ∈ m.reports (root.parentAt q) (root.occurrenceAt q),
      r.code = code → r.site.position = q ∧ P q) :
    Diagnostic.ExactlyOn code P (Report.issues s file (root.reports m)) := by
  refine exactlyOn_issues Eq hcode s file ?unique ?once ?only
  case unique =>
    rintro q q' p rfl rfl
    rfl
  case once =>
    intro p hp
    obtain ⟨hmem, hcount⟩ := honce p hp
    exact ⟨p, hmem, rfl, hcount⟩
  case only =>
    intro q hq r hr hrcode
    obtain ⟨rfl, hp⟩ := honly q hq r hr hrcode
    exact ⟨rfl, hp⟩

end Tree

end ManifestLint
