/-
ManifestLint.Proofs.Effects — the effects that an expression can reach.

Whether a tree is idem is decided by a recursion over its parts. Here the same is said by single
steps: a node passes on to the parts in some of its fields (`Kind.passedFields`), and it reaches
what a path of such steps leads to. Which field a part is in is a matter of the layout, so the
nodes have to be laid out: each of their single fields has one part, and there are no further parts
but those of the list.

The main statements: all parts of a transparent node are in fields that are passed on to
(`stepsTo_of_transparent`); so a tree is not idem exactly when it reaches an assignment, a
relationship or template output (`isIdem_eq_false_iff`).
-/
import ManifestLint.Proofs.Preorder
import ManifestLint.Tree.Effect
import Mathlib.Logic.Relation

namespace ManifestLint

/-! ## 1. Laid out nodes -/

namespace Layout

/-- All fields of a layout. -/
def fields (l : Layout) : List Field := l.front ++ l.list.toList ++ l.back

/-- Holds of the numbers of parts that fill the single fields, with more only if there is a list. -/
def fits (l : Layout) (count : Nat) : Bool :=
  l.front.length + l.back.length ≤ count &&
    (l.list.isSome || count ≤ l.front.length + l.back.length)

/-- Among the right number of parts each is in some field. -/
theorem exists_fieldAt {l : Layout} {count i : Nat} (hfits : l.fits count = true)
    (hi : i < count) : ∃ f ∈ l.fields, l.fieldAt count i = some f := by
  simp only [fits, Bool.and_eq_true, Bool.or_eq_true, decide_eq_true_eq] at hfits
  obtain ⟨hsingle, hlist⟩ := hfits
  unfold fieldAt
  split
  · rename_i hfront
    refine ⟨l.front[i], ?_, List.getElem?_eq_getElem hfront⟩
    simp [fields]
  · rename_i hfront
    split
    · rename_i hback
      have hlt : l.back.length + i - count < l.back.length := by omega
      refine ⟨l.back[l.back.length + i - count], ?_, List.getElem?_eq_getElem hlt⟩
      simp [fields]
    · rename_i hback
      have hsome : l.list.isSome = true := by
        rcases hlist with hlist | hlist
        · exact hlist
        · omega
      obtain ⟨f, hf⟩ := Option.isSome_iff_exists.mp hsome
      exact ⟨f, by simp [fields, hf], hf⟩

end Layout

/-- Holds of nodes with as many parts as their layout has room for. -/
def Tree.isLaidOut : Tree → Bool
  | node h _ ps => h.kind.layout.fits ps.length
  | foreign _ => true

/-! ## 2. Steps -/

/-- The fields that a node of the kind passes on to: what their trees do is done by the node. -/
def Kind.passedFields : Kind → List Field
  | .block => [.statements]
  | .caseStatement => [.test, .options]
  | .caseOption => [.values, .thenBranch]
  | .ifStatement | .unlessStatement => [.test, .thenBranch, .elseBranch]
  | .parenthesized => [.expr]
  | _ => []

/-- A transparent kind passes on to all of its fields. -/
theorem Kind.mem_passedFields_of_transparent : ∀ k : Kind, k.isTransparent = true →
    ∀ f ∈ k.layout.fields, f ∈ k.passedFields := by decide

/-- Only transparent kinds pass on at all. -/
theorem Kind.transparent_of_passedFields : ∀ k : Kind, k.passedFields ≠ [] →
    k.isTransparent = true := by decide

/-- The kinds that have an effect of their own. -/
def Kind.effects : List Kind := [.assignment, .relationship, .render, .renderText]

theorem Kind.isEffect_iff : ∀ k : Kind, k.isEffect = true ↔ k ∈ effects := by decide

namespace Tree

/-- A step leads from a node to a part in a field that the node passes on to. -/
def StepsTo (t u : Tree) : Prop :=
  ∃ h l ps i, t = node h l ps ∧ ps[i]? = some u ∧
    ∃ f ∈ h.kind.passedFields, h.kind.layout.fieldAt ps.length i = some f

/-- Some path of steps leads to an effect. -/
def ReachesEffect (t : Tree) : Prop :=
  ∃ u, Relation.ReflTransGen StepsTo t u ∧ ∃ k ∈ Kind.effects, u.kind? = some k

/-- A transparent node steps to each of its parts. -/
theorem stepsTo_of_transparent {h : Head} {l : Location} {ps : List Tree} {u : Tree}
    (hlaid : (node h l ps).isLaidOut = true) (htransparent : h.kind.isTransparent = true)
    (hu : u ∈ ps) : (node h l ps).StepsTo u := by
  obtain ⟨i, hi, rfl⟩ := List.getElem_of_mem hu
  obtain ⟨f, hf, hfield⟩ := Layout.exists_fieldAt hlaid hi
  exact ⟨h, l, ps, i, rfl, List.getElem?_eq_getElem hi, f,
    h.kind.mem_passedFields_of_transparent htransparent f hf, hfield⟩

/-- A node that steps to something is transparent, and steps to one of its parts. -/
theorem exists_of_stepsTo {t u : Tree} (h : t.StepsTo u) :
    ∃ head l ps, t = node head l ps ∧ head.kind.isTransparent = true ∧ u ∈ ps := by
  obtain ⟨head, l, ps, i, rfl, hi, f, hf, -⟩ := h
  refine ⟨head, l, ps, rfl, ?_, List.mem_of_getElem? hi⟩
  exact head.kind.transparent_of_passedFields (List.ne_nil_of_mem hf)

/-! ## 3. Effects that are reached -/

/-- What steps to something that is not idem is not idem. -/
theorem isIdem_eq_false_of_stepsTo {t u : Tree} (h : t.StepsTo u) (hu : u.isIdem = false) :
    t.isIdem = false := by
  obtain ⟨head, l, ps, rfl, htransparent, hmem⟩ := exists_of_stepsTo h
  rw [isIdem_node_of_transparent head l ps htransparent, List.all_eq_false]
  exact ⟨u, hmem, by simp [hu]⟩

/-- What reaches an effect is not idem. -/
theorem isIdem_eq_false_of_reachesEffect {t : Tree} (h : t.ReachesEffect) : t.isIdem = false := by
  obtain ⟨u, hpath, k, hk, hu⟩ := h
  induction hpath using Relation.ReflTransGen.head_induction_on with
  | refl =>
    cases u with
    | foreign x => cases hu
    | node head l ps =>
      cases hu
      exact isIdem_node_of_effect head l ps (head.kind.isEffect_iff.mpr hk)
  | head hstep _ ih => exact isIdem_eq_false_of_stepsTo hstep ih

mutual

/-- What is not idem reaches an effect. -/
theorem reachesEffect_of_isIdem_eq_false :
    ∀ t : Tree, (∀ u ∈ t.nodes, u.isLaidOut = true) → t.isIdem = false → t.ReachesEffect
  | node h l ps, hlaid, hidem => by
    rw [nodes_node, List.forall_mem_cons] at hlaid
    obtain ⟨hself, hparts⟩ := hlaid
    by_cases heffect : h.kind.isEffect = true
    · exact ⟨_, .refl, h.kind, h.kind.isEffect_iff.mp heffect, rfl⟩
    · by_cases htransparent : h.kind.isTransparent = true
      · rw [isIdem, if_neg heffect, if_pos htransparent] at hidem
        have hbelow : ∀ t ∈ ps, ∀ u ∈ t.nodes, u.isLaidOut = true := fun t ht u hu =>
          hparts u (List.mem_flatMap.mpr ⟨t, ht, hu⟩)
        obtain ⟨t, ht, u, hpath, hu⟩ := exists_reachesEffect_of_areIdem_eq_false ps hbelow hidem
        exact ⟨u, .head (stepsTo_of_transparent hself htransparent ht) hpath, hu⟩
      · rw [isIdem, if_neg heffect, if_neg htransparent] at hidem
        cases hidem
  | foreign _, _, hidem => by cases hidem

theorem exists_reachesEffect_of_areIdem_eq_false :
    ∀ ts : List Tree, (∀ t ∈ ts, ∀ u ∈ t.nodes, u.isLaidOut = true) → areIdem ts = false →
      ∃ t ∈ ts, t.ReachesEffect
  | [], _, hidem => by cases hidem
  | t :: ts, hlaid, hidem => by
    obtain ⟨hfirst, hrest⟩ := List.forall_mem_cons.mp hlaid
    rw [areIdem, Bool.and_eq_false_iff] at hidem
    rcases hidem with hidem | hidem
    · exact ⟨t, List.mem_cons_self, reachesEffect_of_isIdem_eq_false t hfirst hidem⟩
    · obtain ⟨u, hu, heffect⟩ := exists_reachesEffect_of_areIdem_eq_false ts hrest hidem
      exact ⟨u, List.mem_cons_of_mem t hu, heffect⟩

end

/-- A tree is not idem exactly when it reaches an assignment, a relationship or template output by
steps through the statements of blocks, the tests and options of cases, the values and bodies of
options, the tests and branches of conditionals, and what stands in parentheses. -/
theorem isIdem_eq_false_iff {t : Tree} (hlaid : ∀ u ∈ t.nodes, u.isLaidOut = true) :
    t.isIdem = false ↔ ∃ u, Relation.ReflTransGen StepsTo t u ∧
      ∃ k ∈ [Kind.assignment, .relationship, .render, .renderText], u.kind? = some k :=
  ⟨reachesEffect_of_isIdem_eq_false t hlaid, isIdem_eq_false_of_reachesEffect⟩

/-- A condition whose branch, in parentheses, assigns after a number. -/
def guardedAssignment : Tree :=
  .node .ifStatement .unknown
    [.node (.boolean true) .unknown [],
      .node .block .unknown
        [.node (.integer 1) .unknown [],
          .node .parenthesized .unknown
            [.node (.assignment "=") .unknown
              [.node (.var "x") .unknown [], .node .undef .unknown []]]],
      absent]

/-- The condition reaches the assignment. -/
theorem isIdem_eq_false_iff_guarded : (∀ u ∈ guardedAssignment.nodes, u.isLaidOut = true) ∧
    ∃ u, Relation.ReflTransGen StepsTo guardedAssignment u ∧
      ∃ k ∈ [Kind.assignment, .relationship, .render, .renderText], u.kind? = some k := by
  have hlaid : ∀ u ∈ guardedAssignment.nodes, u.isLaidOut = true := by decide
  exact ⟨hlaid, (isIdem_eq_false_iff hlaid).mp (by decide)⟩

end Tree

end ManifestLint
