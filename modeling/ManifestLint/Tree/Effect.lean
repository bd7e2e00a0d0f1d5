/-
ManifestLint.Tree.Effect — which trees change the state of an evaluation.

Assignments, relationships and template output have an effect. Blocks, cases and
their options, conditionals and parentheses have the effects of their parts. All
other nodes count as having none, calls included: nothing is known about what a
called function does. A tree without an effect is called idem.

The main statement: a transparent node is idem exactly when all its parts are
(`isIdem_node_of_transparent`).
-/
import ManifestLint.Tree.Basic

namespace ManifestLint

/-- Kinds that have an effect whatever their parts are. -/
def Kind.isEffect : Kind → Bool
  | .assignment | .relationship | .render | .renderText => true
  | _ => false

/-- Kinds that have just the effects of their parts. -/
def Kind.isTransparent : Kind → Bool
  | .block | .caseStatement | .caseOption | .ifStatement | .unlessStatement | .parenthesized => true
  | _ => false

namespace Tree

mutual

/-- Holds of trees that are known to leave the state as it is. -/
def isIdem : Tree → Bool
  | node h _ ps =>
    if h.kind.isEffect then false
    else if h.kind.isTransparent then areIdem ps
    else true
  | foreign _ => true

/-- Holds of parts that are all idem. -/
def areIdem : List Tree → Bool
  | [] => true
  | t :: ts => t.isIdem && areIdem ts

end

theorem areIdem_eq_all (ts : List Tree) : areIdem ts = ts.all isIdem := by
  induction ts with
  | nil => rfl
  | cons t ts ih => simp [areIdem, ih]

theorem isIdem_node_of_effect (h : Head) (l : Location) (ps : List Tree)
    (he : h.kind.isEffect = true) : (node h l ps).isIdem = false := by
  simp [isIdem, he]

theorem isIdem_node_of_transparent (h : Head) (l : Location) (ps : List Tree)
    (ht : h.kind.isTransparent = true) : (node h l ps).isIdem = ps.all isIdem := by
  have he : h.kind.isEffect = false := by
    cases hk : h.kind <;> simp [hk, Kind.isTransparent] at ht <;> rfl
  simp [isIdem, he, ht, areIdem_eq_all]

@[simp] theorem isIdem_foreign (x : Foreign) : (foreign x).isIdem = true := rfl

end Tree

end ManifestLint
