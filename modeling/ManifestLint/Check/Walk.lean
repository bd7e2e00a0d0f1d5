/-
ManifestLint.Check.Walk — walking a tree with the way down to it at hand.

A walk carries a state and the path of nodes that lead to the current place,
innermost first. Each node is handed to a step together with the node on top of
the path, its parent; then it is put on the path while its parts are walked, and
taken off again. Parts that are no nodes are passed over.

The main statements: a walk ends with the path that it began with (`path_of_walkAt`),
and it goes step by step through the visits of the tree (`walkAt_eq_foldVisits`).
-/
import ManifestLint.Tree.Position

namespace ManifestLint

/-- The state of a walk and the nodes that lead to the current place, innermost first. -/
structure Walk (σ : Type) where
  path : List Occurrence
  state : σ

namespace Walk

variable {ε σ : Type}

/-- The direct parent of the node at hand; none at the root. -/
def container (w : Walk σ) : Option Occurrence := w.path.head?

mutual

/-- Walks a tree that stands at `p`. -/
def walkAt (step : Option Occurrence → Occurrence → σ → Except ε σ) (p : Position) :
    Tree → Walk σ → Except ε (Walk σ)
  | .node h l ps, w => do
    let state ← step w.container ⟨p, .node h l ps⟩ w.state
    let below ← walkParts step p 0 ps { path := ⟨p, .node h l ps⟩ :: w.path, state }
    return { below with path := below.path.tail }
  | .foreign _, w => .ok w

/-- Walks the parts, from number `i` on, of the node at `p`. -/
def walkParts (step : Option Occurrence → Occurrence → σ → Except ε σ) (p : Position) (i : Nat) :
    List Tree → Walk σ → Except ε (Walk σ)
  | [], w => .ok w
  | t :: ts, w => do walkParts step p (i + 1) ts (← walkAt step (p ++ [i]) t w)

end

/-- Walks a whole tree, starting from a state. -/
def run (step : Option Occurrence → Occurrence → σ → Except ε σ) (root : Tree) (state : σ) :
    Except ε (Walk σ) :=
  walkAt step [] root ⟨[], state⟩

/-! ## Laws -/

/-- Steps through visits one after another. -/
def foldVisits (step : Option Occurrence → Occurrence → σ → Except ε σ) :
    List Visit → σ → Except ε σ
  | [], s => .ok s
  | v :: vs, s => (step v.parent v.node s).bind (foldVisits step vs)

theorem foldVisits_append (step : Option Occurrence → Occurrence → σ → Except ε σ)
    (vs us : List Visit) (s : σ) :
    foldVisits step (vs ++ us) s = (foldVisits step vs s).bind (foldVisits step us) := by
  induction vs generalizing s with
  | nil => rfl
  | cons v vs ih =>
    simp only [List.cons_append, foldVisits]
    cases step v.parent v.node s with
    | error e => rfl
    | ok s' => exact ih s'

mutual

/-- A walk goes through the visits of the tree and leaves the path as it was. -/
theorem walkAt_eq_foldVisits (step : Option Occurrence → Occurrence → σ → Except ε σ) :
    ∀ (t : Tree) (p : Position) (w : Walk σ),
      walkAt step p t w =
        (foldVisits step (t.visitsAt w.container p) w.state).map fun s => { w with state := s }
  | .node h l ps, p, w => by
    simp only [walkAt, Tree.visitsAt, foldVisits, bind, Except.bind]
    cases step w.container ⟨p, .node h l ps⟩ w.state with
    | error e => rfl
    | ok s =>
      simp only
      rw [walkParts_eq_foldVisits step ps ⟨p, .node h l ps⟩ 0
        ⟨⟨p, .node h l ps⟩ :: w.path, s⟩ rfl]
      cases foldVisits step (Tree.visitsOfParts ⟨p, .node h l ps⟩ 0 ps) s <;> rfl
  | .foreign _, p, w => by simp [walkAt, Tree.visitsAt, foldVisits, Except.map]

theorem walkParts_eq_foldVisits (step : Option Occurrence → Occurrence → σ → Except ε σ) :
    ∀ (ts : List Tree) (parent : Occurrence) (i : Nat) (w : Walk σ),
      w.container = some parent →
      walkParts step parent.position i ts w =
        (foldVisits step (Tree.visitsOfParts parent i ts) w.state).map
          fun s => { w with state := s }
  | [], parent, i, w, _ => by simp [walkParts, Tree.visitsOfParts, foldVisits, Except.map]
  | t :: ts, parent, i, w, hw => by
    simp only [walkParts, Tree.visitsOfParts, foldVisits_append, bind, Except.bind]
    rw [walkAt_eq_foldVisits step t (parent.position ++ [i]) w, hw]
    cases foldVisits step (t.visitsAt (some parent) (parent.position ++ [i])) w.state with
    | error e => rfl
    | ok s => exact walkParts_eq_foldVisits step ts parent (i + 1) { w with state := s } hw

end

/-- A walk ends with the path that it began with. -/
theorem path_of_walkAt {step : Option Occurrence → Occurrence → σ → Except ε σ} {p : Position}
    {t : Tree} {w w' : Walk σ} (h : walkAt step p t w = .ok w') : w'.path = w.path := by
  rw [walkAt_eq_foldVisits] at h
  cases hf : foldVisits step (t.visitsAt w.container p) w.state with
  | error e => simp [hf, Except.map] at h
  | ok s => simp [hf, Except.map] at h; rw [← h]

end Walk

end ManifestLint
