/-
ManifestLint.Tree.Position — places inside a tree.

A position is the list of part numbers that lead from the root to a place. An
occurrence is a tree together with the place where it stands, and a visit is a
node's occurrence together with its parent's. `Tree.visits` lists the visits of
all nodes in pre-order: the root, then each part that is a node, in order,
with all that is inside it.

The main statements: looking a position up goes step by step (`at?_append`), and
every visit stands where it says (`at?_of_mem_visits`).
-/
import ManifestLint.Tree.Basic

namespace ManifestLint

/-- The part numbers that lead from the root to a place. -/
abbrev Position := List Nat

/-- A tree and the place where it stands. -/
structure Occurrence where
  position : Position
  tree : Tree

/-- A node being looked at, and the node that it is a direct part of. -/
structure Visit where
  parent : Option Occurrence
  node : Occurrence

namespace Occurrence

/-- A whole tree, standing at the root. -/
def root (t : Tree) : Occurrence := ⟨[], t⟩

/-- Part `i` of an occurrence. -/
def part (o : Occurrence) (i : Nat) : Occurrence := ⟨o.position ++ [i], o.tree.part i⟩

end Occurrence

namespace Tree

/-- What stands at a position, if anything does. -/
def at? (t : Tree) : Position → Option Tree
  | [] => some t
  | i :: p => (t.parts[i]?).bind fun u => u.at? p

@[simp] theorem at?_nil (t : Tree) : t.at? [] = some t := rfl

theorem at?_cons (t : Tree) (i : Nat) (p : Position) :
    t.at? (i :: p) = (t.parts[i]?).bind fun u => u.at? p := rfl

/-- Walking two paths one after the other is walking their concatenation. -/
theorem at?_append (t : Tree) (p q : Position) :
    t.at? (p ++ q) = (t.at? p).bind fun u => u.at? q := by
  induction p generalizing t with
  | nil => rfl
  | cons i p ih =>
    simp only [List.cons_append, at?_cons]
    cases t.parts[i]? with
    | none => rfl
    | some u => exact ih u

mutual

/-- The visits of a tree standing at `p` under `parent`. -/
def visitsAt (parent : Option Occurrence) (p : Position) : Tree → List Visit
  | node h l ps => ⟨parent, ⟨p, node h l ps⟩⟩ :: visitsOfParts ⟨p, node h l ps⟩ 0 ps
  | foreign _ => []

/-- The visits of the parts of `parent` from number `i` on. -/
def visitsOfParts (parent : Occurrence) (i : Nat) : List Tree → List Visit
  | [] => []
  | t :: ts => visitsAt (some parent) (parent.position ++ [i]) t ++ visitsOfParts parent (i + 1) ts

end

/-- The visits of all nodes of a tree, in pre-order. -/
def visits (t : Tree) : List Visit := visitsAt none [] t

/-- The nodes of a tree, in pre-order. -/
def nodes (t : Tree) : List Tree := t.visits.map fun v => v.node.tree

/-- The positions of the nodes of a tree, in pre-order. -/
def positions (t : Tree) : List Position := t.visits.map fun v => v.node.position

mutual

theorem at?_of_mem_visitsAt {root : Tree} {parent : Option Occurrence} {p : Position} :
    ∀ (t : Tree), root.at? p = some t → ∀ v ∈ visitsAt parent p t,
      root.at? v.node.position = some v.node.tree
  | node h l ps, ht, v, hv => by
    simp only [visitsAt, List.mem_cons] at hv
    rcases hv with rfl | hv
    · exact ht
    · have hroot : root.at? (Occurrence.mk p (node h l ps)).position =
          some (Occurrence.mk p (node h l ps)).tree := ht
      exact at?_of_mem_visitsOfParts hroot 0 ps (by simp) v hv
  | foreign _, _, v, hv => by simp [visitsAt] at hv

theorem at?_of_mem_visitsOfParts {root : Tree} {parent : Occurrence}
    (hroot : root.at? parent.position = some parent.tree) (i : Nat) :
    ∀ (ts : List Tree), ts = parent.tree.parts.drop i → ∀ v ∈ visitsOfParts parent i ts,
      root.at? v.node.position = some v.node.tree
  | [], _, v, hv => by simp [visitsOfParts] at hv
  | t :: ts, hts, v, hv => by
    have hi : parent.tree.parts[i]? = some t := by
      rw [← List.head?_drop, ← hts]; rfl
    have hrest : ts = parent.tree.parts.drop (i + 1) := by
      rw [← List.tail_drop, ← hts]; rfl
    simp only [visitsOfParts, List.mem_append] at hv
    rcases hv with hv | hv
    · refine at?_of_mem_visitsAt t ?_ v hv
      rw [at?_append, hroot]
      simp [at?_cons, hi]
    · exact at?_of_mem_visitsOfParts hroot (i + 1) ts hrest v hv

end

/-- Every visit is of what stands at its position. -/
theorem at?_of_mem_visits (t : Tree) (v : Visit) (hv : v ∈ t.visits) :
    t.at? v.node.position = some v.node.tree :=
  at?_of_mem_visitsAt t rfl v hv

end Tree

end ManifestLint
